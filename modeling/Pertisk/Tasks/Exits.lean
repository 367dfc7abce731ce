import Pertisk.Tasks.Course

namespace Pertisk.Tasks
open Lib

variable {s t : Host} {p q : Phase} {m : Move Host Phase} {i j : ℕ} {a : Answer} {r r₀ : VmRecord}
  {c : Caller} {f : Finder} {id : VmId}

/-- A record of the guest is about to be written as it was read or made before. -/
def Phase.writes (id : VmId) : Phase → Bool
  | writing r => id == r.id
  | _ => false

/-- Who has an eye on the guest after a step, when its record says that it runs. -/
def Sight (s : Host) (p : Phase) (m : Move Host Phase) (id : VmId) (r : VmRecord) : Prop :=
  (s.get id = some r ∧ (p.watches id = true → ∃ q, m.next = some q ∧ q.watches id = true)) ∨
    (∃ q, m.spawned = some q ∧ q.watches id = true) ∨ p.autostarts id = true ∨ p.writes id = true

theorem runsHere_state (h : s.runsHere r = true) : r.state = .running := by
  rw [Host.runsHere, Bool.and_eq_true, beq_iff_eq] at h
  exact h.1

theorem Sight.same (hget : m.shared.get id = some r) (hstore : m.shared.get id = s.get id)
    (hw : p.watches id = false) : Sight s p m id r := by
  refine .inl ⟨by rw [← hstore]; exact hget, fun h => ?_⟩
  rw [hw] at h
  cases h

/-- A record that is written for another guest leaves this one's in place. -/
theorem Sight.written {v : VmRecord} (hget : m.shared.get id = some r)
    (hstore : m.shared.get id = (t.upsert v).get id) (ht : t.get id = s.get id)
    (hw : p.watches id = false) (hown : v.id = id → r = v → Sight s p m id r) : Sight s p m id r := by
  rw [hstore, get_upsert] at hget
  split at hget
  · rename_i hid
    cases hget
    exact hown hid rfl
  · rename_i hid
    refine .same (by rw [hstore, get_upsert, if_neg hid]; exact hget) ?_ hw
    rw [hstore, get_upsert, if_neg hid, ht]

theorem asks_off (h : id ∈ (c.asks s r.id).off) (hid : r.id = id) : c.autostarts id r.id = true := by
  cases c with
  | request => exact absurd hid.symm (mem_asked.mp h).2
  | autostart elapsed rest =>
    rw [hid]
    exact beq_self_eq_true id

theorem watchOf_watches (h : s.runsHere r = true) :
    ∃ q, s.watchOf r = some q ∧ q.watches r.id = true :=
  ⟨.watch r, by rw [Host.watchOf, if_pos h], beq_self_eq_true r.id⟩

theorem sight_startTurn (h : s.startTurn i a p = some m) (hid : id ∈ m.shared.off)
    (hget : m.shared.get id = some r) (hruns : s.runsHere r = true) : Sight s p m id r := by
  have hstate := runsHere_state hruns
  cases p with
  | start id' c =>
    simp only [Host.startTurn] at h
    split at h
    · cases h
      exact .same hget (by simp) rfl
    · cases h
      split at hget
      · split
        · exact .same hget (by simp) rfl
        · contradiction
      · split
        · contradiction
        · exact .same hget (by simp) rfl
  | prepared r₀ c =>
    cases h
    have hshared : ∀ x : Move Host Phase, x = (if r₀.state = .running then
        c.goOn ((c.asks s r₀.id).upsert r₀)
        else { shared := (c.asks s r₀.id).upsert r₀, next := some (.waiting r₀.id c) }) →
        x.shared = (c.asks s r₀.id).upsert r₀ := by
      intro x hx
      rw [hx]
      split
      · exact goOn_shared c _
      · rfl
    have heq := hshared _ rfl
    rw [heq] at hid
    refine .written hget (by rw [heq]) (asks_get c s r₀.id id) rfl (fun hrid _ => ?_)
    exact .inr (.inr (.inl (asks_off hid hrid)))
  | waiting id' c =>
    simp only [Host.startTurn] at h
    split at h
    · split at h
      · cases h
        exact .same hget (by simp) rfl
      · cases h
        exact .same hget (asks_get c s id' id) rfl
    · cases h
  | reread r₀ c =>
    cases h
    have hshared : ∀ x : Move Host Phase, x = (if r₀.state = .running then
        c.goOn { (c.asks s r₀.id).upsert r₀ with gate := .free }
        else { shared := (c.asks s r₀.id).upsert r₀, next := some (.checking r₀ c) }) →
        x.shared.off = (c.asks s r₀.id).off ∧
          x.shared.get id = ((c.asks s r₀.id).upsert r₀).get id := by
      intro x hx
      rw [hx]
      split
      · rw [goOn_shared]
        exact ⟨rfl, rfl⟩
      · exact ⟨rfl, rfl⟩
    obtain ⟨hoff, hstore⟩ := hshared _ rfl
    rw [hoff] at hid
    refine .written hget hstore (asks_get c s r₀.id id) rfl (fun hrid _ => ?_)
    exact .inr (.inr (.inl (asks_off hid hrid)))
  | checking r₀ c =>
    cases h
    refine .same hget ?_ rfl
    split
    · exact asks_get c s r₀.id id
    · rw [goOn_shared]
      exact asks_get c s r₀.id id
  | starting r₀ c =>
    simp only [Host.startTurn] at h
    split at h
    · rename_i process
      cases h
      have hoff : id ∈ (c.asks s r₀.id).off := hid
      refine .written (t := c.asks s r₀.id) hget rfl (asks_get c s r₀.id id) rfl (fun hrid _ => ?_)
      rw [VmRecord.withCreated_id] at hrid
      exact .inr (.inr (.inl (asks_off hoff hrid)))
    · rename_i text
      cases h
      rw [goOn_shared] at hid
      refine .written (t := c.asks s r₀.id) (v := r₀.failed text) hget (by rw [goOn_shared]; rfl)
        (asks_get c s r₀.id id) rfl (fun _ hr => ?_)
      rw [hr] at hstate
      cases hstate
  | created r₀ c =>
    simp only [Host.startTurn] at h
    split at h
    · split at h
      · cases h
        exact .same hget rfl rfl
      · cases h
    · rename_i text
      cases h
      refine .written (t := s) (v := r₀.failed text) hget (by rw [goOn_shared]; rfl) rfl rfl
        (fun _ hr => ?_)
      rw [hr] at hstate
      cases hstate
  | launched r₀ c =>
    cases h
    refine .written (t := s) (v := r₀) hget (by rw [goOn_shared]; rfl) rfl rfl (fun hrid hr => ?_)
    obtain ⟨q, hq, hw⟩ := watchOf_watches (hr ▸ hruns : s.runsHere r₀ = true)
    exact .inr (.inl ⟨q, hq, by rw [← hrid]; exact hw⟩)
  | _ => cases h

theorem sight_stopTurn (h : s.stopTurn a p = some m) (hget : m.shared.get id = some r)
    (hruns : s.runsHere r = true) : Sight s p m id r := by
  have hstate := runsHere_state hruns
  cases p with
  | stop id' hard again =>
    simp only [Host.stopTurn] at h
    split at h
    · cases h
      exact .same hget rfl rfl
    · cases h
      refine .same hget ?_ rfl
      split <;> rfl
  | stopping r₀ again =>
    simp only [Host.stopTurn] at h
    split at h
    · split at h
      · cases h
        exact .same hget rfl rfl
      · cases h
        exact .same hget rfl rfl
    · cases h
      exact .same hget rfl rfl
  | stopped r₀ again =>
    cases h
    refine .written (t := s) (v := r₀.stopped) hget rfl rfl rfl (fun _ hr => ?_)
    rw [hr] at hstate
    cases hstate
  | writing r₀ =>
    cases h
    refine .written (t := s) (v := r₀) hget rfl rfl rfl (fun hrid _ => ?_)
    exact .inr (.inr (.inr (beq_iff_eq.mpr hrid.symm)))
  | finishing r₀ =>
    cases h
    refine .written (t := s) (v := r₀) hget rfl rfl rfl (fun hrid hr => ?_)
    obtain ⟨q, hq, hw⟩ := watchOf_watches (hr ▸ hruns : s.runsHere r₀ = true)
    exact .inr (.inl ⟨q, hq, by rw [← hrid]; exact hw⟩)
  | _ => cases h

/-- The exit watch goes on until the record says that the guest is stopped. -/
theorem sight_exitTurn (h : s.exitTurn p = some m) (hget : m.shared.get id = some r)
    (hruns : s.runsHere r = true) : Sight s p m id r := by
  have hstate := runsHere_state hruns
  cases p with
  | watch r₀ =>
    simp only [Host.exitTurn] at h
    split at h
    · rename_i hnone
      cases h
      refine .inl ⟨hget, fun hw => ?_⟩
      rw [← beq_iff_eq.mp hw] at hnone
      rw [hnone] at hget
      cases hget
    · rename_i now hnow
      cases h
      have hold : s.get id = some r := by
        split at hget
        · exact hget
        · exact hget
      refine .inl ⟨hold, fun hw => ?_⟩
      have hid : id = r₀.id := beq_iff_eq.mp hw
      rw [← hid, hold] at hnow
      cases hnow
      rw [if_neg (by simpa using hstate)]
      refine ⟨_, rfl, ?_⟩
      split
      · exact hw
      · exact hw
  | exited id' f =>
    simp only [Host.exitTurn] at h
    split at h
    · rename_i hnone
      cases h
      rw [finder_shared] at hget
      refine .inl ⟨hget, fun hw => ?_⟩
      cases f with
      | watch =>
        rw [← beq_iff_eq.mp hw] at hnone
        rw [hnone] at hget
        cases hget
      | reconcile rest tick => cases hw
    · rename_i now hnow
      cases h
      have hold : s.get id = some r := by
        split at hget
        · exact hget
        · rwa [finder_shared] at hget
      refine .inl ⟨hold, fun hw => ?_⟩
      cases f with
      | watch =>
        rw [← beq_iff_eq.mp hw, hold] at hnow
        cases hnow
        rw [if_pos hruns]
        refine ⟨_, rfl, ?_⟩
        have hkey : r.id = id := Table.key_of_get hold
        exact beq_iff_eq.mpr hkey.symm
      | reconcile rest tick => cases hw
  | marking r₀ f =>
    cases h
    refine .inl ⟨hget, fun hw => ⟨_, rfl, ?_⟩⟩
    cases f with
    | watch => exact hw
    | reconcile rest tick => cases hw
  | marked r₀ f =>
    cases h
    rw [finder_shared, get_upsert] at hget
    split at hget
    · cases hget
      cases hstate
    · rename_i hid
      refine .inl ⟨hget, fun hw => ?_⟩
      cases f with
      | watch => exact absurd (beq_iff_eq.mp hw).symm hid
      | reconcile rest tick => cases hw
  | _ => cases h

theorem sight_passTurn (h : s.passTurn a p = some m) (hget : m.shared.get id = some r) :
    Sight s p m id r := by
  refine .same hget ?_ ?_
  · cases p with
    | reconcile todo tick =>
      cases todo with
      | nil =>
        cases h
        rfl
      | cons r₀ todo =>
        simp only [Host.passTurn] at h
        split at h
        · cases h
          dsimp only
          split <;> rfl
        · split at h
          · cases h
            dsimp only
            split <;> rfl
          · cases h
            rfl
    | autostart elapsed todo =>
      cases todo with
      | nil =>
        cases h
        rfl
      | cons r₀ todo =>
        simp only [Host.passTurn] at h
        split at h
        · cases h
          rfl
        · split at h
          · cases h
            rfl
          · cases h
            rfl
    | taken r₀ elapsed todo =>
      cases h
      split <;> rfl
    | shutdown todo =>
      cases todo with
      | nil =>
        cases h
        rfl
      | cons r₀ todo =>
        cases h
        dsimp only
        split <;> rfl
    | _ => cases h
  · cases p <;> first
      | rfl
      | cases h

theorem sight_turn (h : s.turn i a p = some m) (hid : id ∈ m.shared.off)
    (hget : m.shared.get id = some r) (hruns : s.runsHere r = true) : Sight s p m id r := by
  unfold Host.turn at h
  split at h
  all_goals first
    | exact sight_startTurn h hid hget hruns
    | exact sight_stopTurn h hget hruns
    | exact sight_exitTurn h hget hruns
    | exact sight_passTurn h hget

end Pertisk.Tasks
