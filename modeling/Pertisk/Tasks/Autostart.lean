import Pertisk.Tasks.Boot

namespace Pertisk.Tasks
open Lib

variable {s t : Host} {p q : Phase} {m : Move Host Phase} {i : ℕ} {a : Answer} {r : VmRecord}
  {c : Caller} {id : VmId} {elapsed since : Nat} {todo : List VmRecord} {quorum : Bool}

section autostart

theorem queued_rest (h : Queued s id elapsed (r :: todo)) (hid : r.id ≠ id) :
    Queued s id elapsed todo := by
  rcases h with ⟨hup, hdone⟩ | ⟨r', hwanted, hnew, hin, hall⟩
  · exact .inl ⟨hup, hdone.imp_right (fun hrest r' hr' => hrest r' (List.mem_cons_of_mem _ hr'))⟩
  · refine .inr ⟨r', hwanted, hnew, hin.imp_left (fun hin => ?_), ?_⟩
    · rcases List.mem_cons.mp hin with rfl | hin
      · exact absurd (Table.key_of_get hwanted.1) hid
      · exact hin
    · exact fun r'' hr'' => hall r'' (List.mem_cons_of_mem _ hr'')

theorem stage_own (helapsed : since ≤ elapsed) (hid : r.id = id)
    (hidle : ∃ r, t.get id = some r ∧ Idle t r) (hdone : id ∈ t.autostarted) :
    Stage quorum since t id (.taken r elapsed todo) := by
  refine ⟨helapsed, ?_⟩
  rw [if_pos hid]
  exact ⟨hidle, hdone⟩

/-- The pass comes to this guest. -/
theorem own_autostart (h : Stage quorum since s id (.autostart elapsed (r :: todo))) (hid : r.id = id)
    (hturn : s.passTurn a (.autostart elapsed (r :: todo)) = some m) : Advances quorum since id m := by
  obtain ⟨helapsed, ⟨hup, hdone⟩ | ⟨r', hwanted, hnew, hin, hall⟩⟩ := h
  · -- The guest runs: it is put down as started, and left alone.
    have hrest : Queued s id elapsed todo :=
      .inl ⟨hup, hdone.imp_right (fun hrest r' hr' => hrest r' (List.mem_cons_of_mem _ hr'))⟩
    simp only [Host.passTurn] at hturn
    split at hturn
    · cases hturn
      exact .goes ⟨helapsed, hrest⟩
    · split at hturn
      · cases hturn
        exact .goes ⟨helapsed, hrest⟩
      · rename_i hnot
        cases hturn
        have hstate : r.state = .running := by
          refine hdone.resolve_left (fun hin => hnot ?_) r List.mem_cons_self hid
          rw [hid]
          exact List.contains_iff_mem.mpr hin
        rw [if_pos hstate]
        refine .goes ⟨helapsed, .inl ⟨hup, .inl ?_⟩⟩
        rw [← hid]
        exact List.mem_cons_self
  · have hsame : r = r' := hall r List.mem_cons_self hid
    subst hsame
    have hnot : s.autostarted.contains r.id = false := by
      rw [Bool.eq_false_iff, hid]
      exact fun hin => hnew (List.contains_iff_mem.mp hin)
    simp only [Host.passTurn, hnot, if_false, Bool.false_eq_true, hwanted.2.1.1] at hturn
    split at hturn
    · rename_i hearly
      cases hturn
      refine .goes ⟨helapsed, .inr ⟨r, hwanted, hnew, .inr hearly, fun r' hr' => ?_⟩⟩
      exact hall r' (List.mem_cons_of_mem _ hr')
    · cases hturn
      refine .goes (stage_own helapsed hid ⟨r, hwanted.1, hwanted.2.1⟩ ?_)
      rw [← hid]
      exact List.mem_cons_self

theorem other_autostart (h : Stage quorum since s id (.autostart elapsed (r :: todo)))
    (hid : r.id ≠ id) (hturn : s.passTurn a (.autostart elapsed (r :: todo)) = some m) :
    Advances quorum since id m := by
  obtain ⟨helapsed, hqueued⟩ := h
  have hrest := queued_rest hqueued hid
  simp only [Host.passTurn] at hturn
  split at hturn
  · cases hturn
    exact .goes ⟨helapsed, hrest⟩
  · split at hturn
    · cases hturn
      exact .goes ⟨helapsed, hrest⟩
    · cases hturn
      split
      · exact .goes ⟨helapsed, (Beside.takes hid).queued hrest⟩
      · refine .goes ⟨helapsed, ?_⟩
        rw [if_neg hid]
        exact (Beside.takes hid).queued hrest

theorem queued_done (helapsed : since ≤ elapsed) (h : Queued s id elapsed []) :
    Done quorum since s id := by
  rcases h with ⟨hup, -⟩ | ⟨r, hwanted, hnew, hin | hlate, -⟩
  · exact ⟨⟨fun _ => hup, .inl hup⟩, fun _ => .inl hup⟩
  · cases hin
  · refine ⟨⟨fun hin => absurd hin hnew, .inr (.inl ⟨r, hwanted⟩)⟩, fun _ => .inr ?_⟩
    exact ⟨r, hwanted.1, Nat.lt_of_le_of_lt helapsed hlate⟩

theorem stage_autostart (h : Stage quorum since s id (.autostart elapsed todo))
    (hturn : s.passTurn a (.autostart elapsed todo) = some m) : Advances quorum since id m := by
  cases todo with
  | nil =>
    cases hturn
    exact .ends (queued_done h.1 h.2)
  | cons r todo =>
    by_cases hid : r.id = id
    · exact own_autostart h hid hturn
    · exact other_autostart h hid hturn

theorem stage_taken (h : Stage quorum since s id (.taken r elapsed todo))
    (hallowed : Allowed s a (.taken r elapsed todo) = true)
    (hturn : s.passTurn a (.taken r elapsed todo) = some m) : Advances quorum since id m := by
  cases hturn
  have hroom : s.startCapacity r a = true := hallowed
  rw [if_pos hroom]
  exact .goes h

end autostart

section starting

theorem starts_own {own : Prop} {id' : VmId} (hid : id' = id) (h : Starts since s id id' c own) :
    ∃ elapsed todo, c = .autostart elapsed todo ∧ since ≤ elapsed ∧ own ∧ id ∈ s.autostarted := by
  cases c with
  | request => exact h.elim
  | autostart elapsed todo =>
    rw [Starts, if_pos hid] at h
    exact ⟨elapsed, todo, rfl, h⟩

theorem starts_other {own : Prop} {id' : VmId} (hid : id' ≠ id) (h : Starts since s id id' c own) :
    ∃ elapsed todo, c = .autostart elapsed todo ∧ since ≤ elapsed ∧ Queued s id elapsed todo := by
  cases c with
  | request => exact h.elim
  | autostart elapsed todo =>
    rw [Starts, if_neg hid] at h
    exact ⟨elapsed, todo, rfl, h⟩

/-- The call is another guest's, and goes on. -/
theorem Starts.beside {own own' : Prop} {id' id'' : VmId} (h : Starts since s id id' c own)
    (hid : id' ≠ id) (hid' : id'' ≠ id) (hbeside : Beside s t id) : Starts since t id id'' c own' := by
  obtain ⟨elapsed, todo, rfl, helapsed, hqueued⟩ := starts_other hid h
  rw [Starts, if_neg hid']
  exact ⟨helapsed, hbeside.queued hqueued⟩

theorem starts_go {own : Prop} {id' : VmId} (helapsed : since ≤ elapsed) (hid : id' = id) (hown : own)
    (hin : id ∈ t.autostarted) : Starts since t id id' (.autostart elapsed todo) own := by
  rw [Starts, if_pos hid]
  exact ⟨helapsed, hown, hin⟩

/-- Another guest's call returns. -/
theorem Starts.returns {own : Prop} {id' : VmId} (h : Starts since s id id' c own) (hid : id' ≠ id)
    (hbeside : Beside s t id) : Advances quorum since id (c.goOn t) := by
  obtain ⟨elapsed, todo, rfl, helapsed, hqueued⟩ := starts_other hid h
  exact .goes ⟨helapsed, hbeside.queued hqueued⟩

theorem idle_upsert (hid : r.id = id) (h : Idle s r) :
    ∃ r', (s.upsert r).get id = some r' ∧ Idle (s.upsert r) r' := by
  refine ⟨r, ?_, idle_congr rfl h⟩
  rw [get_upsert]
  exact if_pos hid

theorem idle_created {created : Option Created} (h : Idle s r) : Idle s (r.withCreated created) := by
  cases created <;> exact h

/-- This guest's start call takes its step, with the room and the answer that it needs. -/
theorem own_startTurn (h : Stage quorum since s id p) (hyes : a.toBool = true)
    (hallowed : Allowed s a p = true) (hid : p.starts = some id)
    (hturn : s.startTurn i a p = some m) : Advances quorum since id m := by
  cases p with
  | start id' c =>
    cases hid
    obtain ⟨elapsed, todo, rfl, helapsed, ⟨r, hget, hidle⟩, hin⟩ := starts_own rfl h
    simp only [Host.startTurn, asks_get, hget, hidle.2.2, if_false, Bool.false_eq_true] at hturn
    cases hturn
    exact .goes (starts_go helapsed (Table.key_of_get hget) hidle hin)
  | prepared r c =>
    cases hid
    obtain ⟨elapsed, todo, rfl, helapsed, hidle, hin⟩ := starts_own rfl h
    simp only [Host.startTurn, hidle.1, if_false] at hturn
    cases hturn
    exact .goes (starts_go helapsed rfl (idle_upsert rfl hidle) hin)
  | waiting id' c =>
    cases hid
    obtain ⟨elapsed, todo, rfl, helapsed, ⟨r, hget, hidle⟩, hin⟩ := starts_own rfl h
    simp only [Host.startTurn, asks_get, hget] at hturn
    split at hturn
    · cases hturn
      exact .goes (starts_go helapsed (Table.key_of_get hget) hidle hin)
    · cases hturn
  | reread r c =>
    cases hid
    obtain ⟨elapsed, todo, rfl, helapsed, hidle, hin⟩ := starts_own rfl h
    simp only [Host.startTurn, hidle.1, if_false] at hturn
    cases hturn
    exact .goes (starts_go helapsed rfl hidle hin)
  | checking r c =>
    cases hid
    obtain ⟨elapsed, todo, rfl, helapsed, hidle, hin⟩ := starts_own rfl h
    have hroom : s.startCapacity r a = true := hallowed
    simp only [Host.startTurn, asks_startCapacity, hroom, if_true] at hturn
    cases hturn
    exact .goes (starts_go helapsed rfl hidle hin)
  | starting r c =>
    cases hid
    obtain ⟨elapsed, todo, rfl, helapsed, hidle, hin⟩ := starts_own rfl h
    cases a with
    | error text => cases hyes
    | ok process =>
      cases hturn
      have hkey := r.withCreated_id process
      refine .goes (starts_go helapsed hkey ⟨idle_created hidle, List.contains_iff_mem.mpr ?_⟩ hin)
      rw [← hkey]
      exact List.mem_cons_self
  | created r c =>
    cases hid
    obtain ⟨elapsed, todo, rfl, helapsed, ⟨hidle, hlives⟩, hin⟩ := starts_own rfl h
    cases a with
    | error text => cases hyes
    | ok process =>
      simp only [Host.startTurn, hlives, if_true] at hturn
      cases hturn
      refine .goes (starts_go helapsed (r.started_id _ none _) ⟨?_, hlives⟩ hin)
      have hmine := hidle.2.1
      rw [Host.mine, beq_iff_eq] at hmine
      simp [Host.runsHere, Host.mine, VmRecord.started, VmRecord.withCreated, hmine]
  | launched r c =>
    cases hid
    obtain ⟨elapsed, todo, rfl, helapsed, ⟨hruns, hlives⟩, hin⟩ := starts_own rfl h
    cases hturn
    have hget : (s.upsert r).get r.id = some r := by
      rw [get_upsert]
      exact if_pos rfl
    exact .goes ⟨helapsed, .inl ⟨⟨hlives, r, hget, hruns⟩, .inl hin⟩⟩
  | _ => cases hid

/-- Another guest's start call takes its step. -/
theorem other_startTurn {id' : VmId} (h : Stage quorum since s id p) (hid : p.starts = some id')
    (hne : id' ≠ id) (hturn : s.startTurn i a p = some m) : Advances quorum since id m := by
  have hupsert : ∀ (c : Caller) (r r' : VmRecord), r'.id ≠ id →
      Beside s ((c.asks s r.id).upsert r') id := fun c r r' hr => (Beside.asks r.id).trans (.upsert hr)
  have hread : ∀ {id'' : VmId} {r : VmRecord}, id'' ≠ id → s.get id'' = some r → r.id ≠ id := by
    intro id'' r hne hget
    rw [Table.key_of_get hget]
    exact hne
  cases p with
  | start id' c =>
    cases hid
    simp only [Host.startTurn, asks_get] at hturn
    split at hturn
    · cases hturn
      exact h.returns hne (.asks id')
    · rename_i r hget
      cases hturn
      split
      · exact h.returns hne (.asks id')
      · exact .goes (h.beside hne (hread hne hget) (.asks id'))
  | prepared r c =>
    cases hid
    cases hturn
    split
    · exact h.returns hne (hupsert c r r hne)
    · exact .goes (h.beside hne hne (hupsert c r r hne))
  | waiting id' c =>
    cases hid
    simp only [Host.startTurn, asks_get] at hturn
    split at hturn
    · split at hturn
      · cases hturn
        exact h.returns hne (.asks id')
      · rename_i r hget
        cases hturn
        exact .goes (h.beside hne (hread hne hget) ((Beside.asks id').gate _))
    · cases hturn
  | reread r c =>
    cases hid
    cases hturn
    split
    · exact h.returns hne ((hupsert c r r hne).gate _)
    · exact .goes (h.beside hne hne (hupsert c r r hne))
  | checking r c =>
    cases hid
    cases hturn
    split
    · exact .goes (h.beside hne hne (.asks r.id))
    · exact h.returns hne ((Beside.asks r.id).gate _)
  | starting r c =>
    cases hid
    simp only [Host.startTurn] at hturn
    split at hturn
    · rename_i process
      cases hturn
      have hkey : (r.withCreated process).id ≠ id := by
        rw [VmRecord.withCreated_id]
        exact hne
      exact .goes (h.beside hne hkey ((hupsert c r (r.withCreated process) hkey).alive _))
    · rename_i text
      cases hturn
      exact h.returns hne ((hupsert c r (r.failed text) hne).gate _)
  | created r c =>
    cases hid
    simp only [Host.startTurn] at hturn
    split at hturn
    · split at hturn
      · cases hturn
        refine .goes (h.beside hne ?_ .refl)
        rw [VmRecord.started_id]
        exact hne
      · cases hturn
    · rename_i text
      cases hturn
      have hkey : (r.failed text).id ≠ id := hne
      exact h.returns hne ((Beside.upsert hkey).gate _)
  | launched r c =>
    cases hid
    cases hturn
    have hreturns : Advances quorum since id (c.goOn { s.upsert r with gate := .cooling }) :=
      h.returns hne ((Beside.upsert hne).gate .cooling)
    exact ⟨hreturns.1, hreturns.2⟩
  | _ => cases hid

end starting

/-- A step of a tick. -/
theorem stage_turn (hcreated : s.createdThisBoot = []) (h : Stage quorum since s id p)
    (hyes : a.toBool = true) (hallowed : Allowed s a p = true) (hturn : s.turn i a p = some m) :
    Advances quorum since id m := by
  have hstart : (∃ id', p.starts = some id') → s.startTurn i a p = some m →
      Advances quorum since id m := by
    rintro ⟨id', hid'⟩ hturn
    by_cases hid : id' = id
    · exact own_startTurn h hyes hallowed (hid ▸ hid') hturn
    · exact other_startTurn h hid' hid hturn
  cases p with
  | start id' c => exact hstart ⟨_, rfl⟩ hturn
  | prepared r c => exact hstart ⟨_, rfl⟩ hturn
  | waiting id' c => exact hstart ⟨_, rfl⟩ hturn
  | reread r c => exact hstart ⟨_, rfl⟩ hturn
  | checking r c => exact hstart ⟨_, rfl⟩ hturn
  | starting r c => exact hstart ⟨_, rfl⟩ hturn
  | created r c => exact hstart ⟨_, rfl⟩ hturn
  | launched r c => exact hstart ⟨_, rfl⟩ hturn
  | reconcile todo tick =>
    cases todo with
    | nil => exact stage_list (a := a) hcreated h hturn
    | cons r todo =>
      by_cases hid : r.id = id
      · exact own_look h hid hturn
      · exact other_look h hid hturn
  | exited id' f =>
    cases f with
    | watch => exact h.elim
    | reconcile rest tick => exact stage_exited h hturn
  | marking r f =>
    cases f with
    | watch => exact h.elim
    | reconcile rest tick => exact stage_marking h hturn
  | marked r f =>
    cases f with
    | watch => exact h.elim
    | reconcile rest tick => exact stage_marked h hturn
  | autostart elapsed todo => exact stage_autostart h hturn
  | taken r elapsed todo => exact stage_taken h hallowed hturn
  | _ => exact h.elim

end Pertisk.Tasks
