import Pertisk.Tasks.Course
import Pertisk.Tasks.Leaving

namespace Pertisk.Tasks
open Lib

/-- The guest runs, and is recorded as running. -/
def Up (s : Host) (id : VmId) : Prop :=
  s.lives id = true ∧ ∃ r, s.get id = some r ∧ s.runsHere r = true

/-- A record from which a start may set out. -/
def Idle (s : Host) (r : VmRecord) : Prop :=
  r.state ≠ .running ∧ s.mine r = true ∧ r.template = false

/-- Autostart starts the guest, once its delay has passed. -/
def Wanted (s : Host) (id : VmId) (r : VmRecord) : Prop :=
  s.get id = some r ∧ Idle s r ∧ (r.spec.autostart = true ∨ id ∈ s.restoreOnBoot)

/-- The guest's record is as it was left. -/
def Waits (s : Host) (id : VmId) (r : VmRecord) : Prop := s.get id = some r ∧ ∃ auto, Restorable s auto r

/-- Autostart has put down as started only what runs. -/
def Honest (s : Host) (id : VmId) : Prop := id ∈ s.autostarted → Up s id

/-- Between two ticks: the guest runs, or it has still to be started. -/
def Rests (s : Host) (id : VmId) : Prop :=
  Honest s id ∧ (Up s id ∨ (∃ r, Wanted s id r) ∨ ∃ r, Waits s id r)

/-- The reconcile pass has looked for the guest, or it is still to come. -/
def Pending (s : Host) (id : VmId) (todo : List VmRecord) : Prop :=
  Honest s id ∧
    (((Up s id ∨ ∃ r, Wanted s id r) ∧ ∀ r ∈ todo, r.id = id → s.get id = some r) ∨
      ∃ r ∈ todo, Waits s id r)

/-- The autostart pass has nothing to do with a guest that runs; it has still to come to another one,
or the guest's delay has not passed. -/
def Queued (s : Host) (id : VmId) (elapsed : Nat) (todo : List VmRecord) : Prop :=
  (Up s id ∧ (id ∈ s.autostarted ∨ ∀ r ∈ todo, r.id = id → r.state = .running)) ∨
    ∃ r, Wanted s id r ∧ id ∉ s.autostarted ∧ (r ∈ todo ∨ elapsed < r.spec.autostartDelay) ∧
      ∀ r' ∈ todo, r'.id = id → r' = r

/-- Before autostart has listed the inventory. -/
def Early (since : Nat) (s : Host) (todo : List VmRecord) : Prop :=
  (todo.map VmRecord.id).Nodup ∧ since ≤ s.elapsed

/-- The start call that a pass makes: of this guest, or of another one. -/
def Starts (since : Nat) (s : Host) (id started : VmId) (c : Caller) (own : Prop) : Prop :=
  match c with
  | .request => False
  | .autostart elapsed todo =>
    since ≤ elapsed ∧ if started = id then own ∧ id ∈ s.autostarted else Queued s id elapsed todo

/-- The guest that a start call is about. -/
def Phase.starts : Phase → Option VmId
  | start id _ | waiting id _ => some id
  | prepared r _ | reread r _ | checking r _ | starting r _ | created r _ | launched r _ => some r.id
  | _ => none

/-- How far a tick has come with a guest, when it autostarts or does not. -/
def Stage (quorum : Bool) (since : Nat) (s : Host) (id : VmId) : Phase → Prop
  | .reconcile todo tick => tick = quorum ∧ Early since s todo ∧ Pending s id todo
  | .exited id' (.reconcile todo tick) =>
    tick = quorum ∧ Early since s todo ∧
      if id' = id then id ∉ todo.map VmRecord.id ∧ id ∉ s.autostarted ∧ id ∈ s.restoreOnBoot ∧
        ∃ r, s.get id = some r ∧ s.runsHere r = true ∧ r.template = false
      else Pending s id todo
  | .marking r (.reconcile todo tick) | .marked r (.reconcile todo tick) =>
    tick = quorum ∧ Early since s todo ∧
      if r.id = id then id ∉ todo.map VmRecord.id ∧ id ∉ s.autostarted ∧ id ∈ s.restoreOnBoot ∧
        s.mine r = true ∧ r.template = false
      else Pending s id todo
  | .autostart elapsed todo => since ≤ elapsed ∧ Queued s id elapsed todo
  | .taken r elapsed todo =>
    since ≤ elapsed ∧ if r.id = id then (∃ r, s.get id = some r ∧ Idle s r) ∧ id ∈ s.autostarted
      else Queued s id elapsed todo
  | .start id' c | .waiting id' c => Starts since s id id' c (∃ r, s.get id = some r ∧ Idle s r)
  | .prepared r c | .reread r c | .checking r c | .starting r c =>
    Starts since s id r.id c (Idle s r)
  | .created r c => Starts since s id r.id c (Idle s r ∧ s.lives id = true)
  | .launched r c => Starts since s id r.id c (s.runsHere r = true ∧ s.lives id = true)
  | _ => False

/-- A tick is over: the guest runs, unless its delay had not passed. -/
def Done (quorum : Bool) (since : Nat) (s : Host) (id : VmId) : Prop :=
  Rests s id ∧ (quorum = true →
    Up s id ∨ ∃ r, s.get id = some r ∧ since < r.spec.autostartDelay)

variable {s t : Host} {p q : Phase} {m : Move Host Phase} {i : ℕ} {a : Answer} {r : VmRecord}
  {c : Caller} {id : VmId} {elapsed since : Nat} {todo : List VmRecord} {quorum : Bool}

theorem idle_congr (hself : t.self = s.self) (h : Idle s r) : Idle t r := by
  obtain ⟨hstate, hmine, htemplate⟩ := h
  refine ⟨hstate, ?_, htemplate⟩
  rw [Host.mine, hself]
  exact hmine

theorem runsHere_self (hself : t.self = s.self) (h : s.runsHere r = true) : t.runsHere r = true := by
  rw [Host.runsHere, Host.mine, hself]
  exact h

/-- A guest that autostart is to start does not run. -/
theorem Wanted.honest (hwanted : Wanted s id r) (h : Honest s id) : id ∉ s.autostarted := by
  intro hin
  obtain ⟨-, r', hget, hruns⟩ := h hin
  rw [hwanted.1] at hget
  cases hget
  exact hwanted.2.1.1 (runsHere_state hruns)

section beside

/-- A step that touches other guests only. -/
structure Beside (s t : Host) (id : VmId) : Prop where
  self : t.self = s.self
  get : t.get id = s.get id
  lives : s.lives id = true → t.lives id = true
  restore : id ∈ s.restoreOnBoot → id ∈ t.restoreOnBoot
  autostarted : id ∈ t.autostarted ↔ id ∈ s.autostarted
  elapsed : s.elapsed ≤ t.elapsed

theorem Beside.refl : Beside s s id := ⟨rfl, rfl, fun hl => hl, fun hr => hr, .rfl, le_refl _⟩

theorem Beside.trans {u : Host} (h : Beside s t id) (h' : Beside t u id) : Beside s u id where
  self := h'.self.trans h.self
  get := h'.get.trans h.get
  lives hl := h'.lives (h.lives hl)
  restore hr := h'.restore (h.restore hr)
  autostarted := h'.autostarted.trans h.autostarted
  elapsed := h.elapsed.trans h'.elapsed

theorem Beside.up (h : Beside s t id) (hup : Up s id) : Up t id := by
  obtain ⟨hlives, r, hget, hruns⟩ := hup
  exact ⟨h.lives hlives, r, h.get.trans hget, runsHere_self h.self hruns⟩

theorem Beside.idle (h : Beside s t id) (hidle : ∃ r, s.get id = some r ∧ Idle s r) :
    ∃ r, t.get id = some r ∧ Idle t r := by
  obtain ⟨r, hget, hr⟩ := hidle
  exact ⟨r, h.get.trans hget, idle_congr h.self hr⟩

theorem Beside.wanted (h : Beside s t id) (hwanted : Wanted s id r) : Wanted t id r := by
  obtain ⟨hget, hidle, hauto⟩ := hwanted
  exact ⟨h.get.trans hget, idle_congr h.self hidle, hauto.imp_right h.restore⟩

theorem Beside.waits (h : Beside s t id) (hwaits : Waits s id r) : Waits t id r := by
  obtain ⟨hget, auto, hkin, hstate⟩ := hwaits
  exact ⟨h.get.trans hget, auto, kin_congr h.self hkin, hstate⟩

theorem Beside.honest (h : Beside s t id) (hhonest : Honest s id) : Honest t id :=
  fun hin => h.up (hhonest (h.autostarted.mp hin))

theorem Beside.rests (h : Beside s t id) (hrests : Rests s id) : Rests t id :=
  ⟨h.honest hrests.1, hrests.2.imp h.up
    (Or.imp (fun ⟨r, hr⟩ => ⟨r, h.wanted hr⟩) (fun ⟨r, hr⟩ => ⟨r, h.waits hr⟩))⟩

theorem Beside.pending (h : Beside s t id) (hpending : Pending s id todo) : Pending t id todo := by
  obtain ⟨hhonest, ⟨hlooked, hread⟩ | ⟨r, hr, hwaits⟩⟩ := hpending
  · refine ⟨h.honest hhonest, .inl ⟨hlooked.imp h.up (fun ⟨r, hr⟩ => ⟨r, h.wanted hr⟩), ?_⟩⟩
    exact fun r hr hid => h.get.trans (hread r hr hid)
  · exact ⟨h.honest hhonest, .inr ⟨r, hr, h.waits hwaits⟩⟩

theorem Beside.queued (h : Beside s t id) (hqueued : Queued s id elapsed todo) :
    Queued t id elapsed todo := by
  rcases hqueued with ⟨hup, hdone⟩ | ⟨r, hwanted, hnew, hrest⟩
  · exact .inl ⟨h.up hup, hdone.imp_left h.autostarted.mpr⟩
  · exact .inr ⟨r, h.wanted hwanted, fun hin => hnew (h.autostarted.mp hin), hrest⟩

theorem Beside.early (h : Beside s t id) (hearly : Early since s todo) : Early since t todo :=
  ⟨hearly.1, hearly.2.trans h.elapsed⟩

theorem Beside.asks (id' : VmId) : Beside s (c.asks s id') id := by
  cases c <;> exact ⟨rfl, rfl, fun hl => hl, fun hr => hr, .rfl, le_refl _⟩

theorem Beside.upsert (hid : r.id ≠ id) : Beside s (s.upsert r) id :=
  ⟨rfl, by rw [get_upsert, if_neg hid], fun hl => hl, fun hr => hr, .rfl, le_refl _⟩

theorem Beside.kill {id' : VmId} (hid : id' ≠ id) : Beside s (s.kill id') id := by
  refine ⟨rfl, rfl, fun hl => ?_, fun hr => hr, .rfl, le_refl _⟩
  rw [lives_kill, hl, Bool.true_and, bne_iff_ne]
  exact hid.symm

theorem Beside.alive (h : Beside s t id) (id' : VmId) :
    Beside s { t with alive := id' :: t.alive } id := by
  refine ⟨h.self, h.get, fun hl => ?_, h.restore, h.autostarted, h.elapsed⟩
  have hin := List.contains_iff_mem.mp (h.lives hl)
  exact List.contains_iff_mem.mpr (List.mem_cons_of_mem _ hin)

theorem Beside.gate (h : Beside s t id) (g : Gate) : Beside s { t with gate := g } id :=
  ⟨h.self, h.get, h.lives, h.restore, h.autostarted, h.elapsed⟩

theorem Beside.wait (seconds : Nat) : Beside s { s with elapsed := s.elapsed + seconds } id :=
  ⟨rfl, rfl, fun hl => hl, fun hr => hr, .rfl, Nat.le_add_right _ _⟩

theorem Beside.restores (id' : VmId) :
    Beside s { s with restoreOnBoot := id' :: s.restoreOnBoot } id :=
  ⟨rfl, rfl, fun hl => hl, fun hr => List.mem_cons_of_mem _ hr, .rfl, le_refl _⟩

theorem Beside.takes {id' : VmId} (hid : id' ≠ id) :
    Beside s { s with autostarted := id' :: s.autostarted } id := by
  refine ⟨rfl, rfl, fun hl => hl, fun hr => hr, ⟨fun hin => ?_, List.mem_cons_of_mem _⟩, le_refl _⟩
  exact (List.mem_cons.mp hin).resolve_left hid.symm

end beside

/-- After a step the tick is at a later stage, or it is over. -/
def Advances (quorum : Bool) (since : Nat) (id : VmId) (m : Move Host Phase) : Prop :=
  (∀ q, m.next = some q → Stage quorum since m.shared id q) ∧
    (m.next = none → Done quorum since m.shared id)

theorem Advances.goes {p : Phase} (h : Stage quorum since t id p) :
    Advances quorum since id { shared := t, next := some p } := by
  refine ⟨fun q hq => ?_, fun hnone => ?_⟩
  · cases hq
    exact h
  · cases hnone

theorem Advances.ends (h : Done quorum since t id) :
    Advances quorum since id { shared := t } := by
  refine ⟨fun q hq => ?_, fun _ => h⟩
  cases hq

/-- The room that a start needs. -/
def Allowed (s : Host) (answer : Answer) : Phase → Bool
  | .taken r _ _ | .checking r _ => s.startCapacity r answer
  | _ => true

section reconciling

theorem early_rest (h : Early since s (r :: todo)) : Early since s todo :=
  ⟨(List.nodup_cons.mp h.1).2, h.2⟩

/-- The pass has looked for another guest. -/
theorem pending_other (hid : r.id ≠ id) (h : Pending s id (r :: todo)) : Pending s id todo := by
  obtain ⟨hhonest, ⟨hlooked, hread⟩ | ⟨r', hr', hwaits⟩⟩ := h
  · exact ⟨hhonest, .inl ⟨hlooked, fun r' hr' => hread r' (List.mem_cons_of_mem _ hr')⟩⟩
  · rcases List.mem_cons.mp hr' with rfl | hin
    · exact absurd (Table.key_of_get hwaits.1) hid
    · exact ⟨hhonest, .inr ⟨r', hin, hwaits⟩⟩

/-- The pass comes to the guest: it runs, or it is marked for a start, or it is as it was left. -/
theorem pending_head (hid : r.id = id) (hnodup : ((r :: todo).map VmRecord.id).Nodup)
    (h : Pending s id (r :: todo)) :
    Honest s id ∧ id ∉ todo.map VmRecord.id ∧ (Up s id ∨ Wanted s id r ∨ Waits s id r) ∧
      s.get id = some r := by
  have hout : id ∉ todo.map VmRecord.id := hid ▸ (List.nodup_cons.mp hnodup).1
  obtain ⟨hhonest, ⟨hlooked, hread⟩ | ⟨r', hr', hwaits⟩⟩ := h
  · have hget := hread r List.mem_cons_self hid
    refine ⟨hhonest, hout, ?_, hget⟩
    rcases hlooked with hup | ⟨r', hwanted⟩
    · exact .inl hup
    · have hsame := hwanted.1
      rw [hget] at hsame
      cases hsame
      exact .inr (.inl hwanted)
  · rcases List.mem_cons.mp hr' with rfl | hin
    · exact ⟨hhonest, hout, .inr (.inr hwaits), hwaits.1⟩
    · have hkey : r'.id = id := Table.key_of_get hwaits.1
      exact absurd (hkey ▸ List.mem_map_of_mem hin) hout

/-- The pass has looked for the guest. -/
theorem pending_looked (hhonest : Honest s id) (hout : id ∉ todo.map VmRecord.id)
    (h : Up s id ∨ ∃ r, Wanted s id r) : Pending s id todo := by
  refine ⟨hhonest, .inl ⟨h, fun r hr hid => ?_⟩⟩
  exact absurd (hid ▸ List.mem_map_of_mem hr) hout

/-- The pass comes to this guest. -/
theorem own_look {tick : Bool} (h : Stage quorum since s id (.reconcile (r :: todo) tick))
    (hid : r.id = id) (hturn : s.passTurn a (.reconcile (r :: todo) tick) = some m) :
    Advances quorum since id m := by
  obtain ⟨htick, hearly, hpending⟩ := h
  obtain ⟨hhonest, hout, hcase, hget⟩ := pending_head hid hearly.1 hpending
  have hmine : s.mine r = true := by
    rcases hcase with ⟨-, r', hget', hruns⟩ | ⟨-, hidle, -⟩ | ⟨-, auto, hkin, -⟩
    · rw [hget] at hget'
      cases hget'
      exact (Bool.and_eq_true_iff.mp hruns).2
    · exact hidle.2.1
    · exact hkin.1
  simp only [Host.passTurn, hmine, Bool.not_true, Bool.and_false, if_false, Bool.false_eq_true]
    at hturn
  split at hturn
  · -- The guest is gone: it is marked stopped, and queued for autostart.
    rename_i hgone
    rw [Bool.and_eq_true, Bool.not_eq_true'] at hgone
    have hdown : ¬ Up s id := by
      rintro ⟨hlives, -⟩
      rw [← hid, hgone.2] at hlives
      cases hlives
    have htemplate : r.template = false := by
      rcases hcase with hup | ⟨-, hidle, -⟩ | ⟨-, auto, hkin, -⟩
      · exact absurd hup hdown
      · exact hidle.2.2
      · exact hkin.2.1
    cases hturn
    rw [htemplate, if_neg Bool.false_ne_true]
    refine .goes ⟨htick, early_rest hearly, ?_⟩
    rw [if_pos hid]
    refine ⟨hout, fun hin => hdown (hhonest hin), ?_, r, hget, hgone.1, htemplate⟩
    rw [← hid]
    exact List.mem_cons_self
  · rename_i hthere
    cases hturn
    refine .goes ⟨htick, early_rest hearly, pending_looked hhonest hout ?_⟩
    rcases hcase with hup | hwanted | ⟨-, auto, ⟨-, htemplate, hauto⟩, hstate⟩
    · exact .inl hup
    · exact .inr ⟨r, hwanted⟩
    · by_cases hruns : r.state = .running
      · have hhere : s.runsHere r = true := by
          rw [Host.runsHere, hmine, Bool.and_true, beq_iff_eq]
          exact hruns
        rw [hhere, Bool.true_and, Bool.not_eq_true, Bool.not_eq_false', hid] at hthere
        exact .inl ⟨hthere, r, hget, hhere⟩
      · exact .inr ⟨r, hget, ⟨hruns, hmine, htemplate⟩,
          .inl (hauto.trans (hstate.resolve_right hruns))⟩

theorem other_look {tick : Bool} (h : Stage quorum since s id (.reconcile (r :: todo) tick))
    (hid : r.id ≠ id) (hturn : s.passTurn a (.reconcile (r :: todo) tick) = some m) :
    Advances quorum since id m := by
  obtain ⟨htick, hearly, hpending⟩ := h
  have hrest := pending_other hid hpending
  have hstill := early_rest hearly
  simp only [Host.passTurn] at hturn
  split at hturn
  · cases hturn
    split
    · exact .goes ⟨htick, (Beside.kill hid).early hstill, (Beside.kill hid).pending hrest⟩
    · exact .goes ⟨htick, hstill, hrest⟩
  · split at hturn
    · cases hturn
      have hstep : ∀ u, Beside s u id →
          Stage quorum since u id (.exited r.id (.reconcile todo tick)) := by
        intro u hbeside
        refine ⟨htick, hbeside.early hstill, ?_⟩
        rw [if_neg hid]
        exact hbeside.pending hrest
      split
      · exact .goes (hstep s .refl)
      · exact .goes (hstep _ (.restores r.id))
    · cases hturn
      exact .goes ⟨htick, hstill, hrest⟩

/-- Autostart lists the inventory after the reconcile pass, or the pass is over. -/
theorem stage_list {tick : Bool} (hcreated : s.createdThisBoot = [])
    (h : Stage quorum since s id (.reconcile [] tick))
    (hturn : s.passTurn a (.reconcile [] tick) = some m) : Advances quorum since id m := by
  obtain ⟨rfl, ⟨-, helapsed⟩, hhonest, ⟨hlooked, -⟩ | ⟨r, hr, -⟩⟩ := h
  · cases hturn
    cases tick with
    | false => exact .ends ⟨⟨hhonest, hlooked.imp_right .inl⟩, fun htrue => by cases htrue⟩
    | true =>
      refine .goes ⟨helapsed, ?_⟩
      rcases hlooked with hup | ⟨r, hwanted⟩
      · refine .inl ⟨hup, .inr (fun r hr hid => ?_)⟩
        obtain ⟨-, r', hget', hruns⟩ := hup
        have hget := (mem_candidates hr).1
        rw [hid, hget'] at hget
        cases hget
        exact runsHere_state hruns
      · have hnew := hwanted.honest hhonest
        obtain ⟨hget, hidle, hwant⟩ := hwanted
        have hkey : r.id = id := Table.key_of_get hget
        have hcandidate : r ∈ s.candidates := by
          refine (List.mergeSort_perm _ _).mem_iff.mpr
            (List.mem_filter.mpr ⟨Table.mem_of_get hget, ?_⟩)
          have hlisted : (r.spec.autostart || s.restoreOnBoot.contains r.id) = true := by
            rw [Bool.or_eq_true, hkey]
            exact hwant.imp_right (fun hin => List.contains_iff_mem.mpr hin)
          rw [hidle.2.2, hidle.2.1, hcreated, hlisted]
          rfl
        refine .inr ⟨r, ⟨hget, hidle, hwant⟩, hnew, .inl hcandidate, fun r' hr' hid' => ?_⟩
        have hget' := (mem_candidates hr').1
        rw [hid', hget] at hget'
        exact (Option.some.inj hget').symm
  · cases hr

theorem stage_exited {id' : VmId} {tick : Bool}
    (h : Stage quorum since s id (.exited id' (.reconcile todo tick)))
    (hturn : s.exitTurn (.exited id' (.reconcile todo tick)) = some m) :
    Advances quorum since id m := by
  obtain ⟨htick, hearly, hstage⟩ := h
  simp only [Host.exitTurn] at hturn
  by_cases hid : id' = id
  · rw [if_pos hid] at hstage
    obtain ⟨hout, hnew, hrestore, r, hget, hruns, htemplate⟩ := hstage
    rw [hid, hget] at hturn
    simp only [hruns, if_true] at hturn
    cases hturn
    refine .goes ⟨htick, hearly, ?_⟩
    rw [if_pos (Table.key_of_get hget)]
    exact ⟨hout, hnew, hrestore, (Bool.and_eq_true_iff.mp hruns).2, htemplate⟩
  · rw [if_neg hid] at hstage
    split at hturn
    · cases hturn
      exact .goes ⟨htick, hearly, hstage⟩
    · rename_i r hget
      cases hturn
      have hne : r.id ≠ id := by
        rw [Table.key_of_get hget]
        exact hid
      split
      · refine .goes ⟨htick, hearly, ?_⟩
        rw [if_neg hne]
        exact hstage
      · exact .goes ⟨htick, hearly, hstage⟩

theorem stage_marking {tick : Bool} (h : Stage quorum since s id (.marking r (.reconcile todo tick)))
    (hturn : s.exitTurn (.marking r (.reconcile todo tick)) = some m) :
    Advances quorum since id m := by
  obtain ⟨htick, hearly, hstage⟩ := h
  cases hturn
  refine .goes ⟨htick, hearly, ?_⟩
  split
  · rename_i hid
    rw [if_pos hid] at hstage
    exact hstage
  · rename_i hid
    rw [if_neg hid] at hstage
    exact (Beside.kill hid).pending hstage

/-- The guest is marked stopped, and queued for the next autostart pass. -/
theorem stage_marked {tick : Bool} (h : Stage quorum since s id (.marked r (.reconcile todo tick)))
    (hturn : s.exitTurn (.marked r (.reconcile todo tick)) = some m) :
    Advances quorum since id m := by
  obtain ⟨htick, hearly, hstage⟩ := h
  cases hturn
  refine .goes ⟨htick, hearly, ?_⟩
  by_cases hid : r.id = id
  · rw [if_pos hid] at hstage
    obtain ⟨hout, hnew, hrestore, hmine, htemplate⟩ := hstage
    have hget : (s.upsert r.stopped).get id = some r.stopped := by
      rw [get_upsert]
      exact if_pos hid
    refine pending_looked (fun hin => absurd hin hnew) hout (.inr ⟨r.stopped, hget, ?_, .inr hrestore⟩)
    exact ⟨by simp [VmRecord.stopped], hmine, htemplate⟩
  · rw [if_neg hid] at hstage
    have hne : r.stopped.id ≠ id := hid
    exact (Beside.upsert hne).pending hstage

end reconciling

end Pertisk.Tasks
