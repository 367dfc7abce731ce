import Pertisk.Tasks.Effect

namespace Pertisk.Tasks
open Lib

def Caller.records : Caller → List VmRecord
  | .request => []
  | .autostart _ rest => rest

def Finder.records : Finder → List VmRecord
  | .watch => []
  | .reconcile rest _ => rest

/-- An autostart pass that starts this guest. -/
def Caller.autostarts (c : Caller) (id started : VmId) : Bool :=
  match c with
  | .request => false
  | .autostart _ _ => id == started

namespace Phase

/-- The records that a task holds, as they were when it read them. -/
def records : Phase → List VmRecord
  | start _ c | waiting _ c => c.records
  | prepared r c | reread r c | checking r c | starting r c | created r c | launched r c =>
    r :: c.records
  | stop _ _ _ => []
  | stopping r _ | stopped r _ | writing r | finishing r | watch r => [r]
  | exited _ f => f.records
  | marking r f | marked r f => r :: f.records
  | reconcile todo _ | autostart _ todo | shutdown todo => todo
  | taken r _ rest => r :: rest

/-- The guests that an autostart pass has still to look at. -/
def queue : Phase → List VmId
  | start _ c | waiting _ c | prepared _ c | reread _ c | checking _ c | starting _ c | created _ c
  | launched _ c => c.records.map VmRecord.id
  | autostart _ todo => todo.map VmRecord.id
  | taken _ _ rest => rest.map VmRecord.id
  | _ => []

/-- An autostart pass has taken the guest, and has not made its process yet. -/
def autostarts (id : VmId) : Phase → Bool
  | start id' c | waiting id' c => c.autostarts id id'
  | prepared r c | reread r c | checking r c | starting r c => c.autostarts id r.id
  | taken r _ _ => id == r.id
  | _ => false

/-- An exit watch is on the guest, or marks it stopped. -/
def watches (id : VmId) : Phase → Bool
  | watch r | marking r .watch | marked r .watch => id == r.id
  | exited id' .watch => id == id'
  | _ => false

/-- A reconcile pass is about to find the guest gone. -/
def finds (s : Host) (id : VmId) : Phase → Bool
  | reconcile (r :: _) _ => id == r.id && s.runsHere r && !s.lives r.id
  | _ => false

end Phase

/-- What a step does to what is known of a guest that ended by itself. -/
structure Change (s : Host) (p : Phase) (t : Host) : Prop where
  self : t.self = s.self
  off : ∀ id ∈ t.off, id ∈ s.off
  alive : ∀ id ∈ t.off, t.lives id = true → s.lives id = true ∨ p.autostarts id = true
  autostarted : ∀ id ∈ s.autostarted, id ∈ t.autostarted ∨ p.autostarts id = true
  restore : ∀ id ∈ t.restoreOnBoot, id ∈ s.restoreOnBoot ∨ p.finds s id = true
  store : ∀ id r, t.get id = some r → s.get id = some r ∨
    ∃ r₀ ∈ p.records, r₀.id = id ∧ r.spec.autostart = r₀.spec.autostart

/-- What a task's next phase, or a task that it spawns, takes over. -/
structure Follows (s : Host) (p q : Phase) : Prop where
  records : ∀ r ∈ q.records, s.get r.id = some r ∨
    ∃ r₀ ∈ p.records, r₀.id = r.id ∧ r.spec.autostart = r₀.spec.autostart
  queue : ∀ id ∈ q.queue, id ∈ p.queue ∨
    ∃ r, s.get id = some r ∧ (r.spec.autostart = true ∨ id ∈ s.restoreOnBoot)
  starts : ∀ id, q.autostarts id = true → p.autostarts id = true ∨
    (id ∈ p.queue ∧ id ∉ s.autostarted)

structure Course (s : Host) (p : Phase) (m : Move Host Phase) : Prop where
  shared : Change s p m.shared
  next : ∀ q, m.next = some q → Follows s p q
  spawned : ∀ q, m.spawned = some q → Follows s p q

variable {s t : Host} {p q : Phase} {m : Move Host Phase} {i : ℕ} {a : Answer} {r r₀ : VmRecord}
  {c : Caller} {f : Finder} {id : VmId}

section change

theorem mem_asked {h : Host} {id' : VmId} : id' ∈ (h.asked id).off ↔ id' ∈ h.off ∧ id' ≠ id := by
  rw [Host.asked, List.mem_filter, bne_iff_ne]

theorem lives_kill {id' : VmId} : (s.kill id).lives id' = (s.lives id' && id' != id) := by
  rw [Host.lives, Host.kill, Host.lives, Bool.eq_iff_iff]
  simp [List.mem_filter]

theorem get_upsert {id' : VmId} :
    (s.upsert r).get id' = if r.id = id' then some r else s.get id' := by
  have hinsert := Table.get_insert s.node.store r id'
  split
  · rename_i hid
    exact hinsert.trans (if_pos hid)
  · rename_i hid
    exact hinsert.trans (if_neg hid)

theorem Change.refl : Change s p s where
  self := rfl
  off _ h := h
  alive _ _ h := .inl h
  autostarted _ h := .inl h
  restore _ h := .inl h
  store _ _ h := .inl h

theorem Change.asks (h : Change s p t) : Change s p (c.asks t id) := by
  cases c with
  | autostart elapsed rest => exact h
  | request =>
    refine ⟨h.self, fun id' hid => h.off id' (mem_asked.mp hid).1,
      fun id' hid => h.alive id' (mem_asked.mp hid).1, h.autostarted, h.restore, h.store⟩

theorem Change.upsert (h : Change s p t) (hr₀ : r₀ ∈ p.records) (hid : r.id = r₀.id)
    (hauto : r.spec.autostart = r₀.spec.autostart) : Change s p (t.upsert r) := by
  refine ⟨h.self, h.off, h.alive, h.autostarted, h.restore, fun id' r' hget => ?_⟩
  rw [get_upsert] at hget
  split at hget
  · rename_i hrid
    cases hget
    exact .inr ⟨r₀, hr₀, by rw [← hid, hrid], hauto⟩
  · exact h.store id' r' hget

theorem Change.kill (h : Change s p t) : Change s p (t.kill id) := by
  refine ⟨h.self, h.off, fun id' hid hlives => ?_, h.autostarted, h.restore, h.store⟩
  rw [lives_kill, Bool.and_eq_true] at hlives
  exact h.alive id' hid hlives.1

theorem Change.gate (h : Change s p t) (g : Gate) : Change s p { t with gate := g } :=
  ⟨h.self, h.off, h.alive, h.autostarted, h.restore, h.store⟩

theorem Change.killIf (h : Change s p t) (b : Bool) :
    Change s p (if b then t.kill id else t) := by
  cases b with
  | true => exact h.kill
  | false => exact h

theorem Change.restores (h : Change s p t) (hfinds : p.finds s id = true) :
    Change s p { t with restoreOnBoot := id :: t.restoreOnBoot } := by
  refine ⟨h.self, h.off, h.alive, h.autostarted, fun id' hid => ?_, h.store⟩
  rcases List.mem_cons.mp hid with rfl | hold
  · exact .inr hfinds
  · exact h.restore id' hold

theorem Change.takes (h : Change s p t) :
    Change s p { t with autostarted := id :: t.autostarted } := by
  refine ⟨h.self, h.off, h.alive, fun id' hid => ?_, h.restore, h.store⟩
  rcases h.autostarted id' hid with hold | hown
  · exact .inl (List.mem_cons_of_mem _ hold)
  · exact .inr hown

theorem Change.untakes (h : Change s p t) (hown : p.autostarts id = true) :
    Change s p { t with autostarted := t.autostarted.filter (· != id) } := by
  refine ⟨h.self, h.off, h.alive, fun id' hid => ?_, h.restore, h.store⟩
  by_cases hne : id' = id
  · rw [hne]
    exact .inr hown
  · rcases h.autostarted id' hid with hold | hown'
    · exact .inl (List.mem_filter.mpr ⟨hold, by simpa using hne⟩)
    · exact .inr hown'

end change

/-- Nothing is taken over but records and a queue that the task had. -/
theorem Follows.sub (hrecords : ∀ r ∈ q.records, r ∈ p.records) (hqueue : ∀ id ∈ q.queue, id ∈ p.queue)
    (hstarts : ∀ id, q.autostarts id = true → p.autostarts id = true) : Follows s p q where
  records r hr := .inr ⟨r, hrecords r hr, rfl, rfl⟩
  queue id hid := .inl (hqueue id hid)
  starts id hid := .inl (hstarts id hid)

theorem follows_goOn (hq : (c.goOn t).next = some q) (hrecords : ∀ r ∈ c.records, r ∈ p.records)
    (hqueue : ∀ id ∈ c.records.map VmRecord.id, id ∈ p.queue) : Follows s p q := by
  obtain ⟨elapsed, rest, rfl, rfl⟩ := goOn_next c t hq
  exact .sub hrecords hqueue (fun id hid => by cases hid)

theorem follows_finder (hq : (f.goOn t).next = some q) (hrecords : ∀ r ∈ f.records, r ∈ p.records) :
    Follows s p q := by
  obtain ⟨rest, tick, rfl, rfl⟩ := finder_next f t hq
  exact .sub hrecords (fun id hid => by cases hid) (fun id hid => by cases hid)

theorem Course.ends (h : Change s p t) : Course s p { shared := t } := by
  refine ⟨h, fun q hq => ?_, fun q hq => ?_⟩ <;> cases hq

theorem Course.goes (h : Change s p t) (hnext : Follows s p q) :
    Course s p { shared := t, next := some q } := by
  refine ⟨h, fun q hq => ?_, fun q hq => ?_⟩
  · cases hq
    exact hnext
  · cases hq

theorem course_goOn (h : Change s p t) (hrecords : ∀ r ∈ c.records, r ∈ p.records)
    (hqueue : ∀ id ∈ c.records.map VmRecord.id, id ∈ p.queue) : Course s p (c.goOn t) := by
  refine ⟨by rw [goOn_shared]; exact h, fun q hq => follows_goOn hq hrecords hqueue, fun q hq => ?_⟩
  rw [goOn_spawned] at hq
  cases hq

theorem course_finder (h : Change s p t) (hrecords : ∀ r ∈ f.records, r ∈ p.records) :
    Course s p (f.goOn t) := by
  refine ⟨by rw [finder_shared]; exact h, fun q hq => follows_finder hq hrecords, fun q hq => ?_⟩
  rw [finder_spawned] at hq
  cases hq

/-- A record that is read from the inventory. -/
theorem Follows.read (hget : s.get r.id = some r) (hrecords : ∀ r' ∈ q.records, r' = r ∨ r' ∈ p.records)
    (hqueue : ∀ id ∈ q.queue, id ∈ p.queue)
    (hstarts : ∀ id, q.autostarts id = true → p.autostarts id = true) : Follows s p q where
  records r' hr := by
    rcases hrecords r' hr with rfl | hold
    · exact .inl hget
    · exact .inr ⟨r', hold, rfl, rfl⟩
  queue id hid := .inl (hqueue id hid)
  starts id hid := .inl (hstarts id hid)

theorem course_startTurn (h : s.startTurn i a p = some m) : Course s p m := by
  cases p with
  | start id c =>
    simp only [Host.startTurn] at h
    split at h
    · cases h
      exact course_goOn (Change.refl.asks) (fun r hr => hr) (fun id hid => hid)
    · rename_i r hget
      rw [asks_get] at hget
      have hid : r.id = id := Table.key_of_get hget
      cases h
      split
      · exact course_goOn (Change.refl.asks) (fun r hr => hr) (fun id hid => hid)
      · refine .goes (Change.refl.asks) ?_
        refine .read (r := r) (by rw [hid]; exact hget) (fun r' hr => List.mem_cons.mp hr)
          (fun id' hid' => hid') (fun id' hid' => ?_)
        rw [← hid]
        exact hid'
  | prepared r c =>
    cases h
    have hchange : Change s (.prepared r c) ((c.asks s r.id).upsert r) :=
      Change.refl.asks.upsert List.mem_cons_self rfl rfl
    split
    · exact course_goOn hchange (fun r hr => List.mem_cons_of_mem _ hr) (fun id hid => hid)
    · refine .goes hchange ?_
      exact .sub (fun r hr => List.mem_cons_of_mem _ hr) (fun id hid => hid) (fun id hid => hid)
  | waiting id c =>
    simp only [Host.startTurn] at h
    split at h
    · split at h
      · cases h
        exact course_goOn (Change.refl.asks) (fun r hr => hr) (fun id hid => hid)
      · rename_i r hget
        rw [asks_get] at hget
        have hid : r.id = id := Table.key_of_get hget
        cases h
        refine .goes (Change.refl.asks.gate _) ?_
        refine .read (r := r) (by rw [hid]; exact hget) (fun r' hr => List.mem_cons.mp hr)
          (fun id' hid' => hid') (fun id' hid' => ?_)
        rw [← hid]
        exact hid'
    · cases h
  | reread r c =>
    cases h
    have hchange : Change s (.reread r c) ((c.asks s r.id).upsert r) :=
      Change.refl.asks.upsert List.mem_cons_self rfl rfl
    split
    · exact course_goOn (hchange.gate _) (fun r hr => List.mem_cons_of_mem _ hr) (fun id hid => hid)
    · refine .goes hchange ?_
      exact .sub (fun r hr => hr) (fun id hid => hid) (fun id hid => hid)
  | checking r c =>
    cases h
    split
    · refine .goes (Change.refl.asks) ?_
      exact .sub (fun r hr => hr) (fun id hid => hid) (fun id hid => hid)
    · exact course_goOn (Change.refl.asks.gate _) (fun r hr => List.mem_cons_of_mem _ hr) (fun id hid => hid)
  | starting r c =>
    simp only [Host.startTurn] at h
    split at h
    · rename_i process
      cases h
      have hchange : Change s (.starting r c) ((c.asks s r.id).upsert (r.withCreated process)) :=
        Change.refl.asks.upsert List.mem_cons_self (by simp) (by cases process <;> rfl)
      refine ⟨⟨hchange.self, hchange.off, fun id hid hlives => ?_, hchange.autostarted,
        hchange.restore, hchange.store⟩, fun q hq => ?_, fun q hq => by cases hq⟩
      · -- The process of a guest that was asked for, or that the pass had taken.
        have hcases : id = r.id ∨ (c.asks s r.id).lives id = true := by
          simpa [Host.lives] using hlives
        rcases hcases with rfl | hold
        · cases c with
          | request =>
            have hasked : r.id ∈ (s.asked r.id).off := hid
            exact absurd rfl (mem_asked.mp hasked).2
          | autostart elapsed rest =>
            right
            simp [Phase.autostarts, Caller.autostarts]
        · exact Change.refl.asks.alive id hid hold
      · cases hq
        refine ⟨fun r' hr => ?_, fun id hid => .inl hid, fun id hid => by cases hid⟩
        rcases List.mem_cons.mp hr with rfl | hr
        · exact .inr ⟨r, List.mem_cons_self, by simp, by cases process <;> rfl⟩
        · exact .inr ⟨r', List.mem_cons_of_mem _ hr, rfl, rfl⟩
    · rename_i text
      cases h
      have hmem : r ∈ (Phase.starting r c).records := List.mem_cons_self
      have hwritten : Change s (.starting r c) ((c.asks s r.id).upsert (r.failed text)) :=
        Change.refl.asks.upsert hmem rfl rfl
      exact course_goOn (hwritten.gate _) (fun r hr => List.mem_cons_of_mem _ hr) (fun id hid => hid)
  | created r c =>
    simp only [Host.startTurn] at h
    split at h
    · rename_i process
      split at h
      · cases h
        refine .goes .refl ?_
        refine ⟨fun r' hr => ?_, fun id hid => .inl hid, fun id hid => by cases hid⟩
        rcases List.mem_cons.mp hr with rfl | hr
        · exact .inr ⟨r, List.mem_cons_self, rfl, rfl⟩
        · exact .inr ⟨r', List.mem_cons_of_mem _ hr, rfl, rfl⟩
      · cases h
    · rename_i text
      cases h
      have hmem : r ∈ (Phase.created r c).records := List.mem_cons_self
      have hwritten : Change s (.created r c) (s.upsert (r.failed text)) :=
        Change.refl.upsert hmem rfl rfl
      exact course_goOn (hwritten.gate _) (fun r hr => List.mem_cons_of_mem _ hr) (fun id hid => hid)
  | launched r c =>
    cases h
    refine ⟨?_, fun q hq => follows_goOn hq (fun r hr => List.mem_cons_of_mem _ hr)
      (fun id hid => hid), fun q hq => ?_⟩
    · rw [goOn_shared]
      exact (Change.refl.upsert List.mem_cons_self rfl rfl).gate _
    · simp only [Host.watchOf] at hq
      split at hq
      · cases hq
        refine .sub (fun r' hr => ?_) (fun id hid => by cases hid) (fun id hid => by cases hid)
        rw [List.mem_singleton.mp hr]
        exact List.mem_cons_self
      · cases hq
  | _ => cases h

theorem course_stopTurn (h : s.stopTurn a p = some m) : Course s p m := by
  cases p with
  | stop id hard again =>
    simp only [Host.stopTurn] at h
    split at h
    · cases h
      exact .ends .refl
    · rename_i r hget
      cases h
      split
      · exact .ends .refl
      · refine .goes .refl ?_
        refine .read (r := r) ?_ (fun r' hr => .inl (List.mem_singleton.mp hr))
          (fun id hid => by cases hid) (fun id hid => by cases hid)
        rw [Table.key_of_get hget]
        exact hget
  | stopping r again =>
    have hnext : Follows s (.stopping r again) (.stopped r again) :=
      .sub (fun r hr => hr) (fun id hid => hid) (fun id hid => hid)
    simp only [Host.stopTurn] at h
    split at h
    · split at h
      · cases h
        refine .goes (Change.refl.kill) ?_
        exact hnext
      · cases h
        exact .ends .refl
    · cases h
      refine .goes .refl ?_
      exact hnext
  | stopped r again =>
    cases h
    have hmem : r ∈ (Phase.stopped r again).records := List.mem_cons_self
    refine ⟨Change.refl.upsert hmem rfl rfl, fun q hq => ?_, fun q hq => by cases hq⟩
    dsimp only at hq
    split at hq
    · cases hq
      exact .sub (fun r hr => by cases hr) (fun id hid => by cases hid) (fun id hid => by cases hid)
    · cases hq
  | writing r =>
    cases h
    have hmem : r ∈ (Phase.writing r).records := List.mem_cons_self
    exact .ends (Change.refl.upsert hmem rfl rfl)
  | finishing r =>
    cases h
    have hmem : r ∈ (Phase.finishing r).records := List.mem_cons_self
    refine ⟨Change.refl.upsert hmem rfl rfl, fun q hq => ?_, fun q hq => ?_⟩
    · cases hq
    simp only [Host.watchOf] at hq
    split at hq
    · cases hq
      exact .sub (fun r hr => hr) (fun id hid => by cases hid) (fun id hid => by cases hid)
    · cases hq
  | _ => cases h

theorem course_exitTurn (h : s.exitTurn p = some m) : Course s p m := by
  cases p with
  | watch r =>
    simp only [Host.exitTurn] at h
    split at h
    · cases h
      exact .ends .refl
    · cases h
      split
      · exact .ends .refl
      · refine .goes .refl ?_
        split
        · exact .sub (fun r hr => hr) (fun id hid => hid) (fun id hid => hid)
        · exact .sub (fun r hr => by cases hr) (fun id hid => by cases hid)
            (fun id hid => by cases hid)
  | exited id f =>
    simp only [Host.exitTurn] at h
    split at h
    · cases h
      exact course_finder .refl (fun r hr => hr)
    · rename_i r hget
      cases h
      split
      · refine .goes .refl ?_
        refine .read (r := r) ?_ (fun r' hr => List.mem_cons.mp hr) (fun id hid => by cases hid)
          (fun id hid => by cases hid)
        rw [Table.key_of_get hget]
        exact hget
      · exact course_finder .refl (fun r hr => hr)
  | marking r f =>
    cases h
    refine .goes (Change.refl.kill) ?_
    exact .sub (fun r hr => hr) (fun id hid => hid) (fun id hid => hid)
  | marked r f =>
    cases h
    have hmem : r ∈ (Phase.marked r f).records := List.mem_cons_self
    have hwritten : Change s (.marked r f) (s.upsert r.stopped) := Change.refl.upsert hmem rfl rfl
    exact course_finder hwritten (fun r hr => List.mem_cons_of_mem _ hr)
  | _ => cases h

theorem mem_candidates (h : r ∈ s.candidates) :
    s.get r.id = some r ∧ r.template = false ∧ s.mine r = true ∧
      (r.spec.autostart = true ∨ r.id ∈ s.restoreOnBoot) := by
  have hmem := (List.mergeSort_perm _ _).mem_iff.mp h
  obtain ⟨hrow, hcond⟩ := List.mem_filter.mp hmem
  simp only [Bool.and_eq_true, Bool.not_eq_true', Bool.or_eq_true, List.contains_eq_mem,
    decide_eq_true_eq] at hcond
  exact ⟨Table.get_of_mem hrow, hcond.1.1.1, hcond.1.1.2, hcond.2⟩

/-- A pass goes on with the rest of its list. -/
theorem Follows.rest (hrecords : p.records = r :: q.records) (hqueue : ∀ id ∈ q.queue, id ∈ p.queue)
    (hstarts : ∀ id, q.autostarts id = false) : Follows s p q := by
  refine .sub (fun r' hr => ?_) hqueue (fun id hid => ?_)
  · rw [hrecords]
    exact List.mem_cons_of_mem _ hr
  · rw [hstarts] at hid
    cases hid

theorem course_passTurn (h : s.passTurn a p = some m) : Course s p m := by
  cases p with
  | reconcile todo tick =>
    cases todo with
    | nil =>
      cases h
      refine ⟨.refl, fun q hq => ?_, fun q hq => by cases hq⟩
      dsimp only at hq
      split at hq
      · cases hq
        refine ⟨fun r hr => .inl (mem_candidates hr).1, fun id hid => ?_, fun id hid => by cases hid⟩
        obtain ⟨r, hr, rfl⟩ := List.mem_map.mp hid
        obtain ⟨hget, -, -, hwanted⟩ := mem_candidates hr
        exact .inr ⟨r, hget, hwanted⟩
      · cases hq
    | cons r todo =>
      have hrest : Follows s (.reconcile (r :: todo) tick) (.reconcile todo tick) :=
        .rest (r := r) rfl (fun id hid => hid) (fun id => rfl)
      simp only [Host.passTurn] at h
      split at h
      · cases h
        exact .goes (Change.refl.killIf _) hrest
      · split at h
        · rename_i hgone
          cases h
          have hnext : Follows s (.reconcile (r :: todo) tick) (.exited r.id (.reconcile todo tick)) :=
            .sub (fun r' hr => List.mem_cons_of_mem _ hr) (fun id hid => hid)
              (fun id hid => by cases hid)
          refine .goes ?_ hnext
          split
          · exact .refl
          · refine Change.refl.restores ?_
            simpa [Phase.finds] using hgone
        · cases h
          exact .goes .refl hrest
  | autostart elapsed todo =>
    cases todo with
    | nil =>
      cases h
      exact .ends .refl
    | cons r todo =>
      have hrest : Follows s (.autostart elapsed (r :: todo)) (.autostart elapsed todo) :=
        .rest (r := r) rfl (fun id hid => List.mem_cons_of_mem _ hid) (fun id => rfl)
      simp only [Host.passTurn] at h
      split at h
      · cases h
        exact .goes .refl hrest
      · split at h
        · cases h
          exact .goes .refl hrest
        · rename_i hnew
          cases h
          refine .goes Change.refl.takes ?_
          split
          · exact hrest
          · refine ⟨fun r' hr => .inr ⟨r', hr, rfl, rfl⟩, fun id hid => .inl (List.mem_cons_of_mem _ hid),
              fun id hid => .inr ?_⟩
            have hid : id = r.id := by simpa [Phase.autostarts] using hid
            refine ⟨by rw [hid]; exact List.mem_cons_self, fun hmem => hnew ?_⟩
            rw [← hid]
            simpa using hmem
  | taken r elapsed todo =>
    cases h
    split
    · refine .goes .refl ?_
      exact .sub (fun r' hr => List.mem_cons_of_mem _ hr) (fun id hid => hid) (fun id hid => hid)
    · exact .ends (Change.refl.untakes (by simp [Phase.autostarts]))
  | shutdown todo =>
    cases todo with
    | nil =>
      cases h
      exact .ends .refl
    | cons r todo =>
      cases h
      exact .goes (Change.refl.killIf _) (.rest (r := r) rfl (fun id hid => hid) (fun id => rfl))
  | _ => cases h

theorem course_turn (h : s.turn i a p = some m) : Course s p m := by
  unfold Host.turn at h
  split at h
  all_goals first
    | exact course_startTurn h
    | exact course_stopTurn h
    | exact course_exitTurn h
    | exact course_passTurn h

end Pertisk.Tasks
