import Pertisk.Tasks.World

namespace Pertisk.Tasks
open Lib

namespace Phase

/-- A start call that holds the gate. -/
def gated : Phase → Bool
  | reread _ _ | checking _ _ | starting _ _ | created _ _ | launched _ _ => true
  | _ => false

/-- The guest for which a start call has found room. -/
def reserved : Phase → Option VmRecord
  | starting r _ | created r _ | launched r _ => some r
  | _ => none

/-- The guest that a start call is about to start. -/
def unstarted : Phase → Option VmRecord
  | checking r _ | starting r _ | created r _ => some r
  | _ => none

/-- The record that a step writes without a look at the memory, as it was read or made before. -/
def rewrites : Phase → Option VmRecord
  | prepared r _ | reread r _ | writing r | finishing r => some r
  | _ => none

end Phase

/-- Why a step writes a record. -/
inductive Wrote : Phase → VmRecord → Prop
  | back {p : Phase} {r : VmRecord} (h : p.rewrites = some r) : Wrote p r
  | ended {p : Phase} {r : VmRecord} (h : r.state ≠ .running) : Wrote p r
  | process (r : VmRecord) (c : Caller) (process : Option Created) :
      Wrote (.starting r c) (r.withCreated process)
  | launched (r : VmRecord) (c : Caller) : Wrote (.launched r c) r

section caller
variable (c : Caller) (f : Finder) (s : Host) (id : VmId)

@[simp] theorem asks_node : (c.asks s id).node = s.node := by cases c <;> rfl

@[simp] theorem asks_hostMib : (c.asks s id).hostMib = s.hostMib := by cases c <;> rfl

@[simp] theorem asks_gate : (c.asks s id).gate = s.gate := by cases c <;> rfl

@[simp] theorem asks_get (id' : VmId) : (c.asks s id).get id' = s.get id' := by cases c <;> rfl

@[simp] theorem asks_startCapacity (r : VmRecord) (disk : Answer) :
    (c.asks s id).startCapacity r disk = s.startCapacity r disk := by cases c <;> rfl

@[simp] theorem goOn_shared : (c.goOn s).shared = s := by cases c <;> rfl

@[simp] theorem goOn_spawned : (c.goOn s).spawned = none := by cases c <;> rfl

theorem goOn_next {p : Phase} (h : (c.goOn s).next = some p) :
    ∃ elapsed rest, c = .autostart elapsed rest ∧ p = .autostart elapsed rest := by
  cases c with
  | request => cases h
  | autostart elapsed rest =>
    cases h
    exact ⟨elapsed, rest, rfl, rfl⟩

@[simp] theorem finder_shared : (f.goOn s).shared = s := by cases f <;> rfl

@[simp] theorem finder_spawned : (f.goOn s).spawned = none := by cases f <;> rfl

theorem finder_next {p : Phase} (h : (f.goOn s).next = some p) :
    ∃ rest tick, f = .reconcile rest tick ∧ p = .reconcile rest tick := by
  cases f with
  | watch => cases h
  | reconcile rest tick =>
    cases h
    exact ⟨rest, tick, rfl, rfl⟩

end caller

/-- What one step of a task does to the inventory, to the gate and to the room that is kept. -/
structure Effect (s : Host) (i : ℕ) (p : Phase) (m : Move Host Phase) : Prop where
  hostMib : m.shared.hostMib = s.hostMib
  node : m.shared.node = s.node ∨ ∃ r, m.shared.node = s.node.upsertVm r ∧ Wrote p r
  gate : (m.shared.gate = s.gate ∧ ∀ q, m.next = some q → q.gated → p.gated) ∨
    (s.gate = .free ∧ m.shared.gate = .held i) ∨ (p.gated ∧ ∀ q, m.next = some q → ¬ q.gated)
  spawned : ∀ q, m.spawned = some q → ∃ r, q = .watch r
  reserved : ∀ q r, m.next = some q → q.reserved = some r →
    (m.shared.node = s.node ∧ ∃ disk, s.startCapacity r disk) ∨
      ∃ r₀, p.reserved = some r₀ ∧ r.id = r₀.id ∧ r.spec = r₀.spec
  unstarted : ∀ q r, m.next = some q → q.unstarted = some r →
    r.state ≠ .running ∨ ∃ r₀, p.unstarted = some r₀ ∧ r.state = r₀.state

variable {s : Host} {i : ℕ} {a : Answer} {p : Phase} {m : Move Host Phase}

/-- A step that leaves the inventory and the gate alone, and goes on outside of the gate. -/
theorem Effect.plain (hhost : m.shared.hostMib = s.hostMib) (hnode : m.shared.node = s.node)
    (hgate : m.shared.gate = s.gate)
    (hnext : ∀ q, m.next = some q → q.gated = false) (hspawned : m.spawned = none) :
    Effect s i p m := by
  have hres : ∀ q : Phase, q.gated = false → q.reserved = none ∧ q.unstarted = none := by
    intro q hq
    cases q <;> first | cases hq; done | exact ⟨rfl, rfl⟩
  refine ⟨hhost, .inl hnode, .inl ⟨hgate, fun q hq hg => ?_⟩, fun q hq => ?_, fun q r hq hr => ?_,
    fun q r hq hr => ?_⟩
  · rw [hnext q hq] at hg
    cases hg
  · rw [hspawned] at hq
    cases hq
  · rw [(hres q (hnext q hq)).1] at hr
    cases hr
  · rw [(hres q (hnext q hq)).2] at hr
    cases hr

/-- A start call that returns: the gate is as it was, unless the call held it. -/
theorem Effect.returns (hhost : m.shared.hostMib = s.hostMib)
    (hnode : m.shared.node = s.node ∨ ∃ r, m.shared.node = s.node.upsertVm r ∧ Wrote p r)
    (hgate : m.shared.gate = s.gate ∨ p.gated)
    (hnext : ∀ q, m.next = some q → ∃ elapsed rest, q = .autostart elapsed rest)
    (hspawned : ∀ q, m.spawned = some q → ∃ r, q = .watch r) : Effect s i p m := by
  have hout : ∀ q, m.next = some q → ¬ q.gated := by
    intro q hq
    obtain ⟨elapsed, rest, rfl⟩ := hnext q hq
    simp [Phase.gated]
  refine ⟨hhost, hnode, ?_, hspawned, fun q r hq hr => ?_, fun q r hq hr => ?_⟩
  · rcases hgate with hgate | hgate
    · exact .inl ⟨hgate, fun q hq hg => absurd hg (hout q hq)⟩
    · exact .inr (.inr ⟨hgate, hout⟩)
  · obtain ⟨elapsed, rest, rfl⟩ := hnext q hq
    cases hr
  · obtain ⟨elapsed, rest, rfl⟩ := hnext q hq
    cases hr

theorem effect_goOn {c : Caller} {t : Host} (hhost : t.hostMib = s.hostMib)
    (hnode : t.node = s.node ∨ ∃ r, t.node = s.node.upsertVm r ∧ Wrote p r)
    (hgate : t.gate = s.gate ∨ p.gated) : Effect s i p (c.goOn t) := by
  refine .returns (by simpa using hhost) (by simpa using hnode) (by simpa using hgate)
    (fun q hq => ?_) (fun q hq => ?_)
  · obtain ⟨elapsed, rest, -, rfl⟩ := goOn_next c t hq
    exact ⟨elapsed, rest, rfl⟩
  · rw [goOn_spawned] at hq
    cases hq

theorem effect_startTurn (h : s.startTurn i a p = some m) : Effect s i p m := by
  cases p with
  | start id c =>
    simp only [Host.startTurn] at h
    split at h
    · cases h
      exact effect_goOn (by simp) (.inl (by simp)) (.inl (by simp))
    · cases h
      split
      · exact effect_goOn (by simp) (.inl (by simp)) (.inl (by simp))
      · refine .plain (by simp) (by simp) (by simp) (fun q hq => ?_) rfl
        cases hq
        rfl
  | prepared r c =>
    cases h
    have hnode : ((c.asks s r.id).upsert r).node = s.node.upsertVm r := by simp [Host.upsert]
    split
    · exact effect_goOn (by simp [Host.upsert]) (.inr ⟨r, hnode, .back rfl⟩)
        (.inl (by simp [Host.upsert]))
    · refine ⟨by simp [Host.upsert], .inr ⟨r, hnode, .back rfl⟩,
        .inl ⟨by simp [Host.upsert], fun q hq hg => ?_⟩, fun q hq => ?_, fun q r' hq hr => ?_,
        fun q r' hq hr => ?_⟩
      · cases hq
        cases hg
      · cases hq
      · cases hq
        cases hr
      · cases hq
        cases hr
  | waiting id c =>
    simp only [Host.startTurn] at h
    split at h
    · rename_i hfree
      split at h
      · cases h
        exact effect_goOn (by simp) (.inl (by simp)) (.inl (by simp))
      · cases h
        refine ⟨by simp, .inl (by simp), .inr (.inl ⟨hfree, rfl⟩), fun q hq => ?_,
          fun q r' hq hr => ?_, fun q r' hq hr => ?_⟩
        · cases hq
        · cases hq
          cases hr
        · cases hq
          cases hr
    · cases h
  | reread r c =>
    cases h
    have hnode : ((c.asks s r.id).upsert r).node = s.node.upsertVm r := by simp [Host.upsert]
    split
    · exact effect_goOn (by simp [Host.upsert]) (.inr ⟨r, hnode, .back rfl⟩) (.inr rfl)
    · rename_i hstate
      refine ⟨by simp [Host.upsert], .inr ⟨r, hnode, .back rfl⟩,
        .inl ⟨by simp [Host.upsert], fun q _ _ => rfl⟩, fun q hq => ?_, fun q r' hq hr => ?_,
        fun q r' hq hr => ?_⟩
      · cases hq
      · cases hq
        cases hr
      · cases hq
        cases hr
        exact .inl hstate
  | checking r c =>
    cases h
    split
    · rename_i hroom
      rw [asks_startCapacity] at hroom
      refine ⟨by simp, .inl (by simp), .inl ⟨by simp, fun q _ _ => rfl⟩, fun q hq => ?_,
        fun q r' hq hr => ?_, fun q r' hq hr => ?_⟩
      · cases hq
      · cases hq
        cases hr
        exact .inl ⟨by simp, a, hroom⟩
      · cases hq
        cases hr
        exact .inr ⟨r, rfl, rfl⟩
    · exact effect_goOn (by simp) (.inl (by simp)) (.inr rfl)
  | starting r c =>
    simp only [Host.startTurn] at h
    split at h
    · rename_i process
      cases h
      refine ⟨by simp [Host.upsert], .inr ⟨_, by simp [Host.upsert], .process r c process⟩,
        .inl ⟨by simp [Host.upsert], fun q _ _ => rfl⟩, fun q hq => ?_, fun q r' hq hr => ?_,
        fun q r' hq hr => ?_⟩
      · cases hq
      · cases hq
        cases hr
        exact .inr ⟨r, rfl, by simp, by cases process <;> rfl⟩
      · cases hq
        cases hr
        exact .inr ⟨r, rfl, by cases process <;> rfl⟩
    · rename_i text
      cases h
      exact effect_goOn (by simp [Host.upsert])
        (.inr ⟨r.failed text, by simp [Host.upsert], .ended (by simp [VmRecord.failed])⟩) (.inr rfl)
  | created r c =>
    simp only [Host.startTurn] at h
    split at h
    · rename_i process
      split at h
      · cases h
        refine ⟨rfl, .inl rfl, .inl ⟨rfl, fun q _ _ => rfl⟩, fun q hq => ?_, fun q r' hq hr => ?_,
          fun q r' hq hr => ?_⟩
        · cases hq
        · cases hq
          cases hr
          exact .inr ⟨r, rfl, rfl, rfl⟩
        · cases hq
          cases hr
      · cases h
    · rename_i text
      cases h
      exact effect_goOn (by simp [Host.upsert])
        (.inr ⟨r.failed text, by simp [Host.upsert], .ended (by simp [VmRecord.failed])⟩) (.inr rfl)
  | launched r c =>
    cases h
    refine .returns (by simp [Host.upsert]) (.inr ⟨r, by simp [Host.upsert], .launched r c⟩) (.inr rfl)
      (fun q hq => ?_) (fun q hq => ?_)
    · obtain ⟨elapsed, rest, -, rfl⟩ := goOn_next c _ hq
      exact ⟨elapsed, rest, rfl⟩
    · simp only [Host.watchOf] at hq
      split at hq
      · cases hq
        exact ⟨r, rfl⟩
      · cases hq
  | _ => cases h

/-- A step that writes a record and stays outside of the gate. -/
theorem Effect.writes {r : VmRecord} (hhost : m.shared.hostMib = s.hostMib)
    (hnode : m.shared.node = s.node.upsertVm r) (hwrote : Wrote p r)
    (hgate : m.shared.gate = s.gate) (hnext : ∀ q, m.next = some q → q.gated = false)
    (hspawned : ∀ q, m.spawned = some q → ∃ r, q = .watch r) : Effect s i p m := by
  have hplain : Effect m.shared i p { shared := m.shared, next := m.next } :=
    .plain rfl rfl rfl hnext rfl
  refine ⟨hhost, .inr ⟨r, hnode, hwrote⟩, .inl ⟨hgate, fun q hq hg => ?_⟩, hspawned,
    fun q r' hq hr => ?_, fun q r' hq hr => hplain.unstarted q r' hq hr⟩
  · rw [hnext q hq] at hg
    cases hg
  · exfalso
    have hout := hnext q hq
    cases q <;> first
      | (cases hr; done)
      | cases hout

theorem effect_stopTurn (h : s.stopTurn a p = some m) : Effect s i p m := by
  cases p with
  | stop id hard again =>
    simp only [Host.stopTurn] at h
    split at h
    · cases h
      exact .plain rfl rfl rfl (fun q hq => by cases hq) rfl
    · cases h
      split
      · exact .plain rfl rfl rfl (fun q hq => by cases hq) rfl
      · refine .plain rfl rfl rfl (fun q hq => ?_) rfl
        cases hq
        rfl
  | stopping r again =>
    simp only [Host.stopTurn] at h
    split at h
    · split at h
      · cases h
        refine .plain rfl rfl rfl (fun q hq => ?_) rfl
        cases hq
        rfl
      · cases h
        exact .plain rfl rfl rfl (fun q hq => by cases hq) rfl
    · cases h
      refine .plain rfl rfl rfl (fun q hq => ?_) rfl
      cases hq
      rfl
  | stopped r again =>
    cases h
    refine .writes rfl rfl (.ended (by simp [VmRecord.stopped])) rfl (fun q hq => ?_)
      (fun q hq => by cases hq)
    dsimp only at hq
    split at hq
    · cases hq
      rfl
    · cases hq
  | writing r =>
    cases h
    exact .writes rfl rfl (.back rfl) rfl (fun q hq => by cases hq) (fun q hq => by cases hq)
  | finishing r =>
    cases h
    refine .writes rfl rfl (.back rfl) rfl (fun q hq => by cases hq) (fun q hq => ?_)
    simp only [Host.watchOf] at hq
    split at hq
    · cases hq
      exact ⟨r, rfl⟩
    · cases hq
  | _ => cases h

theorem finder_gated {f : Finder} {t : Host} {q : Phase} (h : (f.goOn t).next = some q) :
    q.gated = false := by
  obtain ⟨rest, tick, -, rfl⟩ := finder_next f t h
  rfl

theorem effect_exitTurn (h : s.exitTurn p = some m) : Effect s i p m := by
  cases p with
  | watch r =>
    simp only [Host.exitTurn] at h
    split at h
    · cases h
      exact .plain rfl rfl rfl (fun q hq => by cases hq) rfl
    · cases h
      split
      · exact .plain rfl rfl rfl (fun q hq => by cases hq) rfl
      · refine .plain rfl rfl rfl (fun q hq => ?_) rfl
        cases hq
        split <;> rfl
  | exited id f =>
    simp only [Host.exitTurn] at h
    split at h
    · cases h
      exact .plain (by simp) (by simp) (by simp) (fun q hq => finder_gated hq) (by simp)
    · cases h
      split
      · refine .plain rfl rfl rfl (fun q hq => ?_) rfl
        cases hq
        rfl
      · exact .plain (by simp) (by simp) (by simp) (fun q hq => finder_gated hq) (by simp)
  | marking r f =>
    cases h
    refine .plain rfl rfl rfl (fun q hq => ?_) rfl
    cases hq
    rfl
  | marked r f =>
    cases h
    refine .writes (by simp [Host.upsert]) (by simp [Host.upsert]; rfl)
      (.ended (by simp [VmRecord.stopped])) (by simp [Host.upsert]) (fun q hq => finder_gated hq)
      (fun q hq => ?_)
    rw [finder_spawned] at hq
    cases hq
  | _ => cases h

theorem effect_passTurn (h : s.passTurn a p = some m) : Effect s i p m := by
  cases p with
  | reconcile todo tick =>
    cases todo with
    | nil =>
      cases h
      refine .plain rfl rfl rfl (fun q hq => ?_) rfl
      dsimp only at hq
      split at hq
      · cases hq
        rfl
      · cases hq
    | cons r todo =>
      simp only [Host.passTurn] at h
      split at h
      · cases h
        refine .plain ?_ ?_ ?_ (fun q hq => ?_) rfl
        · dsimp only
          split <;> rfl
        · dsimp only
          split <;> rfl
        · dsimp only
          split <;> rfl
        · cases hq
          rfl
      · split at h
        · cases h
          refine .plain ?_ ?_ ?_ (fun q hq => ?_) rfl
          · dsimp only
            split <;> rfl
          · dsimp only
            split <;> rfl
          · dsimp only
            split <;> rfl
          · cases hq
            rfl
        · cases h
          refine .plain rfl rfl rfl (fun q hq => ?_) rfl
          cases hq
          rfl
  | autostart elapsed todo =>
    cases todo with
    | nil =>
      cases h
      exact .plain rfl rfl rfl (fun q hq => by cases hq) rfl
    | cons r todo =>
      simp only [Host.passTurn] at h
      split at h
      · cases h
        refine .plain rfl rfl rfl (fun q hq => ?_) rfl
        cases hq
        rfl
      · split at h
        · cases h
          refine .plain rfl rfl rfl (fun q hq => ?_) rfl
          cases hq
          rfl
        · cases h
          refine .plain rfl rfl rfl (fun q hq => ?_) rfl
          cases hq
          split <;> rfl
  | taken r elapsed todo =>
    cases h
    split
    · refine .plain rfl rfl rfl (fun q hq => ?_) rfl
      cases hq
      rfl
    · exact .plain rfl rfl rfl (fun q hq => by cases hq) rfl
  | shutdown todo =>
    cases todo with
    | nil =>
      cases h
      exact .plain rfl rfl rfl (fun q hq => by cases hq) rfl
    | cons r todo =>
      cases h
      refine .plain ?_ ?_ ?_ (fun q hq => ?_) rfl
      · dsimp only
        split <;> rfl
      · dsimp only
        split <;> rfl
      · dsimp only
        split <;> rfl
      · cases hq
        rfl
  | _ => cases h

theorem effect_turn (h : s.turn i a p = some m) : Effect s i p m := by
  unfold Host.turn at h
  split at h
  all_goals first
    | exact effect_startTurn h
    | exact effect_stopTurn h
    | exact effect_exitTurn h
    | exact effect_passTurn h

end Pertisk.Tasks
