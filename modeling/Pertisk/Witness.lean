import Mathlib.Logic.Function.Basic
import Pertisk.Lib.Run
import Pertisk.Node

namespace Pertisk.Witness
open Lib

/-- An answer of the witness on its way to a node. -/
structure Reply where
  dest : NodeId
  grant : WitnessGrant
  deriving DecidableEq

/-- Two nodes and their witness, who share a clock, with the claims and answers between them. -/
structure World where
  now : Nat
  ttlMs : Nat
  lease : WitnessLease
  first : NodeId
  second : NodeId
  nodes : NodeId → Cluster
  claims : List NodeId
  replies : List Reply

inductive Action
  | advance (ms : Nat)
  /-- Node `n` hears from `m`, or takes its own time. -/
  | contact (n m : NodeId) (record : Option NodeRecord)
  | claim (n : NodeId)
  /-- The witness handles a claim. -/
  | answer (i : Nat)
  | note (i : Nat)
  | loseClaim (i : Nat)
  | loseReply (i : Nat)

namespace World

variable (s : World)

def IsMember (n : NodeId) : Prop := n = s.first ∨ n = s.second

instance (n : NodeId) : Decidable (s.IsMember n) := inferInstanceAs (Decidable (_ ∨ _))

def setNode (n : NodeId) (c : Cluster) : World := { s with nodes := Function.update s.nodes n c }

/-- A node asks while it sees one of two members. -/
def refreshWitness (n : NodeId) : Option World :=
  let c := s.nodes n
  if c.memberCount ≠ 2 || c.majority s.now then none
  else some { s with claims := s.claims ++ [n] }

def claimWitness (n : NodeId) : World :=
  let (lease, holder) := witnessClaim s.lease n s.now s.ttlMs
  { s with lease := lease, replies := s.replies ++ [⟨n, ⟨holder, s.ttlMs⟩⟩] }

def step (s : World) : Action → Option World
  | .advance ms => some { s with now := s.now + ms }
  | .contact n m record =>
    if s.IsMember n ∧ ((s.nodes n).members.get m).isSome then
      some (s.setNode n ((s.nodes n).touch s.now m record))
    else none
  | .claim n => if s.IsMember n then s.refreshWitness n else none
  | .answer i =>
    match s.claims[i]? with
    | none => none
    | some n => some ({ s with claims := s.claims.eraseIdx i }.claimWitness n)
  | .note i =>
    match s.replies[i]? with
    | none => none
    | some r =>
      some ({ s with replies := s.replies.eraseIdx i }.setNode r.dest
        ((s.nodes r.dest).noteWitness s.now r.grant.holder r.grant.ttlMs))
  | .loseClaim i => some { s with claims := s.claims.eraseIdx i }
  | .loseReply i => some { s with replies := s.replies.eraseIdx i }

/-- A two-node cluster that has not asked its witness yet. -/
structure Start : Prop where
  self : ∀ n, s.IsMember n → (s.nodes n).selfId = n
  members : ∀ n, s.IsMember n →
    (s.nodes n).members.rows.map Member.id = [s.first, s.second]
  unasked : ∀ n, (s.nodes n).witnessHolder = none
  silent : s.claims = [] ∧ s.replies = []

/-- The node sees only itself alive, and has quorum. -/
def AloneWithQuorum (n : NodeId) : Prop :=
  (s.nodes n).onlineIds s.now = [n] ∧ (s.nodes n).hasQuorum s.now = true

/-- The node holds the lease by its own record, or is about to. -/
def Relies (n : NodeId) : Prop :=
  (s.nodes n).holdsWitness s.now = true ∨
    ∃ r ∈ s.replies, r.dest = n ∧ r.grant.holder = n

instance (n : NodeId) : Decidable (s.AloneWithQuorum n) := inferInstanceAs (Decidable (_ ∧ _))

instance (n : NodeId) : Decidable (s.Relies n) := inferInstanceAs (Decidable (_ ∨ _))

structure Valid : Prop where
  self : ∀ n, s.IsMember n → (s.nodes n).selfId = n
  members : ∀ n, s.IsMember n →
    (s.nodes n).members.rows.map Member.id = [s.first, s.second]
  replies : ∀ r ∈ s.replies, s.IsMember r.dest
  claims : ∀ n ∈ s.claims, s.IsMember n
  /-- Only the holder relies on the lease. -/
  sole : ∀ n, s.IsMember n → s.Relies n → s.lease.holder = some n

/-- The witness passes the lease on only when no other node relies on it any longer. -/
def Careful (s : World) : Action → Prop
  | .answer i => ∀ n, s.claims[i]? = some n →
      (witnessClaim s.lease n s.now s.ttlMs).1.holder ≠ s.lease.holder →
      ∀ m, s.IsMember m → m ≠ n → ¬ s.Relies m
  | _ => True

variable {w₀ s t : World} {action : Action} {n m : NodeId}

theorem Start.valid (h : s.Start) : s.Valid where
  self := h.self
  members := h.members
  replies r hr := by
    rw [h.silent.2] at hr
    cases hr
  claims n hn := by
    rw [h.silent.1] at hn
    cases hn
  sole n _ hrel := by
    rcases hrel with hholds | ⟨r, hr, -⟩
    · simp [Cluster.holdsWitness, h.unasked n] at hholds
    · rw [h.silent.2] at hr
      cases hr

/-- What a change of one node must keep. -/
theorem Valid.setNode (hs : s.Valid) {c : Cluster}
    (hself : c.selfId = (s.nodes n).selfId)
    (hids : c.members.rows.map Member.id = (s.nodes n).members.rows.map Member.id)
    (hsole : s.IsMember n → c.holdsWitness s.now = true → s.lease.holder = some n) :
    (s.setNode n c).Valid := by
  refine ⟨fun m hm => ?_, fun m hm => ?_, hs.replies, hs.claims, fun m hm hrel => ?_⟩
  · by_cases hmn : m = n
    · subst hmn
      simpa [World.setNode, hself] using hs.self m hm
    · simpa [World.setNode, hmn] using hs.self m hm
  · by_cases hmn : m = n
    · subst hmn
      simpa [World.setNode, hids] using hs.members m hm
    · simpa [World.setNode, hmn] using hs.members m hm
  · rcases hrel with hholds | hcoming
    · by_cases hmn : m = n
      · subst hmn
        exact hsole hm (by simpa [World.setNode] using hholds)
      · exact hs.sole m hm (.inl (by simpa [World.setNode, hmn] using hholds))
    · exact hs.sole m hm (.inr hcoming)

/-- The new holder is the old one, or the claimant; the claimant is told the new holder. -/
theorem witnessClaim_cases (lease : WitnessLease) (n : NodeId) (now ttlMs : Nat) :
    (witnessClaim lease n now ttlMs).1.holder = some (witnessClaim lease n now ttlMs).2 ∧
      ((witnessClaim lease n now ttlMs).1.holder = lease.holder ∨
        (witnessClaim lease n now ttlMs).2 = n) := by
  unfold witnessClaim
  cases hh : lease.holder with
  | none => exact ⟨rfl, .inr rfl⟩
  | some holder =>
    dsimp only
    split
    · split
      · exact ⟨rfl, .inl rfl⟩
      · exact ⟨hh, .inl hh⟩
    · exact ⟨rfl, .inr rfl⟩

theorem Valid.claimWitness (hs : s.Valid) (hn : s.IsMember n)
    (hok : (witnessClaim s.lease n s.now s.ttlMs).1.holder ≠ s.lease.holder →
      ∀ m, s.IsMember m → m ≠ n → ¬ s.Relies m) : (s.claimWitness n).Valid := by
  obtain ⟨hholder, hcases⟩ := witnessClaim_cases s.lease n s.now s.ttlMs
  have hreply : (s.claimWitness n).replies =
      s.replies ++ [⟨n, ⟨(witnessClaim s.lease n s.now s.ttlMs).2, s.ttlMs⟩⟩] := rfl
  have hlease : (s.claimWitness n).lease.holder =
      (witnessClaim s.lease n s.now s.ttlMs).1.holder := rfl
  refine ⟨hs.self, hs.members, fun r hr => ?_, hs.claims, fun m hm hrel => ?_⟩
  · rw [hreply] at hr
    rcases List.mem_append.mp hr with hr | hr
    · exact hs.replies r hr
    · obtain rfl := List.mem_singleton.mp hr
      exact hn
  · rw [hlease]
    have hold : s.Relies m → (witnessClaim s.lease n s.now s.ttlMs).1.holder = some m := by
      intro h
      by_cases hsame : (witnessClaim s.lease n s.now s.ttlMs).1.holder = s.lease.holder
      · rw [hsame]
        exact hs.sole m hm h
      · by_cases hmn : m = n
        · subst hmn
          rw [hholder, hcases.resolve_left hsame]
        · exact absurd h (hok hsame m hm hmn)
    rcases hrel with hholds | ⟨r, hr, hdest, hname⟩
    · exact hold (.inl hholds)
    · rw [hreply] at hr
      rcases List.mem_append.mp hr with hr | hr
      · exact hold (.inr ⟨r, hr, hdest, hname⟩)
      · obtain rfl := List.mem_singleton.mp hr
        rw [hholder]
        exact congrArg some hname

theorem step_valid (hs : s.Valid) (hok : s.Careful action) (h : s.step action = some t) :
    t.Valid := by
  cases action with
  | advance ms =>
    cases h
    refine ⟨hs.self, hs.members, hs.replies, hs.claims, fun n hn hrel => hs.sole n hn ?_⟩
    rcases hrel with hholds | hcoming
    · left
      simp only [Cluster.holdsWitness, Bool.and_eq_true, decide_eq_true_eq] at hholds ⊢
      exact ⟨hholds.1, by omega⟩
    · exact .inr hcoming
  | contact n m record =>
    simp only [step, Option.ite_none_right_eq_some, Option.some.injEq] at h
    obtain ⟨⟨hn, hm⟩, rfl⟩ := h
    refine hs.setNode (Cluster.touch_selfId ..) (Cluster.touch_ids _ _ _ _ hm) (fun _ hholds => ?_)
    refine hs.sole n hn (.inl ?_)
    rw [← hholds]
    unfold Cluster.holdsWitness Cluster.touch
    cases record with
    | some record => rfl
    | none =>
      dsimp only
      split
      · rfl
      · rfl
  | claim n =>
    simp only [step, refreshWitness] at h
    split at h
    · rename_i hn
      split at h
      · cases h
      · cases h
        refine ⟨hs.self, hs.members, hs.replies, fun m hm => ?_, hs.sole⟩
        rcases List.mem_append.mp hm with hm | hm
        · exact hs.claims m hm
        · obtain rfl := List.mem_singleton.mp hm
          exact hn
    · cases h
  | answer i =>
    simp only [step] at h
    split at h
    · cases h
    · rename_i n hi
      cases h
      have hclaims : Valid { s with claims := s.claims.eraseIdx i } :=
        ⟨hs.self, hs.members, hs.replies,
          fun m hm => hs.claims m (List.mem_of_mem_eraseIdx hm), hs.sole⟩
      exact hclaims.claimWitness (hs.claims n (List.mem_of_getElem? hi)) (hok n hi)
  | note i =>
    simp only [step] at h
    split at h
    · cases h
    · rename_i r hi
      cases h
      have hr : r ∈ s.replies := List.mem_of_getElem? hi
      have hreplies : Valid { s with replies := s.replies.eraseIdx i } := by
        refine ⟨hs.self, hs.members, fun r hr => hs.replies r (List.mem_of_mem_eraseIdx hr),
          hs.claims, fun n hn hrel => hs.sole n hn ?_⟩
        rcases hrel with hholds | ⟨r, hr, hrest⟩
        · exact .inl hholds
        · exact .inr ⟨r, List.mem_of_mem_eraseIdx hr, hrest⟩
      refine hreplies.setNode rfl rfl (fun hn hholds => ?_)
      refine hs.sole r.dest hn (.inr ⟨r, hr, rfl, ?_⟩)
      simp only [Cluster.holdsWitness, Cluster.noteWitness, Bool.and_eq_true, decide_eq_true_eq,
        Option.some.injEq] at hholds
      exact hholds.1.trans (hs.self r.dest hn)
  | loseClaim i =>
    cases h
    exact ⟨hs.self, hs.members, hs.replies, fun m hm => hs.claims m (List.mem_of_mem_eraseIdx hm),
      hs.sole⟩
  | loseReply i =>
    cases h
    refine ⟨hs.self, hs.members, fun r hr => hs.replies r (List.mem_of_mem_eraseIdx hr),
      hs.claims, fun n hn hrel => hs.sole n hn ?_⟩
    rcases hrel with hholds | ⟨r, hr, hrest⟩
    · exact .inl hholds
    · exact .inr ⟨r, List.mem_of_mem_eraseIdx hr, hrest⟩

/-- Alone of two members, a node has quorum by the lease only. -/
theorem AloneWithQuorum.relies (hs : s.Valid) (hn : s.IsMember n) (h : s.AloneWithQuorum n) :
    s.Relies n := by
  obtain ⟨honline, hquorum⟩ := h
  have hone : ((s.nodes n).onlineMembers s.now).length = 1 := by
    have := congrArg List.length honline
    simpa [Cluster.onlineIds] using this
  have htwo : (s.nodes n).memberCount = 2 := by
    have := congrArg List.length (hs.members n hn)
    simpa [Cluster.memberCount] using this
  left
  simpa [Cluster.hasQuorum, quorumWithWitness, hasQuorum, hone, htwo] using hquorum

/-- While the witness passes its lease on with care, two nodes that see only themselves do not
both have quorum. -/
theorem one_survivor (h0 : w₀.Start) {actions : List Action}
    (r : Run (Guarded Careful (Steps step)) w₀ actions s) (hm : s.IsMember m)
    (hn : s.IsMember n) (hne : m ≠ n) : ¬ (s.AloneWithQuorum m ∧ s.AloneWithQuorum n) := by
  have hs : s.Valid :=
    r.invariant (I := Valid) (fun _ _ _ hs h => step_valid hs h.1 h.2) h0.valid
  rintro ⟨hqm, hqn⟩
  have hlm := hs.sole m hm (hqm.relies hs hm)
  have hln := hs.sole n hn (hqn.relies hs hn)
  exact hne (Option.some.inj (hlm.symm.trans hln))

/-- Nodes 1 and 2 heard from each other at time 0; five seconds make a node offline. -/
def pair : World where
  now := 0
  ttlMs := 5000
  lease := {}
  first := 1
  second := 2
  nodes id := { (Node.fresh id).cluster with
    offlineAfterMs := 5000
    members := Table.ofList ([1, 2].map (fun m =>
      ⟨m, { id := m, name := "node", peerUrl := "" }, 0⟩)) }
  claims := []
  replies := []

theorem pair_start : pair.Start where
  self n _ := rfl
  members n _ := by rfl
  unasked _ := rfl
  silent := ⟨rfl, rfl⟩

/-- Node 1 has the lease at once, and node 2 after it has ended. -/
def inTurn : List Action :=
  [.advance 6000, .claim 1, .answer 0, .note 0, .advance 5000, .claim 2, .answer 0, .note 0]

theorem one_survivor_in_turn :
    ¬ ((exec step pair inTurn).AloneWithQuorum 1 ∧ (exec step pair inTurn).AloneWithQuorum 2) := by
  have hrun : Run (Guarded Careful (Steps step)) pair inTurn (exec step pair inTurn) := by
    refine .cons_exec trivial (by decide) (.cons_exec trivial (by decide) ?_)
    refine .cons_exec (fun n _ _ m _ _ hrel => ?_) (by decide) ?_
    · revert hrel
      have hnone : ∀ m, ¬ Relies (exec step pair [.advance 6000, .claim 1]) m := by
        rintro m (hholds | ⟨r, hr, -⟩)
        · cases hholds
        · cases hr
      exact hnone m
    · refine .cons_exec trivial (by decide) (.cons_exec trivial (by decide) ?_)
      refine .cons_exec trivial (by decide) (.cons_exec ?_ (by decide) ?_)
      · intro n hn _ m hm hmn
        have htwo : 2 = n := Option.some.inj hn
        have hone : m = 1 := hm.resolve_right (fun h => hmn (h.trans htwo))
        subst hone
        decide +kernel
      · exact .cons_exec trivial (by decide) (.nil _)
  exact one_survivor pair_start hrun (by decide) (by decide) (by decide)

/-- Node 1 hears of its grant three seconds late, and counts its five from there. -/
def lateGrant : List Action :=
  [.advance 6000, .claim 1, .answer 0, .advance 3000, .note 0, .advance 2000, .claim 2,
    .answer 0, .note 0]

theorem two_survivors :
    ¬ ∀ (w₀ s : World) (actions : List Action) (m n : NodeId),
      w₀.Start → Run (Steps step) w₀ actions s → s.IsMember m → s.IsMember n → m ≠ n →
      ¬ (s.AloneWithQuorum m ∧ s.AloneWithQuorum n) := by
  intro h
  have hno := h pair (exec step pair lateGrant) lateGrant 1 2 pair_start
    (.of_exec (by decide +kernel)) (by decide) (by decide) (by decide)
  exact hno (by decide +kernel)

end World

end Pertisk.Witness
