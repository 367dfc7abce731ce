import Pertisk.Join
import Pertisk.Lib.Run

namespace Pertisk
open Lib

namespace Cluster

variable (c : Cluster)

def setHaArmed (armed : Bool) : Cluster := { c with haArmed := armed }

/-- Only this node stays, under a secret of its own. -/
def resetSolo (secret : String) : Cluster :=
  { c with
    members := c.members.keep (fun id => id = c.selfId)
    secret := secret
    generation := c.generation + 1
    fenced := false }

/-- This node is not removed, and neither is one that is no member: nothing changes then. -/
def removeMember (id : NodeId) : Option Cluster :=
  if id = c.selfId then none
  else if (c.members.get id).isNone then none
  else
    some
      { c with
        members := c.members.erase id
        generation := c.generation + 1
        fenced := false }

end Cluster

/-- What the state file holds. -/
structure Persisted where
  selfId : NodeId
  name : String
  secret : String
  generation : Nat
  members : List NodeRecord
  haArmed : Bool
  deriving DecidableEq

namespace Cluster

def persisted (c : Cluster) : Persisted where
  selfId := c.selfId
  name := c.name
  secret := c.secret
  generation := c.generation
  members := c.members.rows.map (fun m => m.record)
  haArmed := c.haArmed

end Cluster

/-- The calls that change the membership state and then write the file. -/
inductive Mutator
  | bump
  | addMember (now : Nat) (address : NodeId → Option String) (record : NodeRecord)
  | removeMember (id : NodeId)
  | applyMembership (now : Nat) (snap : ClusterSnapshot) (force : Bool)
  | setMemberPeerUrl (id : NodeId) (url : String)
  | setHaArmed (armed : Bool)
  | resetSolo (secret : String)

/-- The state that a call leaves; one that changes nothing returns without writing the file. -/
def Mutator.run (c : Cluster) : Mutator → Option Cluster
  | .bump => some c.bump
  | .addMember now address record => some (c.addMember now address record)
  | .removeMember id => c.removeMember id
  | .applyMembership now snap force =>
    if !force && snap.generation < c.generation then none
    else some (c.applyMembershipInner now snap force)
  | .setMemberPeerUrl id url => some (c.setMemberPeerUrl id url)
  | .setHaArmed armed => some (c.setHaArmed armed)
  | .resetSolo secret => some (c.resetSolo secret)

end Pertisk

namespace Pertisk.Members
open Lib

/-- What changes the member table, one hold of the lock each. A heartbeat's handler refreshes the
sender's entry first; the snapshot it may apply and its last touch are changes of their own. -/
inductive Change
  | touch (now : Nat) (id : NodeId) (record : Option NodeRecord)
  | heartbeat (now : Nat) (msg : HeartbeatMessage)
  | call (m : Mutator)

def change (c : Cluster) : Change → Cluster
  | .touch now id record => c.touch now id record
  | .heartbeat now msg => c.touch now msg.sender (some msg.member)
  | .call m => (m.run c).getD c

def Changes (c : Cluster) (a : Change) (c' : Cluster) : Prop := change c a = c'

/-- `id` is a member in the eyes of this node. -/
def Has (c : Cluster) (id : NodeId) : Prop := (c.members.get id).isSome

instance (c : Cluster) (id : NodeId) : Decidable (Has c id) :=
  inferInstanceAs (Decidable ((c.members.get id).isSome = true))

variable {c : Cluster} {now : Nat} {id : NodeId}

theorem applySnapshot_change (n : Node) (now : Nat) (snap : ClusterSnapshot) :
    (n.applySnapshot now snap).cluster =
      change n.cluster (.call (.applyMembership now snap false)) := by
  unfold Node.applySnapshot change Mutator.run
  by_cases hold : snap.generation < n.cluster.generation
  · simp [hold]
  · simp only [hold, if_false, Bool.not_false, decide_false, Bool.and_false, Bool.false_eq_true]
    split <;> rfl

/-- The handler of a heartbeat is such changes: the refreshed entry, and perhaps the snapshot and a
touch without a record. -/
theorem onHeartbeat_changes (n : Node) (now : Nat) (msg : HeartbeatMessage) :
    ∃ later, (n.onHeartbeat now msg).1.cluster =
        (.heartbeat now msg :: later).foldl change n.cluster ∧
      ∀ a ∈ later, a = .touch now msg.sender none ∨
        ∃ snap, msg.snapshot = some snap ∧ a = .call (.applyMembership now snap false) := by
  unfold Node.onHeartbeat
  dsimp only
  cases hsnap : msg.snapshot with
  | none => exact ⟨[], rfl, fun a h => nomatch h⟩
  | some snap =>
    dsimp only
    split
    · refine ⟨[.call (.applyMembership now snap false), .touch now msg.sender none], ?_, ?_⟩
      · have happly := applySnapshot_change (n.touch now msg.sender (some msg.member)) now snap
        exact congrArg (fun c => c.touch now msg.sender none) happly
      · intro a ha
        rcases List.mem_cons.mp ha with rfl | ha
        · exact .inr ⟨snap, rfl, rfl⟩
        · exact .inl (List.mem_singleton.mp ha)
    · refine ⟨[], ?_, fun a h => nomatch h⟩
      split <;> rfl

theorem run_selfId {m : Mutator} {c' : Cluster} (h : m.run c = some c') :
    c'.selfId = c.selfId := by
  cases m with
  | bump => cases h; rfl
  | addMember now address record => cases h; rfl
  | removeMember id =>
    have h' : c.removeMember id = some c' := h
    unfold Cluster.removeMember at h'
    split at h'
    · cases h'
    · split at h' <;> cases h'
      rfl
  | applyMembership now snap force =>
    unfold Mutator.run at h
    dsimp only at h
    split at h
    · cases h
    · rename_i hgo
      cases h
      unfold Cluster.applyMembershipInner
      rw [if_neg hgo]
  | setMemberPeerUrl id url =>
    cases h
    unfold Cluster.setMemberPeerUrl
    split <;> rfl
  | setHaArmed armed => cases h; rfl
  | resetSolo secret => cases h; rfl

@[simp] theorem change_selfId (c : Cluster) (a : Change) : (change c a).selfId = c.selfId := by
  cases a with
  | touch now id record => exact c.touch_selfId now id record
  | heartbeat now msg => exact c.touch_selfId now _ _
  | call m =>
    cases h : m.run c with
    | none => rw [change, h]; rfl
    | some c' =>
      rw [change, h]
      exact run_selfId h

/-- The snapshot is not put aside as an older one. -/
def Adopts (c : Cluster) (snap : ClusterSnapshot) (force : Bool) : Prop :=
  force = true ∨ c.generation ≤ snap.generation

instance (c : Cluster) (snap : ClusterSnapshot) (force : Bool) : Decidable (Adopts c snap force) :=
  inferInstanceAs (Decidable (_ ∨ _))

def Lists (snap : ClusterSnapshot) (id : NodeId) : Prop := ∃ record ∈ snap.members, record.id = id

/-- The change gives `id` an entry. -/
def Adds (c : Cluster) (id : NodeId) : Change → Prop
  | .touch _ sender (some _) => sender = id
  | .heartbeat _ msg => msg.sender = id
  | .call (.addMember _ _ record) => record.id = id
  | .call (.applyMembership _ snap force) => Adopts c snap force ∧ Lists snap id
  | _ => False

/-- The change takes the entry that `id` had. -/
def Drops (c : Cluster) (id : NodeId) : Change → Prop
  | .call (.removeMember removed) => id = removed ∧ id ≠ c.selfId
  | .call (.applyMembership _ snap force) => Adopts c snap force ∧ id ≠ c.selfId
  | .call (.resetSolo _) => id ≠ c.selfId
  | _ => False

theorem has_insert {members : Table Member Member.id} {m : Member} :
    ((members.insert m).get id).isSome ↔ m.id = id ∨ (members.get id).isSome := by
  rw [Table.get_insert]
  split
  · rename_i h
    exact iff_of_true rfl (.inl h)
  · rename_i h
    exact (or_iff_right h).symm

/-- A row that is put back where it was. -/
theorem has_put_back {members : Table Member Member.id} {m : Member} {key : NodeId} (k : NodeId)
    (h : (members.get key).isSome) (hm : m.id = key) :
    ((members.insert m).get k).isSome ↔ (members.get k).isSome := by
  rw [has_insert]
  refine or_iff_right_of_imp (fun hk => ?_)
  rw [← hk, hm]
  exact h

theorem has_touch : Has (c.touch now id none) = Has c := by
  funext k
  unfold Cluster.touch
  dsimp only
  split
  · rename_i m hget
    have hkey : m.id = id := Table.key_of_get hget
    exact propext (has_put_back k (Option.isSome_iff_exists.mpr ⟨m, hget⟩) hkey)
  · rfl

theorem run_applyMembership_adopts {snap : ClusterSnapshot} {force : Bool}
    (h : Adopts c snap force) :
    (Mutator.applyMembership now snap force).run c =
      some (c.applyMembershipInner now snap force) := by
  unfold Mutator.run
  dsimp only
  refine if_neg ?_
  rcases h with rfl | h
  · simp
  · simp [Nat.not_lt.mpr h]

theorem run_applyMembership_older {snap : ClusterSnapshot} {force : Bool}
    (h : ¬ Adopts c snap force) : (Mutator.applyMembership now snap force).run c = none := by
  unfold Mutator.run
  dsimp only
  refine if_pos ?_
  rw [Adopts, not_or, Nat.not_le] at h
  simp [h.1, h.2]

theorem members_applyMembershipInner {snap : ClusterSnapshot} {force : Bool}
    (h : Adopts c snap force) :
    (c.applyMembershipInner now snap force).members = c.adoptMembers now snap.members := by
  unfold Cluster.applyMembershipInner
  rw [if_neg]
  rcases h with rfl | h
  · simp
  · simp [Nat.not_lt.mpr h]

theorem has_setMemberPeerUrl {url : String} : Has (c.setMemberPeerUrl id url) = Has c := by
  funext k
  unfold Cluster.setMemberPeerUrl
  dsimp only
  split
  · rename_i m hget
    have hkey : m.id = id := Table.key_of_get hget
    exact propext (has_put_back k (Option.isSome_iff_exists.mpr ⟨m, hget⟩) hkey)
  · rfl

theorem has_removeMember (c : Cluster) (id k : NodeId) : Has ((c.removeMember id).getD c) k ↔
    Has c k ∧ ¬ (k = id ∧ k ≠ c.selfId) := by
  unfold Cluster.removeMember
  by_cases hself : id = c.selfId
  · rw [if_pos hself]
    exact (and_iff_left (fun h => h.2 (h.1.trans hself))).symm
  · rw [if_neg hself]
    by_cases hnone : (c.members.get id).isNone
    · rw [if_pos hnone]
      refine (and_iff_left_of_imp (fun hk h => ?_)).symm
      have hid : (c.members.get id).isSome := h.1 ▸ hk
      rw [← Option.not_isNone, hnone] at hid
      cases hid
    · rw [if_neg hnone]
      change ((c.members.erase id).get k).isSome ↔ _
      rw [Table.get_erase]
      by_cases hk : k = id
      · rw [if_pos hk]
        exact iff_of_false nofun (fun h => h.2 ⟨hk, hk ▸ hself⟩)
      · rw [if_neg hk]
        exact (and_iff_left (fun h => hk h.1)).symm

theorem has_resetSolo {secret : String} (k : NodeId) : Has (c.resetSolo secret) k ↔
    Has c k ∧ ¬ k ≠ c.selfId := by
  change ((c.members.keep (fun id => id = c.selfId)).get k).isSome ↔ _
  rw [Table.get_keep]
  split
  · rename_i hk
    exact (and_iff_left (fun h => h hk)).symm
  · rename_i hk
    exact iff_of_false nofun (fun h => h.2 hk)

/-- Who is a member after a change. -/
theorem has_change (c : Cluster) (a : Change) (k : NodeId) :
    Has (change c a) k ↔ Adds c k a ∨ (Has c k ∧ ¬ Drops c k a) := by
  have hsame : ∀ {p : Prop}, (p ↔ Has c k) → (p ↔ False ∨ (Has c k ∧ ¬ False)) := by
    intro p h
    rw [false_or, not_false_iff, and_true]
    exact h
  have hadd : ∀ {p q : Prop}, (p ↔ q ∨ Has c k) → (p ↔ q ∨ (Has c k ∧ ¬ False)) := by
    intro p q h
    rw [not_false_iff, and_true]
    exact h
  have hdrop : ∀ {p q : Prop}, (p ↔ Has c k ∧ ¬ q) → (p ↔ False ∨ (Has c k ∧ ¬ q)) := by
    intro p q h
    rw [false_or]
    exact h
  cases a with
  | touch now sender record =>
    cases record with
    | some record => exact hadd has_insert
    | none => exact hsame (iff_of_eq (congrFun has_touch k))
  | heartbeat now msg => exact hadd has_insert
  | call m =>
    cases m with
    | bump => exact hsame Iff.rfl
    | setHaArmed armed => exact hsame Iff.rfl
    | setMemberPeerUrl id url => exact hsame (iff_of_eq (congrFun has_setMemberPeerUrl k))
    | addMember now address record => exact hadd has_insert
    | removeMember id => exact hdrop (has_removeMember c id k)
    | resetSolo secret => exact hdrop (has_resetSolo k)
    | applyMembership now snap force =>
      by_cases hgo : Adopts c snap force
      · have hafter : change c (.call (.applyMembership now snap force)) =
            c.applyMembershipInner now snap force := by
          rw [change, run_applyMembership_adopts hgo]
          rfl
        have hiff := Node.adoptMembers_isSome c now snap.members k
        rw [hafter, Has, members_applyMembershipInner hgo, hiff]
        simp only [Adds, Drops, hgo, Lists, true_and, not_not, Has]
        exact or_congr_right and_comm
      · have hafter : change c (.call (.applyMembership now snap force)) = c := by
          rw [change, run_applyMembership_older hgo]
          rfl
        rw [hafter]
        simp [Adds, Drops, hgo]

end Pertisk.Members
