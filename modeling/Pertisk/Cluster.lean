import Pertisk.PeerUrl

namespace Pertisk
open Lib

/-- Largest `u64`; `saturating_add` stops here. -/
def u64Max : Nat := 2 ^ 64 - 1

def saturatingAdd (a b : Nat) : Nat := min (a + b) u64Max

def hasQuorum (online total : Nat) : Bool := total > 0 && online * 2 > total

/-- Majority, or the single survivor of a 2-node cluster that holds the witness lease. -/
def quorumWithWitness (online total : Nat) (holdsLease : Bool) : Bool :=
  hasQuorum online total || (total == 2 && online == 1 && holdsLease)

structure WitnessLease where
  holder : Option NodeId := none
  untilMs : Nat := 0
  deriving DecidableEq, Repr

/-- The lease after the claim, and the holder that the claimant is told. -/
def witnessClaim (lease : WitnessLease) (claimant : NodeId) (now ttlMs : Nat) :
    WitnessLease × NodeId :=
  match lease.holder with
  | some holder =>
    if now < lease.untilMs then
      if holder = claimant then ({ lease with untilMs := saturatingAdd now ttlMs }, holder)
      else (lease, holder)
    else (⟨some claimant, saturatingAdd now ttlMs⟩, claimant)
  | none => (⟨some claimant, saturatingAdd now ttlMs⟩, claimant)

/-- An entry of the member map: the key and the `MemberState` under it. -/
structure Member where
  id : NodeId
  record : NodeRecord
  lastSeenMs : Nat
  deriving DecidableEq, Repr

structure Cluster where
  offlineAfterMs : Nat
  selfId : NodeId
  name : String
  secret : String
  generation : Nat
  members : Table Member Member.id
  fenced : Bool
  haArmed : Bool
  witnessHolder : Option NodeId
  witnessUntilMs : Nat

def memberIsOnline (member : Member) (selfId : NodeId) (now timeout : Nat) : Bool :=
  member.record.id = selfId || now - member.lastSeenMs ≤ timeout

namespace Cluster

variable (c : Cluster) (now : Nat)

def selfRecord : NodeRecord :=
  match c.members.get c.selfId with
  | some m => m.record
  | none => { id := c.selfId, name := "node", peerUrl := "", cpus := 4, memoryMib := 16384 }

def bump : Cluster := { c with generation := c.generation + 1 }

def onlineMembers : List Member :=
  c.members.rows.filter (fun m => memberIsOnline m c.selfId now c.offlineAfterMs)

def onlineIds : List NodeId := (c.onlineMembers now).map (fun m => m.record.id)

def memberCount : Nat := c.members.rows.length

/-- Strict majority, ignoring a witness lease. -/
def majority : Bool := Pertisk.hasQuorum (c.onlineMembers now).length c.memberCount

def noteWitness (holder : NodeId) (ttlMs : Nat) : Cluster :=
  { c with witnessHolder := some holder, witnessUntilMs := saturatingAdd now ttlMs }

def holdsWitness : Bool := c.witnessHolder = some c.selfId && now < c.witnessUntilMs

def hasQuorum : Bool :=
  quorumWithWitness (c.onlineMembers now).length c.memberCount (c.holdsWitness now)

def leaderId : Option NodeId := (c.onlineIds now).min?

def isLeader : Bool := c.leaderId now = some c.selfId

/-- The service refuses writes without quorum and while fenced. -/
def requireQuorum : Bool := c.hasQuorum now && !c.fenced

def setFenced (fenced : Bool) : Cluster := { c with fenced := fenced }

def touch (id : NodeId) (record : Option NodeRecord) : Cluster :=
  match record with
  | some record =>
    let peerUrl := match c.members.get id with
      | some existing => PeerUrl.preferPeerUrl existing.record.peerUrl record.peerUrl
      | none => record.peerUrl
    { c with members := c.members.insert ⟨id, { record with peerUrl := peerUrl }, now⟩ }
  | none =>
    match c.members.get id with
    | some member => { c with members := c.members.insert { member with lastSeenMs := now } }
    | none => c

def touchSelf : Cluster := c.touch now c.selfId none

def memberUrl (id : NodeId) : Option String := (c.members.get id).map (fun m => m.record.peerUrl)

def peersExceptSelf : List NodeId :=
  (c.members.rows.filter (fun m => m.record.id ≠ c.selfId)).map (fun m => m.record.id)

def peersOnlineExceptSelf : List NodeId :=
  c.peersExceptSelf.filter (fun id => id ∈ c.onlineIds now)

/-- The entry that a snapshot's record gets in the new member map. -/
def adoptMember (record : NodeRecord) : Member :=
  let lastSeenMs := match c.members.get record.id with
    | some m => m.lastSeenMs
    | none => 0
  let peerUrl := match c.members.get record.id with
    | some existing => PeerUrl.preferPeerUrl existing.record.peerUrl record.peerUrl
    | none => record.peerUrl
  { id := record.id
    record := { record with peerUrl := peerUrl }
    lastSeenMs := if record.id = c.selfId then now else lastSeenMs }

/-- The snapshot's members; ourselves stay when the snapshot omits us. -/
def adoptMembers (records : List NodeRecord) : Table Member Member.id :=
  let next := Table.ofList (records.map (c.adoptMember now))
  match next.get c.selfId, c.members.get c.selfId with
  | none, some selfMember => next.insert selfMember
  | _, _ => next

def applyMembershipInner (snap : ClusterSnapshot) (force : Bool) : Cluster :=
  if !force && snap.generation < c.generation then c
  else
    { c with
      name := snap.name
      secret := snap.secret
      generation := snap.generation
      members := c.adoptMembers now snap.members
      fenced := false
      haArmed := snap.haArmed }

def applyMembership (snap : ClusterSnapshot) : Cluster := c.applyMembershipInner now snap false

def membershipSnapshot : ClusterSnapshot where
  name := c.name
  secret := c.secret
  generation := c.generation
  members := c.members.rows.map (fun m => m.record)
  vms := []
  volumes := []
  haArmed := c.haArmed

@[simp] theorem touch_generation (id : NodeId) (record : Option NodeRecord) :
    (c.touch now id record).generation = c.generation := by
  cases record with
  | some record => rfl
  | none =>
    unfold touch
    dsimp only
    split <;> rfl

@[simp] theorem touch_selfId (id : NodeId) (record : Option NodeRecord) :
    (c.touch now id record).selfId = c.selfId := by
  cases record with
  | some record => rfl
  | none =>
    unfold touch
    dsimp only
    split <;> rfl

/-- Hearing from a member leaves the set of members as it is. -/
theorem touch_ids (id : NodeId) (record : Option NodeRecord) (h : (c.members.get id).isSome) :
    (c.touch now id record).members.rows.map Member.id = c.members.rows.map Member.id := by
  cases record with
  | some record =>
    unfold touch
    exact Table.map_key_insert h
  | none =>
    unfold touch
    cases hm : c.members.get id with
    | none => rfl
    | some member =>
      have hid : member.id = id := Table.key_of_get hm
      subst hid
      exact Table.map_key_insert (x := { member with lastSeenMs := now }) h

@[simp] theorem bump_generation : c.bump.generation = c.generation + 1 := rfl

theorem applyMembership_generation (snap : ClusterSnapshot) (h : c.generation ≤ snap.generation) :
    (c.applyMembership now snap).generation = snap.generation := by
  unfold applyMembership applyMembershipInner
  have hlt : ¬ snap.generation < c.generation := Nat.not_lt.mpr h
  simp [hlt]

end Cluster

end Pertisk
