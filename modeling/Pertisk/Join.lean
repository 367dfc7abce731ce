import Pertisk.Volume.Users

namespace Pertisk
open Lib

namespace PeerUrl

def formatUrlHost (host : List Char) : List Char :=
  if ':' ∈ host && !startsWith host "[" then '[' :: host ++ [']'] else host

/-- The template's scheme and port with another host. -/
def rewritePeerHost (template host : List Char) : Option (List Char) := do
  let url := trimEnd (· = '/') (trim template)
  let rest ← (stripPrefix url "https://").or (stripPrefix url "http://")
  let (_, port) ← rsplitOnce rest ':'
  if port.isEmpty then none
  else
    let scheme := if startsWith url "https://" then "https" else "http"
    return scheme.toList ++ "://".toList ++ formatUrlHost host ++ ':' :: port

example : rewritePeerHost "https://10.0.0.1:7443".toList "10.0.0.9".toList =
    some "https://10.0.0.9:7443".toList := by decide

end PeerUrl

structure ClusterMemberStatus where
  id : NodeId
  name : String
  peerUrl : String
  online : Bool
  cpus : Nat
  memoryMib : Nat
  deriving DecidableEq, Repr

structure ClusterStatus where
  name : String
  generation : Nat
  selfId : NodeId
  leaderId : Option NodeId
  quorum : Bool
  fenced : Bool
  haArmed : Bool
  members : List ClusterMemberStatus
  deriving DecidableEq, Repr

namespace Cluster

variable (c : Cluster) (now : Nat)

def status : ClusterStatus where
  name := c.name
  generation := c.generation
  selfId := c.selfId
  leaderId := c.leaderId now
  quorum := c.hasQuorum now
  fenced := c.fenced || !c.hasQuorum now
  haArmed := c.haArmed
  members := c.members.rows.map (fun m =>
    { id := m.record.id
      name := m.record.name
      peerUrl := m.record.peerUrl
      online := memberIsOnline m c.selfId now c.offlineAfterMs
      cpus := m.record.cpus
      memoryMib := m.record.memoryMib })

def setMemberPeerUrl (id : NodeId) (url : String) : Cluster :=
  match c.members.get id with
  | some member =>
    let record := { member.record with peerUrl := url }
    { c with members := c.members.insert { member with record := record } }
  | none => c

def setPeerUrl (url : String) : Cluster := c.setMemberPeerUrl c.selfId url

/-- The URL that another member should have, now that this node has a LAN URL; `address` is the
first address in a member's record. -/
def healedUrl (address : NodeId → Option String) (member : Member) : String :=
  let selfUrl := c.selfRecord.peerUrl.toList
  let url := member.record.peerUrl.toList
  let fixLoopback := PeerUrl.isLoopbackPeerUrl url
  let fixHttp := PeerUrl.startsWith selfUrl "https://" && PeerUrl.startsWith url "http://" && !fixLoopback
  if member.id = c.selfId || (!fixLoopback && !fixHttp) then member.record.peerUrl
  else
    let host := if fixLoopback then (address member.id).map String.toList else PeerUrl.peerUrlHost url
    match host.bind (PeerUrl.rewritePeerHost selfUrl) with
    | some next => String.ofList next
    | none => member.record.peerUrl

def healMember (address : NodeId → Option String) (m : Member) : Member :=
  { m with record := { m.record with peerUrl := c.healedUrl address m } }

def healRemotePeerUrls (address : NodeId → Option String) : Cluster :=
  if PeerUrl.isLoopbackPeerUrl c.selfRecord.peerUrl.toList then c
  else { c with members := c.members.mapRows (c.healMember address) (fun _ => rfl) }

/-- A record that comes over plain HTTP gets this node's scheme and port. -/
def acceptedUrl (address : NodeId → Option String) (record : NodeRecord) : String :=
  match c.members.get c.selfId with
  | some self =>
    let selfUrl := self.record.peerUrl.toList
    let url := record.peerUrl.toList
    if PeerUrl.startsWith selfUrl "https://" && PeerUrl.startsWith url "http://" then
      let host := (PeerUrl.peerUrlHost url).or ((address record.id).map String.toList)
      match host.bind (PeerUrl.rewritePeerHost selfUrl) with
      | some next => String.ofList next
      | none => record.peerUrl
    else record.peerUrl
  | none => record.peerUrl

def addMember (address : NodeId → Option String) (record : NodeRecord) : Cluster :=
  { c with
    members := c.members.insert
      ⟨record.id, { record with peerUrl := c.acceptedUrl address record }, now⟩
    generation := c.generation + 1 }

/-- Replace membership from a join accept even when our generation is higher. -/
def applyMembershipForced (snap : ClusterSnapshot) : Cluster := c.applyMembershipInner now snap true

end Cluster

/-- The maps that the snapshot's lists turn into. -/
def ClusterSnapshot.guests (snap : ClusterSnapshot) : Table VmRecord VmRecord.id :=
  Table.ofList snap.vms

def ClusterSnapshot.disks (snap : ClusterSnapshot) : Table StoredVolume StoredVolume.id :=
  Table.ofList (snap.volumes.map StoredVolume.ofRecord)

namespace Join

structure JoinClusterRequest where
  peer : String
  username : String
  password : String

/-- What the peer answers: a token for the login, its status, and the snapshot for the record of
the node that joins. -/
structure Seed where
  login : String → String → Except String String
  cluster : String → Except String ClusterStatus
  accept : String → NodeRecord → Except String ClusterSnapshot

/-- How each write of a join to this node's disk ends. -/
structure Disk where
  membership : Except String Unit := .ok ()
  vms : Except String Unit := .ok ()
  volumes : Except String Unit := .ok ()
  peerUrl : Except String Unit := .ok ()

/-- The time, the URL that this node advertises and the members' addresses. -/
structure Here where
  now : Nat
  desired : String
  address : NodeId → Option String := fun _ => none

end Join

namespace Node
open Join

variable (n : Node)

def withCluster (c : Cluster) : Node := { n with cluster := c }

/-- A join-accept snapshot is adopted even when our local generation is higher. A write that fails
leaves what it was about in memory. -/
def applyJoinSnapshot (now : Nat) (snap : ClusterSnapshot) (disk : Disk) :
    Node × Except String Unit :=
  let n := n.withCluster (n.cluster.applyMembershipForced now snap)
  match disk.membership with
  | .error text => (n, .error text)
  | .ok () =>
    let n := n.replaceAll snap.vms
    match disk.vms with
    | .error text => (n, .error text)
    | .ok () =>
      let n := n.replaceRecords snap.volumes
      match disk.volumes with
      | .error text => (n, .error text)
      | .ok () =>
        if n.cluster.secret ≠ snap.secret ∨ n.cluster.generation ≠ snap.generation then
          (n, .error
            "cluster peer: join failed: could not adopt peer cluster state (leave and retry)")
        else (n, .ok ())

/-- The URL to advertise is set before the peer is asked. -/
def advertised (desired : String) : Node :=
  if PeerUrl.isLoopbackPeerUrl desired.toList then n else n.withCluster (n.cluster.setPeerUrl desired)

/-- The peer we have just logged in to counts as online. -/
def greeted (here : Here) (peer : NodeId) : Node :=
  let n := (n.touch here.now peer none).touch here.now n.cluster.selfId none
  n.withCluster (n.cluster.healRemotePeerUrls here.address)

/-- The join from the moment that the peer has sent its snapshot. -/
def joinWith (here : Here) (disk : Disk) (peer : String) (remote : ClusterStatus)
    (snap : ClusterSnapshot) : Node × Except String ClusterStatus :=
  match n.applyJoinSnapshot here.now snap disk with
  | (n, .error text) => (n, .error text)
  | (n, .ok ()) =>
    let n := n.withCluster (n.cluster.setMemberPeerUrl remote.selfId peer)
    match disk.peerUrl with
    | .error text => (n, .error text)
    | .ok () =>
      let n := n.greeted here remote.selfId
      let status := n.cluster.status here.now
      if status.members.length < 2 then
        (n, .error ("cluster peer: join failed: peer cluster state was not applied " ++
          "(leave both sides and retry)"))
      else (n, .ok status)

def joinCluster (here : Here) (seed : Seed) (disk : Disk) (req : JoinClusterRequest) :
    Node × Except String ClusterStatus :=
  let peer := String.ofList (PeerUrl.trimEnd (· = '/') req.peer.toList)
  let n := n.advertised here.desired
  match seed.login req.username req.password with
  | .error text => (n, .error s!"cluster peer: {text}")
  | .ok token =>
    match seed.cluster token with
    | .error text => (n, .error s!"cluster peer: {text}")
    | .ok remote =>
      match seed.accept token n.cluster.selfRecord with
      | .error text => (n, .error s!"cluster peer: {text}")
      | .ok snap => n.joinWith here disk peer remote snap

/-- A quorate node takes the new member in and answers with its own inventory. -/
def applyAccept (now : Nat) (address : NodeId → Option String) (record : NodeRecord) :
    Except String ClusterSnapshot :=
  match n.cluster.quorumError now with
  | some text => .error text
  | none => .ok (n.withCluster (n.cluster.addMember now address record)).snapshot

/-- A node that does not lead passes the request on to the leader it knows. -/
def acceptNode (node : NodeId → Node) (now : Nat) (address : NodeId → Option String)
    (record : NodeRecord) : Except String ClusterSnapshot :=
  match n.cluster.quorumError now with
  | some text => .error text
  | none =>
    match n.cluster.leaderId now with
    | some leader =>
      if leader ≠ n.cluster.selfId then (node leader).applyAccept now address record
      else n.applyAccept now address record
    | none => n.applyAccept now address record

/-- The other node has every guest and volume record of this one. -/
structure Carries (n n' : Node) : Prop where
  vms : ∀ id vm, n.store.get id = some vm → n'.store.get id = some vm
  volumes : ∀ id v, n.volumes.get id = some v → n'.volumes.get id = some v

/-- The members, the secret, the generation and the inventory are those of this node. -/
structure AsBefore (n n' : Node) : Prop where
  members : ∀ id, (n'.cluster.members.get id).isSome = (n.cluster.members.get id).isSome
  secret : n'.cluster.secret = n.cluster.secret
  generation : n'.cluster.generation = n.cluster.generation
  store : n'.store = n.store
  volumes : n'.volumes = n.volumes

/-- A join that returns Ok leaves every record, and a refused one the node as it was. -/
def LosesNothing (n : Node) (r : Node × Except String ClusterStatus) : Prop :=
  (∀ status, r.2 = .ok status → n.Carries r.1) ∧ ∀ text, r.2 = .error text → n.AsBefore r.1

/-- The members that the node has once it has taken in the snapshot. -/
def Adopts (snap : ClusterSnapshot) (id : NodeId) : Prop :=
  (∃ record ∈ snap.members, record.id = id) ∨
    (id = n.cluster.selfId ∧ (n.cluster.members.get id).isSome)

/-- The snapshot has the members, the secret and the generation that the node has. -/
structure OwnCluster (n : Node) (snap : ClusterSnapshot) : Prop where
  members : ∀ id, n.Adopts snap id ↔ (n.cluster.members.get id).isSome
  secret : snap.secret = n.cluster.secret
  generation : snap.generation = n.cluster.generation

def OwnVms (snap : ClusterSnapshot) : Prop := snap.guests = n.store

def OwnVolumes (snap : ClusterSnapshot) : Prop := snap.disks = n.volumes

/-- The snapshot would leave the node alone in its cluster. -/
def Alone (snap : ClusterSnapshot) : Prop := ∀ a b, n.Adopts snap a → n.Adopts snap b → a = b

/-- The snapshot has every guest and volume record of the node. -/
structure Listed (n : Node) (snap : ClusterSnapshot) : Prop where
  vms : ∀ id vm, n.store.get id = some vm → snap.guests.get id = some vm
  volumes : ∀ id v, n.volumes.get id = some v → snap.disks.get id = some v

/-- What the node has already is what the snapshot would put in its place, as far as the writes to
its disk let the join get; a join that gets to its end asks for the node's records only. -/
def Suits (snap : ClusterSnapshot) (disk : Disk) : Prop :=
  match disk.membership, disk.vms, disk.volumes, disk.peerUrl with
  | .error _, _, _, _ => n.OwnCluster snap
  | .ok _, .error _, _, _ => n.OwnCluster snap ∧ n.OwnVms snap
  | .ok _, .ok _, .ok _, .ok _ =>
    (n.Alone snap → n.OwnCluster snap ∧ n.OwnVms snap ∧ n.OwnVolumes snap) ∧
      (¬ n.Alone snap → n.Listed snap)
  | .ok _, .ok _, _, _ => n.OwnCluster snap ∧ n.OwnVms snap ∧ n.OwnVolumes snap

variable {n} {a b c : Node} {snap : ClusterSnapshot} {disk : Disk} {here : Here}

theorem AsBefore.refl (n : Node) : n.AsBefore n := ⟨fun _ => rfl, rfl, rfl, rfl, rfl⟩

theorem AsBefore.trans (h : a.AsBefore b) (h' : b.AsBefore c) : a.AsBefore c :=
  ⟨fun id => (h'.members id).trans (h.members id), h'.secret.trans h.secret,
    h'.generation.trans h.generation, h'.store.trans h.store, h'.volumes.trans h.volumes⟩

theorem AsBefore.symm (h : a.AsBefore b) : b.AsBefore a :=
  ⟨fun id => (h.members id).symm, h.secret.symm, h.generation.symm, h.store.symm, h.volumes.symm⟩

theorem AsBefore.carries_iff (h : a.AsBefore b) : n.Carries b ↔ n.Carries a := by
  constructor
  · intro hc
    exact ⟨fun id vm hvm => h.store ▸ hc.vms id vm hvm, fun id v hv => h.volumes ▸ hc.volumes id v hv⟩
  · intro hc
    refine ⟨fun id vm hvm => ?_, fun id v hv => ?_⟩
    · rw [h.store]
      exact hc.vms id vm hvm
    · rw [h.volumes]
      exact hc.volumes id v hv

/-- A member's entry is written over. -/
theorem insert_asBefore (member : Member) (h : (n.cluster.members.get member.id).isSome) :
    n.AsBefore (n.withCluster { n.cluster with members := n.cluster.members.insert member }) := by
  refine ⟨fun id => ?_, rfl, rfl, rfl, rfl⟩
  show ((n.cluster.members.insert member).get id).isSome = _
  rw [Table.get_insert]
  split
  · rename_i hid
    rw [← hid, h]
    rfl
  · rfl

theorem setMemberPeerUrl_asBefore (id : NodeId) (url : String) :
    n.AsBefore (n.withCluster (n.cluster.setMemberPeerUrl id url)) := by
  unfold Cluster.setMemberPeerUrl
  cases hget : n.cluster.members.get id with
  | none => exact .refl n
  | some member =>
    have hkey : member.id = id := Table.key_of_get hget
    refine insert_asBefore { member with record := { member.record with peerUrl := url } } ?_
    show (n.cluster.members.get member.id).isSome = true
    rw [hkey, hget]
    rfl

theorem advertised_asBefore (desired : String) : n.AsBefore (n.advertised desired) := by
  unfold advertised
  split
  · exact .refl n
  · exact setMemberPeerUrl_asBefore ..

theorem touch_asBefore (now : Nat) (id : NodeId) : n.AsBefore (n.touch now id none) := by
  unfold touch Cluster.touch
  dsimp only
  cases hget : n.cluster.members.get id with
  | none => exact .refl n
  | some member =>
    have hkey : member.id = id := Table.key_of_get hget
    refine insert_asBefore { member with lastSeenMs := now } ?_
    show (n.cluster.members.get member.id).isSome = true
    rw [hkey, hget]
    rfl

theorem heal_asBefore (address : NodeId → Option String) :
    n.AsBefore (n.withCluster (n.cluster.healRemotePeerUrls address)) := by
  unfold Cluster.healRemotePeerUrls
  split
  · exact .refl n
  · refine ⟨fun id => ?_, rfl, rfl, rfl, rfl⟩
    have hget := Table.get_mapRows n.cluster.members (n.cluster.healMember address) (fun _ => rfl) id
    exact (congrArg Option.isSome hget).trans Option.isSome_map

theorem greeted_asBefore (peer : NodeId) : n.AsBefore (n.greeted here peer) :=
  ((touch_asBefore here.now peer).trans (touch_asBefore here.now _)).trans (heal_asBefore _)

theorem adoptMembers_isSome (c : Cluster) (now : Nat) (records : List NodeRecord) (id : NodeId) :
    ((c.adoptMembers now records).get id).isSome ↔
      (∃ record ∈ records, record.id = id) ∨ (id = c.selfId ∧ (c.members.get id).isSome) := by
  have hnext : ∀ k, ((Table.ofList (records.map (c.adoptMember now)) :
      Table Member Member.id).get k).isSome ↔ ∃ record ∈ records, record.id = k := by
    intro k
    refine Table.isSome_get_ofList.trans ?_
    simp only [List.mem_map, exists_exists_and_eq_and]
    rfl
  unfold Cluster.adoptMembers
  generalize (Table.ofList (records.map (c.adoptMember now)) : Table Member Member.id) = next
    at hnext ⊢
  dsimp only
  split
  · rename_i selfMember hnone hself
    have hkey : selfMember.id = c.selfId := Table.key_of_get hself
    rw [Table.get_insert, hkey]
    by_cases hid : c.selfId = id
    · subst hid
      simp [hself]
    · rw [if_neg hid, hnext]
      exact (or_iff_left (fun h => hid h.1.symm)).symm
  · rename_i hcases
    rw [hnext]
    refine (or_iff_left_of_imp ?_).symm
    rintro ⟨rfl, hself⟩
    obtain ⟨selfMember, hself⟩ := Option.isSome_iff_exists.mp hself
    rw [← hnext]
    cases hget : next.get c.selfId with
    | none => exact absurd hself (hcases selfMember hget)
    | some _ => rfl

/-- The node once it has taken in the membership. -/
def adopted (n : Node) (now : Nat) (snap : ClusterSnapshot) : Node :=
  n.withCluster (n.cluster.applyMembershipForced now snap)

/-- The node once it has taken in the inventory too. -/
def replaced (n : Node) (now : Nat) (snap : ClusterSnapshot) : Node :=
  ((n.adopted now snap).replaceAll snap.vms).replaceRecords snap.volumes

variable {now : Nat}

theorem adopted_members (id : NodeId) :
    ((n.adopted now snap).cluster.members.get id).isSome ↔ n.Adopts snap id :=
  adoptMembers_isSome n.cluster now snap.members id

variable (now) in
theorem adopted_asBefore_iff : n.AsBefore (n.adopted now snap) ↔ n.OwnCluster snap := by
  constructor
  · intro h
    refine ⟨fun id => ?_, h.secret, h.generation⟩
    rw [← h.members id]
    exact (adopted_members id).symm
  · intro h
    refine ⟨fun id => ?_, h.secret, h.generation, rfl, rfl⟩
    exact Bool.eq_iff_iff.mpr ((adopted_members id).trans (h.members id))

variable (now) in
theorem replaceAll_asBefore_iff :
    n.AsBefore ((n.adopted now snap).replaceAll snap.vms) ↔ n.OwnCluster snap ∧ n.OwnVms snap := by
  rw [← adopted_asBefore_iff now]
  constructor
  · intro h
    exact ⟨⟨h.members, h.secret, h.generation, rfl, h.volumes⟩, h.store⟩
  · rintro ⟨h, hvms⟩
    exact ⟨h.members, h.secret, h.generation, hvms, h.volumes⟩

theorem replaced_asBefore_iff :
    n.AsBefore (n.replaced now snap) ↔
      n.OwnCluster snap ∧ n.OwnVms snap ∧ n.OwnVolumes snap := by
  rw [← and_assoc, ← replaceAll_asBefore_iff now]
  constructor
  · intro h
    exact ⟨⟨h.members, h.secret, h.generation, h.store, rfl⟩, h.volumes⟩
  · rintro ⟨h, hvolumes⟩
    exact ⟨h.members, h.secret, h.generation, h.store, hvolumes⟩

theorem replaced_carries_iff : n.Carries (n.replaced now snap) ↔ n.Listed snap :=
  ⟨fun h => ⟨h.vms, h.volumes⟩, fun h => ⟨h.vms, h.volumes⟩⟩

theorem AsBefore.asBefore_right (h : a.AsBefore b) : n.AsBefore b ↔ n.AsBefore a :=
  ⟨fun hb => hb.trans h.symm, fun ha => ha.trans h⟩

theorem AsBefore.asBefore_iff (h : a.AsBefore b) : a.AsBefore n ↔ b.AsBefore n :=
  ⟨h.symm.trans, h.trans⟩

theorem AsBefore.losesNothing_right {r : Node × Except String ClusterStatus} (h : a.AsBefore b) :
    a.LosesNothing r ↔ b.LosesNothing r := by
  have hcarries : a.Carries r.1 ↔ b.Carries r.1 := by
    constructor
    · intro hc
      refine ⟨fun id vm hvm => hc.vms id vm ?_, fun id v hv => hc.volumes id v ?_⟩
      · rw [← h.store]
        exact hvm
      · rw [← h.volumes]
        exact hv
    · intro hc
      refine ⟨fun id vm hvm => hc.vms id vm ?_, fun id v hv => hc.volumes id v ?_⟩
      · rw [h.store]
        exact hvm
      · rw [h.volumes]
        exact hv
  unfold LosesNothing
  rw [hcarries, h.asBefore_iff]

theorem losesNothing_error {r : Node} {text : String} :
    n.LosesNothing (r, .error text) ↔ n.AsBefore r := by
  refine ⟨fun h => h.2 text rfl, fun h => ⟨fun _ hok => ?_, fun _ _ => h⟩⟩
  cases hok

theorem losesNothing_ok {r : Node} {status : ClusterStatus} :
    n.LosesNothing (r, .ok status) ↔ n.Carries r := by
  refine ⟨fun h => h.1 status rfl, fun h => ⟨fun _ _ => h, fun _ herr => ?_⟩⟩
  cases herr

theorem status_alone_iff {r : Node}
    (h : (n.replaced now snap).AsBefore r) :
    (r.cluster.status now).members.length < 2 ↔ n.Alone snap := by
  have hmembers : ∀ id, (r.cluster.members.get id).isSome ↔ n.Adopts snap id := by
    intro id
    rw [h.members id]
    exact adopted_members id
  unfold Cluster.status
  rw [List.length_map, Table.length_lt_two_iff]
  exact forall₂_congr fun i j => imp_congr (hmembers i) (imp_congr (hmembers j) Iff.rfl)

/-- The URL that is advertised has no part in what a snapshot must have. -/
theorem advertised_suits {desired : String} :
    (n.advertised desired).Suits snap disk ↔ n.Suits snap disk := by
  have hbefore := advertised_asBefore (n := n) desired
  have hadopts : ∀ id, (n.advertised desired).Adopts snap id ↔ n.Adopts snap id := by
    intro id
    have hself : (n.advertised desired).cluster.selfId = n.cluster.selfId := by
      unfold advertised
      split
      · rfl
      · show (n.cluster.setMemberPeerUrl _ _).selfId = _
        unfold Cluster.setMemberPeerUrl
        split <;> rfl
    unfold Adopts
    rw [hself, hbefore.members id]
  have hcluster : (n.advertised desired).OwnCluster snap ↔ n.OwnCluster snap := by
    refine ⟨fun h => ⟨fun id => ?_, ?_, ?_⟩, fun h => ⟨fun id => ?_, ?_, ?_⟩⟩
    · rw [← hadopts, ← hbefore.members id]
      exact h.members id
    · exact h.secret.trans hbefore.secret
    · exact h.generation.trans hbefore.generation
    · rw [hadopts, hbefore.members id]
      exact h.members id
    · exact h.secret.trans hbefore.secret.symm
    · exact h.generation.trans hbefore.generation.symm
  have halone : (n.advertised desired).Alone snap ↔ n.Alone snap :=
    forall₂_congr fun i j => imp_congr (hadopts i) (imp_congr (hadopts j) Iff.rfl)
  have hlisted : (n.advertised desired).Listed snap ↔ n.Listed snap := by
    constructor
    · intro h
      refine ⟨fun id vm hvm => h.vms id vm ?_, fun id v hv => h.volumes id v ?_⟩
      · rw [hbefore.store]
        exact hvm
      · rw [hbefore.volumes]
        exact hv
    · intro h
      refine ⟨fun id vm hvm => h.vms id vm ?_, fun id v hv => h.volumes id v ?_⟩
      · rw [← hbefore.store]
        exact hvm
      · rw [← hbefore.volumes]
        exact hv
  unfold Suits OwnVms OwnVolumes
  rw [hcluster, halone, hlisted, hbefore.store, hbefore.volumes]

/-- The node and the peer that it has just logged in to, as it knows them in the end. -/
theorem joined_asBefore (n : Node) (here : Here) (remote : NodeId) (peer : String) : n.AsBefore
    ((n.withCluster (n.cluster.setMemberPeerUrl remote peer)).greeted here remote) :=
  (setMemberPeerUrl_asBefore remote peer).trans (greeted_asBefore remote)

/-- Nothing else works on the node meanwhile, so it has what it has just adopted. -/
theorem applyJoinSnapshot_ok (peerUrl : Except String Unit) :
    n.applyJoinSnapshot now snap ⟨.ok (), .ok (), .ok (), peerUrl⟩ =
      (n.replaced now snap, .ok ()) := by
  refine if_neg ?_
  rintro (h | h) <;> exact h rfl

theorem joinWith_iff (peer : String) (remote : ClusterStatus) :
    n.LosesNothing (n.joinWith here disk peer remote snap) ↔ n.Suits snap disk := by
  unfold joinWith Suits
  rcases disk with ⟨_ | _, vms, volumes, peerUrl⟩
  · exact losesNothing_error.trans (adopted_asBefore_iff _)
  rcases vms with _ | _
  · exact losesNothing_error.trans (replaceAll_asBefore_iff _)
  rcases volumes with _ | _
  · exact losesNothing_error.trans replaced_asBefore_iff
  rw [applyJoinSnapshot_ok]
  dsimp only
  rcases peerUrl with _ | _
  · refine losesNothing_error.trans ?_
    exact (setMemberPeerUrl_asBefore ..).asBefore_right.trans replaced_asBefore_iff
  dsimp only
  have hjoined := joined_asBefore (n.replaced here.now snap) here remote.selfId peer
  have halone := status_alone_iff hjoined
  by_cases hlone : n.Alone snap
  · rw [if_pos (halone.mpr hlone), losesNothing_error, hjoined.asBefore_right]
    exact replaced_asBefore_iff.trans ⟨fun h => ⟨fun _ => h, (absurd hlone ·)⟩, fun h => h.1 hlone⟩
  · rw [if_neg (fun h => hlone (halone.mp h)), losesNothing_ok, hjoined.carries_iff]
    exact replaced_carries_iff.trans ⟨fun h => ⟨(absurd · hlone), fun _ => h⟩, fun h => h.2 hlone⟩

/-- A join loses nothing exactly when the peer refuses it or its snapshot suits the node. -/
theorem losesNothing_iff (n : Node) (here : Here) (seed : Seed) (disk : Disk)
    (req : JoinClusterRequest) :
    n.LosesNothing (n.joinCluster here seed disk req) ↔
      ∀ token remote snap, seed.login req.username req.password = .ok token →
        seed.cluster token = .ok remote →
        seed.accept token (n.advertised here.desired).cluster.selfRecord = .ok snap →
        n.Suits snap disk := by
  have hbefore := advertised_asBefore (n := n) here.desired
  unfold joinCluster
  dsimp only
  cases hlogin : seed.login req.username req.password with
  | error text =>
    refine iff_of_true (losesNothing_error.mpr hbefore) (fun token _ _ h => ?_)
    cases h
  | ok token =>
    dsimp only
    cases hcluster : seed.cluster token with
    | error text =>
      refine iff_of_true (losesNothing_error.mpr hbefore) (fun token' remote snap h hremote => ?_)
      cases h
      rw [hcluster] at hremote
      cases hremote
    | ok remote =>
      dsimp only
      cases haccept : seed.accept token (n.advertised here.desired).cluster.selfRecord with
      | error text =>
        refine iff_of_true (losesNothing_error.mpr hbefore) (fun token' _ snap h _ hsnap => ?_)
        cases h
        rw [haccept] at hsnap
        cases hsnap
      | ok snap =>
        dsimp only
        rw [hbefore.losesNothing_right, joinWith_iff, advertised_suits]
        constructor
        · intro h token' remote' snap' htoken _ hsnap
          cases htoken
          rw [haccept] at hsnap
          cases hsnap
          exact h
        · intro h
          exact h token remote snap rfl hcluster haccept

/-- A seed's snapshot has the inventory of the node that took the new member in. -/
theorem applyAccept_inventory {address : NodeId → Option String} {record : NodeRecord}
    (h : n.applyAccept now address record = .ok snap) :
    snap.guests = n.store ∧ snap.disks = n.volumes := by
  unfold applyAccept at h
  split at h
  · cases h
  · cases h
    exact ⟨Table.ofList_rows _, ofList_listVolumes _⟩

end Node

namespace Join

/-- The peer is a node of a cluster. -/
def Seed.ofNode (a : Node) (node : NodeId → Node) (now : Nat)
    (login : String → String → Except String String) : Seed where
  login := login
  cluster _ := .ok (a.cluster.status now)
  accept _ record := a.acceptNode node now (fun _ => none) record

/-- A node on its own that runs a guest. -/
def busyNode : Node where
  cluster :=
    { (Node.fresh 9).cluster with
      secret := "own"
      generation := 5
      members := Table.ofList [⟨9, { id := 9, name := "busy", peerUrl := "http://10.0.0.9:7480" }, 0⟩] }
  store := Table.ofList
    [{ id := .numeric 100, spec := { name := "web" }, state := .running, nodeId := some 9 }]
  volumes := Table.empty

/-- It joins a cluster of three that has no guests. -/
def busyJoin : Node × Except String ClusterStatus :=
  busyNode.joinCluster ⟨0, "http://10.0.0.9:7480", fun _ => none⟩
    (.ofNode (.fresh 1) Node.fresh 0 (fun _ _ => .ok "token")) {}
    ⟨"http://10.0.0.1:7480/", "admin", "admin"⟩

/-- The join returns Ok, and the record of the running guest is gone. -/
theorem busyJoin_loses : ¬ ∀ (n : Node) (here : Here) (seed : Seed) (disk : Disk)
    (req : JoinClusterRequest), n.LosesNothing (n.joinCluster here seed disk req) := by
  intro h
  have hloses : busyNode.LosesNothing busyJoin := h ..
  have hok : ∃ status, busyJoin.2 = .ok status := by
    cases hr : busyJoin.2 with
    | ok status => exact ⟨status, rfl⟩
    | error text =>
      have hsome : busyJoin.2.toBool = true := by decide +kernel
      rw [hr] at hsome
      cases hsome
  obtain ⟨status, hok⟩ := hok
  have hkept := (hloses.1 status hok).vms (.numeric 100) _ rfl
  have hgone : busyJoin.1.store.get (.numeric 100) = none := by decide +kernel
  rw [hgone] at hkept
  cases hkept

end Join

end Pertisk
