import Pertisk.Cluster

namespace Pertisk
open Lib

/-- The record with the path that this node keeps the volume under. -/
def VolumeRecord.localize (v : VolumeRecord) : VolumeRecord :=
  if v.backend.external then v else { v with path := .disk v.id v.format }

@[simp] theorem VolumeRecord.localize_id (v : VolumeRecord) : v.localize.id = v.id := by
  unfold localize
  split <;> rfl

@[simp] theorem VolumeRecord.localize_backend (v : VolumeRecord) :
    v.localize.backend = v.backend := by
  unfold localize
  split <;> rfl

/-- A volume record as the storage keeps it: the bytes of a volume that is not external are
under the local path of its id and format. -/
structure StoredVolume where
  record : VolumeRecord
  localPath : record.backend.external = false → record.path = .disk record.id record.format

namespace StoredVolume

def id (v : StoredVolume) : VolumeId := v.record.id

def ofRecord (v : VolumeRecord) : StoredVolume where
  record := v.localize
  localPath := by
    intro h
    rw [VolumeRecord.localize_backend] at h
    simp [VolumeRecord.localize, h]

@[simp] theorem ofRecord_id (v : VolumeRecord) : (ofRecord v).id = v.id := v.localize_id

@[simp] theorem ofRecord_record (v : StoredVolume) : ofRecord v.record = v := by
  obtain ⟨r, hr⟩ := v
  simp only [ofRecord, VolumeRecord.localize, mk.injEq]
  split
  · rfl
  · rename_i h
    have := hr (by simpa using h)
    cases r
    simp_all

theorem ofRecord_localize (v : VolumeRecord) : ofRecord v.localize = ofRecord v :=
  ofRecord_record (ofRecord v)

end StoredVolume

/-- What one daemon knows: its membership view, guests and volumes. -/
structure Node where
  cluster : Cluster
  store : Table VmRecord VmRecord.id
  volumes : Table StoredVolume StoredVolume.id

namespace Node

variable (n : Node) (now : Nat)

def getVolume (id : VolumeId) : Option VolumeRecord := (n.volumes.get id).map StoredVolume.record

def listVolumes : List VolumeRecord := n.volumes.rows.map StoredVolume.record

def upsertVm (record : VmRecord) : Node := { n with store := n.store.insert record }

def removeVm (id : VmId) : Node := { n with store := n.store.erase id }

def putRecord (record : VolumeRecord) : Node :=
  { n with volumes := n.volumes.insert (.ofRecord record) }

def removeVolume (id : VolumeId) : Node := { n with volumes := n.volumes.erase id }

def replaceAll (records : List VmRecord) : Node := { n with store := Table.ofList records }

def replaceRecords (records : List VolumeRecord) : Node :=
  { n with volumes := Table.ofList (records.map StoredVolume.ofRecord) }

def bump : Node := { n with cluster := n.cluster.bump }

def touch (id : NodeId) (record : Option NodeRecord) : Node :=
  { n with cluster := n.cluster.touch now id record }

def snapshot : ClusterSnapshot :=
  { n.cluster.membershipSnapshot with vms := n.store.rows, volumes := n.listVolumes }

/-- At an equal generation the membership is refreshed and the inventory is kept. -/
def applySnapshot (snap : ClusterSnapshot) : Node :=
  if snap.generation < n.cluster.generation then n
  else
    let replaceInventory := snap.generation > n.cluster.generation
    let n := { n with cluster := n.cluster.applyMembership now snap }
    if replaceInventory then (n.replaceAll snap.vms).replaceRecords snap.volumes else n

/-- Answer a peer's heartbeat: the peer gets our snapshot back when ours is the higher one. -/
def onHeartbeat (msg : HeartbeatMessage) : Node × Option ClusterSnapshot :=
  let n := n.touch now msg.sender (some msg.member)
  let replyIfNewer (n : Node) :=
    (n, if msg.generation < n.cluster.generation then some n.snapshot else none)
  match msg.snapshot with
  | some snap =>
    if snap.generation > n.cluster.generation then
      replyIfNewer ((n.applySnapshot now snap).touch now msg.sender none)
    else if snap.generation < n.cluster.generation then (n, some n.snapshot)
    else replyIfNewer n
  | none => replyIfNewer n

/-- The heartbeat that goes out to every peer, always with the inventory. -/
def heartbeatOut : HeartbeatMessage where
  sender := n.cluster.selfId
  generation := n.cluster.generation
  member := n.cluster.selfRecord
  snapshot := some n.snapshot

/-- A peer answered our heartbeat with 200, and with its snapshot when it is ahead. -/
def onHeartbeatReply (peer : NodeId) (reply : Option ClusterSnapshot) : Node :=
  let n := n.touch now peer none
  match reply with
  | some snap => (n.applySnapshot now snap).touch now peer none
  | none => n

/-- Peers that the leader pushes its snapshot to; nobody else pushes. -/
def replicateTo : List NodeId :=
  if n.cluster.isLeader now then n.cluster.peersOnlineExceptSelf now else []

@[simp] theorem touch_store (id : NodeId) (record : Option NodeRecord) :
    (n.touch now id record).store = n.store := rfl

@[simp] theorem touch_volumes (id : NodeId) (record : Option NodeRecord) :
    (n.touch now id record).volumes = n.volumes := rfl

@[simp] theorem touch_generation (id : NodeId) (record : Option NodeRecord) :
    (n.touch now id record).cluster.generation = n.cluster.generation :=
  Cluster.touch_generation ..

@[simp] theorem snapshot_generation : n.snapshot.generation = n.cluster.generation := rfl

/-- Taking in the inventory that another node sent out gives that node's own tables. -/
@[simp] theorem ofList_listVolumes :
    Table.ofList (n.listVolumes.map StoredVolume.ofRecord) = n.volumes := by
  simp [listVolumes, Function.comp_def]

/-- Below its own generation a node ignores a snapshot, at its own it keeps the inventory, and
above it takes the snapshot's. -/
theorem applySnapshot_cases (snap : ClusterSnapshot) :
    (n.cluster.generation < snap.generation ∧
      (n.applySnapshot now snap).cluster.generation = snap.generation ∧
      (n.applySnapshot now snap).store = Table.ofList snap.vms ∧
      (n.applySnapshot now snap).volumes =
        Table.ofList (snap.volumes.map StoredVolume.ofRecord)) ∨
    (snap.generation ≤ n.cluster.generation ∧
      (n.applySnapshot now snap).cluster.generation = n.cluster.generation ∧
      (n.applySnapshot now snap).store = n.store ∧
      (n.applySnapshot now snap).volumes = n.volumes) := by
  unfold applySnapshot
  rcases Nat.lt_trichotomy snap.generation n.cluster.generation with hlt | heq | hgt
  · right
    simp [hlt, Nat.le_of_lt hlt]
  · right
    have happly := n.cluster.applyMembership_generation now snap (Nat.le_of_eq heq.symm)
    simp [heq, happly]
  · left
    have hlt : ¬ snap.generation < n.cluster.generation := by omega
    have happly := n.cluster.applyMembership_generation now snap (Nat.le_of_lt hgt)
    simp [hlt, hgt, happly, replaceAll, replaceRecords]

/-- A node of a cluster of three, all of them in contact, with nothing in the inventory. -/
def fresh (id : NodeId) : Node where
  cluster :=
    { offlineAfterMs := 10000, selfId := id, name := "lab", secret := "s", generation := 1
      members := Table.ofList ([1, 2, 3].map (fun m =>
        ⟨m, { id := m, name := "node", peerUrl := "" }, 0⟩))
      fenced := false, haArmed := true, witnessHolder := none, witnessUntilMs := 0 }
  store := Table.empty
  volumes := Table.empty

end Node

end Pertisk
