import Pertisk.Lib.Calls
import Pertisk.Service.Snapshots

namespace Pertisk.Volume
open Lib

/-- Where a node's disk has a snapshot: inside its image or in its backend, or as a copy beside it.
Ceph has its images for all nodes. -/
structure Spot where
  inside : Bool
  site : Option NodeId
  deriving DecidableEq

/-- All nodes' inventories, and the snapshots that their disks really have. -/
structure Snaps where
  now : Nat
  node : NodeId → Node
  has : Spot → VolumeId → String → Bool

/-- What a call meets: each node's tools and driver, the answers of the tools and hypervisors that
take a snapshot, and the pushes of a disk that replace the replica's image. -/
structure Meets where
  tools : NodeId → Tools
  driver : NodeId → DriverKind
  takes : NodeId → VolumeId → Except String Unit
  replaces : VolumeId → NodeId → Bool

def spot (record : VolumeRecord) (n : NodeId) (inside : Bool) : Spot where
  inside := inside
  site := if record.backend = .rbd then none else some n

namespace Snaps

variable (m : Meets) (w : Snaps)

def setNode (n : NodeId) (node : Node) : Snaps :=
  { w with node := Function.update w.node n node }

def mark (p : Spot) (id : VolumeId) (name : String) (there : Bool) : Snaps :=
  { w with has := fun q i x => if q = p ∧ i = id ∧ x = name then there else w.has q i x }

/-- A replica's image is replaced by this node's, with the snapshots inside. -/
def copy (id : VolumeId) (n : NodeId) (w : Snaps) (replica : NodeId) : Snaps :=
  { w with has := fun q i x =>
      if q = ⟨true, some replica⟩ ∧ i = id then w.has ⟨true, some n⟩ id x else w.has q i x }

/-- The peers take in the leader's inventory. -/
def bumpAndReplicate (n : NodeId) : Snaps :=
  let w := w.setNode n (w.node n).bump
  ((w.node n).replicateTo w.now).foldl
    (fun w peer => w.setNode peer ((w.node peer).applySnapshot w.now (w.node n).snapshot)) w

/-- The replicas whose image a push replaces. -/
def synced (n : NodeId) (record : VolumeRecord) : List NodeId :=
  if record.backend.external then []
  else record.replicas.filter (fun replica => replica != n &&
    ((w.node n).cluster.onlineIds w.now).contains replica && m.replaces record.id replica)

def syncVolumeReplicas (n : NodeId) (record : VolumeRecord) : Snaps :=
  (w.synced m n record).foldl (copy record.id n) w

def volumeNotFound (id : VolumeId) : String := s!"volume not found: {uuidText id}"

/-- `snapshot` of the volume pool. -/
def poolSnapshot (n : NodeId) (id : VolumeId) (name : String) (notes : Option String) :
    Snaps × Except String VolumeRecord :=
  match (w.node n).getVolume id with
  | none => (w, .error (volumeNotFound id))
  | some record =>
    let edit := Edit.snapshot name notes (w.now / 1000) false
    match edit.check record with
    | .error text => (w, .error text)
    | .ok () =>
      match m.takes n id with
      | .error text => (w, .error text)
      | .ok () =>
        let snap := Edit.entry (m.tools n) record name notes (w.now / 1000) false
        let written := edit.write (m.tools n) record
        ((w.mark (spot record n snap.path.isNone) id snap.name true).setNode n
          ((w.node n).putRecord written), .ok written)

/-- The guest of the volume runs on this node. QEMU is asked before the record is checked as a
whole. -/
def snapshotLive (n : NodeId) (vm : VmRecord) (id : VolumeId) (name : String)
    (notes : Option String) : Snaps × Except String VolumeRecord :=
  match (w.node n).getVolume id with
  | none => (w, .error (volumeNotFound id))
  | some record =>
    if (trimmed name).isEmpty then (w, .error "snapshot name is required")
    else if record.hasSnapshot (trimmed name) then
      (w, .error s!"snapshot already exists: {trimmed name}")
    else
      match Service.runningSnapshotPlan record.backend record.format (m.driver n)
        (Service.hasDevice vm id) with
      | .refuse text => (w, .error text)
      | .storage =>
        match w.poolSnapshot m n id name notes with
        | (w, .error text) => (w, .error text)
        | (w, .ok record) => (w.bumpAndReplicate n, .ok record)
      | .qemu =>
        match m.takes n id with
        | .error text => (w, .error text)
        | .ok () =>
          let edit := Edit.snapshot name notes (w.now / 1000) true
          let w := w.mark (spot record n true) id (trimmed name) true
          match edit.check record with
          | .error text => (w, .error text)
          | .ok () =>
            let written := edit.write (m.tools n) record
            ((w.setNode n ((w.node n).putRecord written)).bumpAndReplicate n, .ok written)

/-- The node that the one running guest of the volume is on, as node `n` knows it. -/
def taker (n : NodeId) (id : VolumeId) : NodeId :=
  match (w.node n).runningVolumeUsers id with
  | [vmId] => (((w.node n).store.get vmId).bind VmRecord.nodeId).getD n
  | _ => n

/-- `snapshot_volume_forward`; `elsewhere` is what happens when the guest runs on another node. -/
def snapshotForward (n : NodeId) (id : VolumeId) (name : String) (notes : Option String)
    (elsewhere : NodeId → Snaps × Except String VolumeRecord) : Snaps × Except String VolumeRecord :=
  match (w.node n).runningVolumeUsers id with
  | [] =>
    match w.poolSnapshot m n id name notes with
    | (w, .error text) => (w, .error text)
    | (w, .ok record) => ((w.syncVolumeReplicas m n record).bumpAndReplicate n, .ok record)
  | [vmId] =>
    match (w.node n).store.get vmId with
    | none => (w, .error s!"vm not found: {vmId.text}")
    | some vm =>
      if vm.nodeId.getD n ≠ n then elsewhere (vm.nodeId.getD n)
      else w.snapshotLive m n vm id name notes
  | _ => (w, .error "volume is attached to more than one running guest")

/-- Snapshot on this node. Peer calls use this so a forward does not loop. -/
def snapshotVolumeHere (n : NodeId) (id : VolumeId) (name : String) (notes : Option String) :
    Snaps × Except String VolumeRecord :=
  w.snapshotForward m n id name notes (fun _ => (w, .error "guest is not running on this node"))

def snapshotVolume (n : NodeId) (id : VolumeId) (name : String) (notes : Option String) :
    Snaps × Except String VolumeRecord :=
  w.snapshotForward m n id name notes (fun owner =>
    match (w.node n).cluster.memberUrl owner with
    | none => (w, .error s!"cluster peer: unknown node {uuidText owner}")
    | some _ =>
      let there := w.snapshotVolumeHere m owner id name notes
      (there.1, there.2.mapError (fun text => s!"cluster peer: {text}")))

/-- The snapshot is removed from the disk; a command that finds none fails. -/
def discard (n : NodeId) (record : VolumeRecord) (snap : VolumeSnapshot) (name : String) :
    Option Snaps :=
  if record.backend.external || (snap.path.isNone && record.format == .qcow2) then
    if w.has (spot record n true) record.id name then
      some (w.mark (spot record n true) record.id name false)
    else none
  else if snap.path.isSome then some (w.mark ⟨false, some n⟩ record.id name false)
  else some w

/-- `delete_snapshot` of the volume pool. -/
def poolDelete (n : NodeId) (id : VolumeId) (name : String) : Snaps × Except String VolumeRecord :=
  match (w.node n).getVolume id with
  | none => (w, .error (volumeNotFound id))
  | some record =>
    match record.snapshots.find? (fun snap => snap.name == name) with
    | none => (w, .error s!"snapshot not found: {name}")
    | some snap =>
      match w.discard n record snap name with
      | none => (w, .error "snapshot delete failed")
      | some w' =>
        let written := (Edit.deleteSnapshot name false).write (m.tools n) record
        (w'.setNode n ((w.node n).putRecord written), .ok written)

/-- QEMU deletes a snapshot of the image that it has open. -/
def deletesLive (n : NodeId) (vm : VmRecord) (record : VolumeRecord) (name : String) : Bool :=
  Service.liveQcow record name && Service.hasDevice vm record.id && vm.nodeId.getD n == n &&
    w.has (spot record n true) record.id name

def deleteVolumeSnapshot (n : NodeId) (id : VolumeId) (name : String) :
    Snaps × Except String VolumeRecord :=
  let pool :=
    match w.poolDelete m n id (trimmed name) with
    | (w, .error text) => (w, .error text)
    | (w, .ok record) => (w.bumpAndReplicate n, .ok record)
  match (w.node n).cluster.quorumError w.now with
  | some text => (w, .error text)
  | none =>
    if (trimmed name).isEmpty then (w, .error "snapshot name is required")
    else
      match (w.node n).runningVolumeUsers id with
      | [] => pool
      | vmId :: _ =>
        match (w.node n).store.get vmId, (w.node n).getVolume id with
        | none, _ => (w, .error s!"vm not found: {vmId.text}")
        | _, none => (w, .error (volumeNotFound id))
        | some vm, some record =>
          if !record.hasSnapshot (trimmed name) then
            (w, .error s!"snapshot not found: {trimmed name}")
          else if w.deletesLive n vm record (trimmed name) then
            let written := (Edit.deleteSnapshot name true).write (m.tools n) record
            (((w.mark (spot record n true) id (trimmed name) false).setNode n
              ((w.node n).putRecord written)).bumpAndReplicate n, .ok written)
          else pool

structure CreateVmSnapshotRequest where
  name : String
  notes : Option String := none

/-- Some disk is not in the inventory, or has the snapshot already. -/
def unfit (n : Node) (name : String) : List VolumeId → Option String
  | [] => none
  | id :: rest =>
    match n.getVolume id with
    | none => some (volumeNotFound id)
    | some record =>
      if record.hasSnapshot name then some s!"snapshot already exists: {name}" else unfit n name rest

/-- What is asked before a disk is touched. -/
def accepted (here : NodeId) (id : VmId) (name : String) : Except String VmRecord :=
  match (w.node here).cluster.quorumError w.now with
  | some text => .error text
  | none =>
    if name.isEmpty then .error "snapshot name is required"
    else
      match (w.node here).store.get id with
      | none => .error s!"vm not found: {id.text}"
      | some vm =>
        if vm.template then .error s!"vm {id.text} is a template; cannot snapshot"
        else if (Service.diskVolumes vm).isEmpty then .error "guest has no disks to snapshot"
        else
          match unfit (w.node here) name (Service.diskVolumes vm) with
          | some text => .error text
          | none => .ok vm

/-- One disk after another; those that were taken are removed again when one fails. -/
def createVmSnapshot (here : NodeId) (id : VmId) (req : CreateVmSnapshotRequest) :
    Snaps × Except String (List VolumeRecord) :=
  match w.accepted here id (trimmed req.name) with
  | .error text => (w, .error text)
  | .ok vm =>
    batch (fun w volumeId => w.snapshotVolume m here volumeId (trimmed req.name) req.notes)
      (fun w record => (w.deleteVolumeSnapshot m here record.id (trimmed req.name)).1)
      w (Service.diskVolumes vm) []

end Snaps

end Pertisk.Volume
