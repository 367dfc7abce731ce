import Pertisk.Types
import Pertisk.Lib.Layers
import Pertisk.Lib.Run
import Pertisk.Volume.Users

namespace Pertisk

/-- Local paths of the disks, as the volume map has them here. -/
def Node.localizeDisks (n : Node) (vm : VmRecord) : VmRecord :=
  { vm with spec := { vm.spec with disks := vm.spec.disks.map (fun disk =>
    match disk.volumeId.bind n.getVolume with
    | none => disk
    | some vol => { disk with path := vol.localize.path }) } }

def requireStopped (vm : VmRecord) (op : String) : Except String Unit :=
  if vm.state = .running then .error s!"vm {vm.id.text} must be stopped to {op}" else .ok ()

def requireNotTemplate (vm : VmRecord) (op : String) : Except String Unit :=
  if vm.template then .error s!"vm {vm.id.text} is a template; cannot {op}" else .ok ()

/-- A volume is attached to one guest at most. Nothing tells the peers. -/
def Node.attachDisk (n : Node) (id : VmId) (volumeId : VolumeId) :
    Except String (Node × VmRecord) := do
  match n.store.get id with
  | none => .error s!"vm not found: {id.text}"
  | some vm =>
    requireStopped vm "attach disk"
    if vm.usesVolume volumeId then return (n, vm)
    if !(n.volumeUsers volumeId).isEmpty then
      .error s!"volume {uuidText volumeId} is attached to a vm"
    match n.getVolume volumeId with
    | none => .error s!"volume not found: {uuidText volumeId}"
    | some vol =>
      let disk : DiskSpec := { path := vol.localize.path, volumeId := some vol.id }
      let vm := { vm with spec := { vm.spec with disks := vm.spec.disks ++ [disk] } }
      return (n.upsertVm vm, vm)

namespace Volume
open Lib

/-- The disk images of a node, and the volumes that each running guest has open for writing.
`saved` are the snapshots' blocks. -/
structure Disks (δ : Type) where
  node : Node
  qemuImg : Bool
  layers : Layers VolumeId δ
  saved : VolumeId → String → Option (Nat → Option δ)
  running : List (VmId × List VolumeId)

inductive DiskAction (δ : Type)
  /-- A full clone is made flat, or copied as the file is. -/
  | clone (id newId : VolumeId) (name : String) (linked flat : Bool) (path : PathBuf)
  | attach (vm : VmId) (id : VolumeId)
  | start (vm : VmId)
  | stop (vm : VmId)
  | write (vm : VmId) (id : VolumeId) (block : Nat) (data : δ)
  | resize (id : VolumeId) (sizeBytes : Nat)
  | snapshot (id : VolumeId) (name : String) (now : Nat)
  | restore (id : VolumeId) (name : String)
  | restoreBackup (vm : VmId) (disks : List (VolumeId × (Nat → Option δ)))
  /-- A volume outside the files gets a new path with its name. -/
  | rename (id : VolumeId) (name : String) (path : PathBuf)

namespace Disks

variable {δ : Type} (s : Disks δ)

def read (id : VolumeId) (block : Nat) : Option δ := s.layers.read id block

def upsertVm (vm : VmRecord) : Disks δ := { s with node := (s.node.upsertVm vm).bump }

def putRecord (record : VolumeRecord) : Disks δ :=
  { s with node := (s.node.putRecord record).bump }

def volume (id : VolumeId) : Except String VolumeRecord :=
  match s.node.getVolume id with
  | some vol => .ok vol
  | none => .error s!"volume not found: {uuidText id}"

def vm (id : VmId) : Except String VmRecord :=
  match s.node.store.get id with
  | some vm => .ok vm
  | none => .error s!"vm not found: {id.text}"

/-- A linked clone of a file stands on it; outside the files the backend keeps what was cloned. -/
def cloneVolume (id newId : VolumeId) (name : String) (linked flat : Bool) (path : PathBuf) :
    Except String (Disks δ) := do
  s.node.requireVolumeIdle id
  let source ← s.volume id
  if source.backend.external then
    let record : VolumeRecord :=
      { id := newId, name := name, format := .raw, sizeBytes := source.sizeBytes, path := path,
        backend := source.backend }
    return { s.putRecord record with layers := (newId, ⟨s.read id, none⟩) :: s.layers }
  if (PeerUrl.trim name.toList).isEmpty then .error "clone name is required"
  if s.node.listVolumes.any (fun vol => vol.name == name) then
    .error s!"volume name already exists: {name}"
  if linked && !s.qemuImg then .error "linked clone requires qemu-img"
  let layer : Layer VolumeId δ :=
    if linked then ⟨fun _ => none, some id⟩
    else if flat then ⟨s.read id, none⟩
    else (s.layers.layer id).getD ⟨fun _ => none, none⟩
  let record : VolumeRecord :=
    { id := newId, name := name, format := if linked then .qcow2 else source.format
      sizeBytes := source.sizeBytes, path := path
      backingId := if linked then some id else none
      replicaCount := max source.replicaCount 1, backend := source.backend }
  return { s.putRecord record with layers := (newId, layer) :: s.layers }

/-- The volumes whose files a guest opens for writing. -/
def opened (vm : VmRecord) : List VolumeId :=
  (s.node.listVolumes.filter (fun vol => vm.spec.disks.any (fun disk =>
    !disk.readonly && !disk.cdrom && disk.path == vol.path))).map VolumeRecord.id

def start (id : VmId) : Except String (Disks δ) := do
  let record ← s.vm id
  let record := s.node.localizeDisks record
  record.startable
  let started := record.started s.node.cluster.selfId none none
  return { s.upsertVm started with running := (id, s.opened record) :: s.running }

def stop (id : VmId) : Except String (Disks δ) := do
  let record ← s.vm id
  return { s.upsertVm record.stopped with running := s.running.filter (fun entry => entry.1 ≠ id) }

def resize (id : VolumeId) (sizeBytes : Nat) : Except String (Disks δ) := do
  s.node.requireVolumeIdle id
  let record ← s.volume id
  if sizeBytes < record.sizeBytes then
    .error s!"cannot shrink volume from {record.sizeBytes} to {sizeBytes} bytes"
  return s.putRecord { record with sizeBytes := sizeBytes }

def snapshot (id : VolumeId) (name : String) (now : Nat) : Except String (Disks δ) := do
  let name := String.ofList (PeerUrl.trim name.toList)
  if name.isEmpty then .error "snapshot name is required"
  let record ← s.volume id
  if record.snapshots.any (fun snap => snap.name == name) then
    .error s!"snapshot already exists: {name}"
  let snap : VolumeSnapshot := { name := name, createdUnix := now }
  let blocks := (s.layers.layer id).map Layer.blocks
  return { s.putRecord { record with snapshots := record.snapshots ++ [snap] } with
    saved := Function.update s.saved id (Function.update (s.saved id) name blocks) }

def savedBlocks (id : VolumeId) (name : String) : Except String (Nat → Option δ) :=
  match s.saved id name with
  | some blocks => .ok blocks
  | none => .error "no such snapshot in the image"

/-- Only the volume's own blocks are rolled back. -/
def restore (id : VolumeId) (name : String) : Except String (Disks δ) := do
  s.node.requireVolumeIdle id
  let record ← s.volume id
  if !record.snapshots.any (fun snap => snap.name == name) then
    .error s!"snapshot not found: {name}"
  let blocks ← s.savedBlocks id name
  return { s with
    node := s.node.bump
    layers := s.layers.alter id (fun layer => { layer with blocks := blocks }) }

def checkBackup (vm : VmRecord) : List VolumeId → Except String Unit
  | [] => .ok ()
  | id :: ids => do
    if !vm.spec.disks.any (fun disk => !disk.cdrom && disk.volumeId == some id) then
      .error "backup disk is not attached to this guest"
    s.node.requireVolumeIdle id
    let vol ← s.volume id
    if vol.backend.external then .error "volumes cannot be restored from a local backup"
    checkBackup vm ids

/-- The backup's images take the place of the disks', and of the snapshots in them. -/
def restoreBackup (id : VmId) (disks : List (VolumeId × (Nat → Option δ))) :
    Except String (Disks δ) := do
  let record ← s.vm id
  requireNotTemplate record "restore"
  requireStopped record "restore"
  if disks.isEmpty then .error "backup has no disks"
  s.checkBackup record (disks.map Prod.fst)
  return { s with
    node := s.node.bump
    layers := disks.foldl (fun layers disk => layers.alter disk.1 (fun _ => ⟨disk.2, none⟩)) s.layers
    saved := fun v name =>
      if v ∈ disks.map Prod.fst ∧ (s.node.getVolume v).map VolumeRecord.format = some .qcow2 then
        none
      else s.saved v name }

def rename (id : VolumeId) (name : String) (path : PathBuf) : Except String (Disks δ) := do
  let name := String.ofList (PeerUrl.trim name.toList)
  if name.isEmpty then .error "volume name is required"
  let record ← s.volume id
  if record.backend.external then
    s.node.requireVolumeIdle id
    let record := { record with name := name, path := path }
    return { s with node := ((s.node.putRecord record).repath record).bump }
  if s.node.listVolumes.any (fun vol => vol.id != id && vol.name == name) then
    .error s!"volume name already exists: {name}"
  return s.putRecord { record with name := name }

/-- A running guest has the volume open for writing. -/
def writes (vm : VmId) (id : VolumeId) : Bool :=
  s.running.any (fun entry => entry.1 == vm && entry.2.contains id)

def write (id : VolumeId) (block : Nat) (data : δ) : Disks δ :=
  { s with layers := s.layers.alter id (fun layer =>
    { layer with blocks := Function.update layer.blocks block (some data) }) }

def step (s : Disks δ) : DiskAction δ → Option (Disks δ)
  | .clone id newId name linked flat path =>
    if (s.node.getVolume newId).isNone && s.layers.all (fun entry => entry.1 != newId) then
      (s.cloneVolume id newId name linked flat path).toOption
    else none
  | .attach vm id => (s.node.attachDisk vm id).toOption.map (fun done => { s with node := done.1 })
  | .start vm => (s.start vm).toOption
  | .stop vm => (s.stop vm).toOption
  | .write vm id block data =>
    if s.writes vm id then some (s.write id block data) else none
  | .resize id sizeBytes => (s.resize id sizeBytes).toOption
  | .snapshot id name now => (s.snapshot id name now).toOption
  | .restore id name => (s.restore id name).toOption
  | .restoreBackup vm disks => (s.restoreBackup vm disks).toOption
  | .rename id name path => (s.rename id name path).toOption

end Disks

end Volume

end Pertisk
