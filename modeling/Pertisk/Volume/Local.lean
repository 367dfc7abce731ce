import Pertisk.Lib.Calls
import Pertisk.Storage.Rebuild
import Pertisk.Volume.Linked
import Pertisk.Volume.Saved

namespace Pertisk.Volume.Local
open Lib Storage

variable {β : Type} [Contents (Image β)]

/-- Operations on the disks of a stopped guest. -/
inductive StoppedOp
  | snapshot (id : VolumeId) (name : String) (notes : Option String)
  | restore (id : VolumeId) (name : String)
  | resize (id : VolumeId) (sizeBytes : Nat)
  | clone (id : VolumeId) (name : String) (linked : Bool)
  | backup (vm : VmId) (notes : Option String)

/-- What the caller gets, and what a snapshot captured, which no daemon keeps. -/
inductive Done (β : Type)
  | snapshot (record : VolumeRecord) (captured : β)
  | record (record : VolumeRecord)
  | backup (disks : List (VolumeRecord × Image β))

/-- What an operation meets outside the maps and files of the nodes. -/
structure Setting (β : Type) [Contents (Image β)] where
  env : Env
  now : Nat
  newId : VolumeId
  /-- How the tool or the copy ends that works on the volume. -/
  ran : VolumeId → Except String Unit
  /-- A clone's image is written anew, and not copied as the file is. -/
  converts : Bool
  /-- What a disk reads as once it has the new size. -/
  grown : β → Nat → β
  /-- The branches for Ceph and ZFS volumes, and for a snapshot of a running guest. -/
  elsewhere : StoppedOp → Fleet (Image β) → NodeId → Fleet (Image β) × Except String (Done β)

def Setting.tools (s : Setting β) (n : NodeId) : Tools where
  self := n
  qemuImg := s.env.qemuImg n
  zfs := .new none
  rbd := .new none

section storage
variable (s : Setting β) (n : NodeId) (h : Host (Image β))

def stored (id : VolumeId) : Except String VolumeRecord :=
  match h.getVolume id with
  | some record => .ok record
  | none => .error s!"volume not found: {uuidText id}"

def orMissing {α : Type} (found : Option α) : Except String α :=
  match found with
  | some a => .ok a
  | none => .error "No such file or directory (os error 2)"

/-- A snapshot goes into the image, or the file is copied. -/
def capture (record : VolumeRecord) (image : Image β) (snap : VolumeSnapshot) : Host (Image β) :=
  match snap.path with
  | none => h.writeFile record.path
      { image with saved := image.saved ++ [(snap.name, image.active)] }
  | some path => h.writeFile path image

def snapshot (id : VolumeId) (name : String) (notes : Option String) :
    Except String (Host (Image β) × VolumeRecord × β) := do
  let record ← stored h id
  Edit.check record (.snapshot name notes (s.now / 1000) false)
  let image ← orMissing (h.files record.path)
  s.ran id
  let written := Edit.write (s.tools n) record (.snapshot name notes (s.now / 1000) false)
  let snap := Edit.entry (s.tools n) record name notes (s.now / 1000) false
  return ((capture h record image snap).putRecord written, written, image.active)

def findSnapshot (record : VolumeRecord) (name : String) : Except String VolumeSnapshot :=
  match record.snapshots.find? (fun snap => snap.name == name) with
  | some snap => .ok snap
  | none => .error s!"snapshot not found: {name}"

/-- The image that the restore of a snapshot makes of one; a snapshot in a file of its own is
copied back from there. -/
def restored (image : Option (Image β)) (snap : VolumeSnapshot) : Option (Image β) :=
  match snap.path with
  | some path => h.files path
  | none => image.bind (fun image =>
      (image.saved.lookup snap.name).map (fun contents => { image with active := contents }))

def restoreSnapshot (id : VolumeId) (name : String) :
    Except String (Host (Image β) × VolumeRecord) := do
  let record ← stored h id
  let snap ← findSnapshot record name
  let image ← orMissing (restored h (h.files record.path) snap)
  s.ran id
  return (h.writeFile record.path image, record)

/-- The image once its volume has the size. -/
def resized (record : VolumeRecord) (sizeBytes : Nat) (image : Image β) : Image β :=
  if sizeBytes = record.sizeBytes then image
  else { image with active := s.grown image.active sizeBytes }

def resize (id : VolumeId) (sizeBytes : Nat) : Except String (Host (Image β) × VolumeRecord) := do
  let record ← stored h id
  Edit.check record (.resize sizeBytes)
  if sizeBytes = record.sizeBytes then return (h, record)
  else
    let image ← orMissing (h.files record.path)
    s.ran id
    let written := { record with sizeBytes := sizeBytes }
    return ((h.writeFile record.path (resized s record sizeBytes image)).putRecord written, written)

/-- What is asked before a clone is made. -/
def cloneChecks (name : String) (linked : Bool) : Except String Unit := do
  if (trimmed name).isEmpty then .error "clone name is required"
  if h.node.listVolumes.any (fun vol => vol.name == name) then
    .error s!"volume name already exists: {name}"
  if linked && !s.env.qemuImg n then .error "linked clone requires qemu-img"

/-- The record of a clone, which its image is written for. -/
def cloneRecord (source : VolumeRecord) (name : String) (linked : Bool) : VolumeRecord :=
  let format := if linked then .qcow2 else source.format
  { id := s.newId
    name := name
    format := format
    sizeBytes := source.sizeBytes
    path := .disk s.newId format
    backingId := if linked then some source.id else none
    replicaCount := max source.replicaCount 1
    backend := source.backend }

/-- An image is what its node reads in it, through the file behind it when it is linked. -/
def cloneImage (linked : Bool) (image : Image β) : Image β :=
  if linked || s.converts then { image with saved := [] } else image

def cloneVolume (id : VolumeId) (name : String) (linked : Bool) :
    Except String (Host (Image β) × VolumeRecord) := do
  let source ← stored h id
  cloneChecks s n h name linked
  let image ← orMissing (h.files source.path)
  s.ran id
  let record := cloneRecord s source name linked
  return ((h.writeFile record.path (cloneImage s linked image)).putRecord record, record)

/-- The disks that a backup has to export. -/
def backupSources : List DiskSpec → Except String (List (VolumeRecord × Image β))
  | [] => .ok []
  | disk :: disks =>
    match disk.cdrom, disk.volumeId with
    | false, some id => do
      let record ← stored h id
      if record.backend.external then
        .error (s!"invalid vm spec: {Host.backendText record.backend} volumes cannot be backed up " ++
          "with the local export path yet")
      match h.files record.path with
      | none => .error s!"invalid vm spec: volume {record.name} has no local image to export"
      | some image => return (record, image) :: (← backupSources disks)
    | _, _ => backupSources disks

def exportImages : List (VolumeRecord × Image β) → Except String (List (VolumeRecord × Image β))
  | [] => .ok []
  | (record, image) :: sources => do
    s.ran record.id
    return (record, Vault.exported (s.tools n) image) :: (← exportImages sources)

end storage

section service
variable (s : Setting β) (w : Fleet (Image β)) (n : NodeId)

def online : List NodeId := (w n).node.cluster.onlineIds s.now

/-- The generation goes up, and the peers take in the leader's inventory. -/
def bumpAndReplicate : Fleet (Image β) :=
  let w := Function.update w n (w n).bump
  let snap := (w n).node.snapshot
  ((w n).node.replicateTo s.now).foldl (fun w peer => Function.update w peer
    { w peer with node := (w peer).node.applySnapshot s.now snap }) w

/-- The replicas get the new image, and the peers the new record. -/
def published (record : VolumeRecord) : Fleet (Image β) :=
  bumpAndReplicate s (syncVolumeReplicas s.env (online s w n) n w record) n

/-- A change of the volume on this node is sent around. -/
def changed (r : Except String (Host (Image β) × VolumeRecord)) :
    Fleet (Image β) × Except String (Done β) :=
  match r with
  | .error text => (w, .error text)
  | .ok (h, record) => (published s (Function.update w n h) n record, .ok (.record record))

def snapshotVolume (id : VolumeId) (name : String) (notes : Option String) :
    Fleet (Image β) × Except String (Done β) :=
  match snapshot s n (w n) id name notes with
  | .error text => (w, .error text)
  | .ok (h, record, captured) =>
    (published s (Function.update w n h) n record, .ok (.snapshot record captured))

def restoreVolume (id : VolumeId) (name : String) : Fleet (Image β) × Except String (Done β) :=
  changed s w n (do
    (w n).node.requireVolumeIdle id
    restoreSnapshot s (w n) id name)

def resizeVolume (id : VolumeId) (sizeBytes : Nat) : Fleet (Image β) × Except String (Done β) :=
  changed s w n (do
    (w n).node.requireVolumeIdle id
    resize s (w n) id sizeBytes)

/-- What is asked on this node before the storage makes the clone. -/
def cloneAccepts (id : VolumeId) : Except String Unit := do
  (w n).node.requireVolumeIdle id
  let source ← stored (w n) id
  let need := match (w n).files source.path with
    | some image => allocated image
    | none => 0
  (Host.requireStorageBytes s.env n (.free id) need "clone volume").mapError DaemonError.text

/-- The clone's own replicas are chosen among the nodes online. -/
def placed (record : VolumeRecord) : VolumeRecord :=
  let want := replicaWant (online s w n).length (max record.replicaCount 1)
  { record with replicaCount := want, replicas := placeReplicas (online s w n) want (some n) }

def cloneOf (id : VolumeId) (name : String) (linked : Bool) :
    Fleet (Image β) × Except String (Done β) :=
  let clone : Except String (Host (Image β) × VolumeRecord) := do
    cloneAccepts s w n id
    cloneVolume s n (w n) id name linked
  match clone with
  | .error text => (w, .error text)
  | .ok (h, record) =>
    let record := placed s w n record
    let w := Function.update w n (h.putRecord record)
    let w := ensureReplicas s.env (online s w n) n w record
    (published s w n record, .ok (.record record))

def createVmBackup (id : VmId) (notes : Option String) : Except String (Done β) := do
  match (w n).node.store.get id with
  | none => .error s!"vm not found: {id.text}"
  | some vm =>
    requireNotTemplate vm "backup"
    requireStopped vm "backup"
    let sources ← backupSources (w n) vm.spec.disks
    if sources.isEmpty then .error "invalid vm spec: guest has no disks to back up"
    let _ ← (cleanVolumeNotes notes).mapError (fun text => s!"invalid vm spec: {text}")
    return .backup (← exportImages s n sources)

/-- Ceph and ZFS volumes and running guests take other branches. -/
def other : StoppedOp → Bool
  | .snapshot id .. => !((w n).node.runningVolumeUsers id).isEmpty ||
      ((w n).getVolume id).any (fun record => record.backend.external)
  | .restore id _ | .resize id _ | .clone id .. =>
    ((w n).getVolume id).any (fun record => record.backend.external)
  | .backup .. => false

def run (op : StoppedOp) : Fleet (Image β) × Except String (Done β) :=
  if other w n op then s.elsewhere op w n
  else
    match op with
    | .snapshot id name notes => snapshotVolume s w n id name notes
    | .restore id name => restoreVolume s w n id name
    | .resize id sizeBytes => resizeVolume s w n id sizeBytes
    | .clone id name linked => cloneOf s w n id name linked
    | .backup vm notes => (w, createVmBackup s w n vm notes)

end service

end Pertisk.Volume.Local
