import Pertisk.Lib.Run
import Pertisk.Storage.Host
import Pertisk.Volume.Linked

namespace Pertisk.Backup
open Lib

/-- An image of a backup lies in the backup's own directory; older ones may lie elsewhere. -/
inductive ImagePath
  | own (vm : VmId) (backup : Uuid) (volume : VolumeId) (format : VolumeFormat)
  | legacy (text : String)
  deriving DecidableEq

structure VmBackupDisk where
  volumeId : VolumeId
  name : String
  path : ImagePath
  sizeBytes : Nat
  deriving DecidableEq

structure VmBackupRecord where
  id : Uuid
  vmId : VmId
  name : String
  createdUnix : Nat
  sizeBytes : Nat := 0
  disks : List VmBackupDisk := []
  notes : Option String := none
  deriving DecidableEq

structure UpdateVmBackupRequest where
  name : Option String := none
  notes : Option String := none

/-- What an operation has done to the catalogue when it is acknowledged. -/
inductive Done
  | created (record : VmBackupRecord)
  | deleted (removed : VmBackupRecord)
  | updated (vm : VmId) (id : Uuid) (name : Option String) (notes : Option (Option String))

def VmBackupRecord.isOf (vm : VmId) (id : Uuid) (b : VmBackupRecord) : Bool :=
  b.vmId == vm && b.id == id

/-- The record with the name and the note that were given. -/
def VmBackupRecord.set (b : VmBackupRecord) (name : Option String)
    (notes : Option (Option String)) : VmBackupRecord :=
  { b with name := name.getD b.name, notes := notes.getD b.notes }

/-- The catalogue that lists what was created and not deleted, as it was last renamed and noted. -/
def Done.apply : Done → List VmBackupRecord → List VmBackupRecord
  | .created record, all => all ++ [record]
  | .deleted removed, all => all.filter (fun b => !b.isOf removed.vmId removed.id)
  | .updated vm id name notes, all => all.map (fun b => if b.isOf vm id then b.set name notes else b)

def replay (all : List VmBackupRecord) (log : List Done) : List VmBackupRecord :=
  log.foldl (fun all done => done.apply all) all

inductive BackupOp
  /-- The images of this backup have been exported. -/
  | create (record : VmBackupRecord)
  | delete (vm : VmId) (id : Uuid)
  | update (vm : VmId) (id : Uuid) (req : UpdateVmBackupRequest)

/-- `iter_mut().find(..)`: the first record of a backup is changed. -/
def setFirst (vm : VmId) (id : Uuid) (name : Option String) (notes : Option (Option String)) :
    List VmBackupRecord → List VmBackupRecord
  | [] => []
  | b :: all => if b.isOf vm id then b.set name notes :: all else b :: setFirst vm id name notes all

def backupNotFound (id : Uuid) : String := s!"backup not found: {uuidText id}"

def checkName (all : List VmBackupRecord) (vm : VmId) (id : Uuid) :
    Option String → Except String (Option String)
  | none => .ok none
  | some name =>
    let name := PeerUrl.trim name.toList
    if name.isEmpty then .error "invalid vm spec: backup name is required"
    else if 128 < name.length then
      .error "invalid vm spec: backup name is limited to 128 characters"
    else if all.any (fun b => b.vmId == vm && b.id != id && b.name == String.ofList name) then
      .error s!"name already exists: {String.ofList name}"
    else .ok (some (String.ofList name))

def checkNotes : Option String → Except String (Option (Option String))
  | none => .ok none
  | some notes => (Volume.cleanVolumeNotes (some notes)).map some

/-- What an operation makes of the catalogue that it has loaded. -/
def BackupOp.edit (all : List VmBackupRecord) : BackupOp → Except String (List VmBackupRecord × Done)
  | .create record => .ok (all ++ [record], .created record)
  | .delete vm id =>
    match all.find? (VmBackupRecord.isOf vm id) with
    | none => .error (backupNotFound id)
    | some removed => .ok (all.eraseP (VmBackupRecord.isOf vm id), .deleted removed)
  | .update vm id req =>
    if all.any (VmBackupRecord.isOf vm id) then do
      let name ← checkName all vm id req.name
      let notes ← checkNotes req.notes
      return (setFirst vm id name notes all, .updated vm id name notes)
    else .error (backupNotFound id)

inductive Phase
  /-- The volumes are exported one after the other. -/
  | exporting (draft : VmBackupRecord) (todo : List VolumeRecord)
  | ready (op : BackupOp)
  | loaded (all : List VmBackupRecord) (done : Done)
  /-- The temporary file is written. -/
  | written (all : List VmBackupRecord) (done : Done)
  | cleaning (removed : VmBackupRecord)

/-- A call under way. A prune goes on with the backups in its queue. -/
structure Job where
  id : ℕ
  phase : Phase
  queue : List (VmId × Uuid) := []

/-- A daemon's backups: the catalogue file, the temporary file beside it, and the image files. -/
structure Catalogue where
  node : Node
  file : List VmBackupRecord
  tmp : Option (List VmBackupRecord) := none
  images : List ImagePath
  jobs : Table Job Job.id := Table.empty
  /-- The ids that backups were given; a new one is not among them. -/
  taken : List Uuid
  /-- What was acknowledged, in the order in which it was saved. -/
  log : List Done := []

/-- What a call does next. -/
inductive Turn
  | export (size : Nat)
  | exportFails
  | load
  | loadFails
  | write
  /-- Something may be left in the temporary file. -/
  | writeFails (left : Option (List VmBackupRecord))
  | rename
  | renameFails
  | clean

inductive BackupAction
  | create (job : ℕ) (vm : VmId) (notes : Option String) (fresh : Uuid) (now : Nat)
  | delete (job : ℕ) (vm : VmId) (id : Uuid)
  | update (job : ℕ) (vm : VmId) (id : Uuid) (req : UpdateVmBackupRequest)
  | prune (job : ℕ) (vm : VmId) (keep : Nat)
  | turn (job : ℕ) (turn : Turn)
  /-- Other operations change the guests and volumes. -/
  | inventory (node : Node)

def VmBackupRecord.inDir (b : VmBackupRecord) : ImagePath → Bool
  | .own vm id _ _ => vm == b.vmId && id == b.id
  | .legacy _ => false

/-- The record with one more image. -/
def VmBackupRecord.add (b : VmBackupRecord) (vol : VolumeRecord) (size : Nat) : VmBackupRecord :=
  let disk := ⟨vol.id, vol.name, .own b.vmId b.id vol.id vol.format, size⟩
  { b with disks := b.disks ++ [disk], sizeBytes := saturatingAdd b.sizeBytes size }

namespace Catalogue

variable (w : Catalogue)

def put (job : Job) : Catalogue := { w with jobs := w.jobs.insert job }

def drop (id : ℕ) : Catalogue := { w with jobs := w.jobs.erase id }

def vm (id : VmId) : Except String VmRecord :=
  match w.node.store.get id with
  | some vm => .ok vm
  | none => .error s!"vm not found: {id.text}"

/-- A prune goes on while its guest is there; a call with nothing more to do returns. -/
def follow (id : ℕ) : List (VmId × Uuid) → Catalogue
  | [] => w.drop id
  | (vm, backup) :: queue =>
    match w.vm vm with
    | .ok _ => w.put ⟨id, .ready (.delete vm backup), queue⟩
    | .error _ => w.drop id

def sources : List VolumeId → Except String (List VolumeRecord)
  | [] => .ok []
  | id :: ids =>
    match w.node.getVolume id with
    | none => .error s!"volume not found: {uuidText id}"
    | some vol =>
      if vol.backend.external then
        .error (s!"invalid vm spec: {Storage.Host.backendText vol.backend} volumes cannot be " ++
          "backed up with the local export path yet")
      else do
        let others ← sources ids
        return vol :: others

/-- The part of `create_vm_backup` before the export. -/
def createVmBackup (id : VmId) (notes : Option String) (fresh : Uuid) (now : Nat) :
    Except String (VmBackupRecord × List VolumeRecord) := do
  let vm ← w.vm id
  requireNotTemplate vm "backup"
  requireStopped vm "backup"
  let sources ← w.sources ((vm.spec.disks.filter (fun d => !d.cdrom)).filterMap DiskSpec.volumeId)
  if sources.isEmpty then .error "invalid vm spec: guest has no disks to back up"
  let notes ← Volume.cleanVolumeNotes notes
  let name := s!"{vm.spec.name}-{String.ofList ((uuidText fresh).toList.take 8)}"
  return ({ id := fresh, vmId := id, name := name, createdUnix := now, notes := notes }, sources)

/-- The newest first. -/
def listVmBackups (id : VmId) : List VmBackupRecord :=
  (w.file.filter (fun b => b.vmId == id)).mergeSort (fun a b =>
    decide (b.createdUnix < a.createdUnix) ||
      (a.createdUnix == b.createdUnix && decide (uuidText b.id ≤ uuidText a.id)))

def turn (job : Job) (t : Turn) : Option Catalogue :=
  match job.phase, t with
  | .exporting draft (vol :: todo), .export size =>
    let draft := draft.add vol size
    let phase := if todo.isEmpty then .ready (.create draft) else .exporting draft todo
    some ({ w with images := .own draft.vmId draft.id vol.id vol.format :: w.images }.put
      { job with phase := phase })
  | .exporting draft _, .exportFails =>
    some ({ w with images := w.images.filter (fun path => !draft.inDir path) }.drop job.id)
  | .ready op, .load =>
    match op.edit w.file with
    | .ok (all, done) => some (w.put { job with phase := .loaded all done })
    | .error _ => some (w.drop job.id)
  | .ready _, .loadFails => some (w.drop job.id)
  | .loaded all done, .write =>
    some ({ w with tmp := some all }.put { job with phase := .written all done })
  | .loaded _ _, .writeFails left => some ({ w with tmp := left }.drop job.id)
  | .written _ done, .rename =>
    match w.tmp with
    | none => some (w.drop job.id)
    | some all =>
      let w := { w with file := all, tmp := none, log := w.log ++ [done] }
      match done with
      | .deleted removed => some (w.put { job with phase := .cleaning removed })
      | _ => some (w.drop job.id)
  | .written _ _, .renameFails => some (w.drop job.id)
  | .cleaning removed, .clean =>
    let keep (path : ImagePath) : Bool :=
      !removed.inDir path && !removed.disks.any (fun disk => disk.path == path)
    some ({ w with images := w.images.filter keep }.follow job.id job.queue)
  | _, _ => none

def step (w : Catalogue) : BackupAction → Option Catalogue
  | .create job vm notes fresh now =>
    if (w.jobs.get job).isSome || fresh ∈ w.taken then none
    else
      match w.createVmBackup vm notes fresh now with
      | .error _ => some w
      | .ok (draft, todo) =>
        some ({ w with taken := fresh :: w.taken }.put ⟨job, .exporting draft todo, []⟩)
  | .delete job vm id =>
    if (w.jobs.get job).isSome then none else some (w.follow job [(vm, id)])
  | .update job vm id req =>
    if (w.jobs.get job).isSome then none
    else
      match w.vm vm with
      | .error _ => some w
      | .ok _ => some (w.put ⟨job, .ready (.update vm id req), []⟩)
  | .prune job vm keep =>
    if (w.jobs.get job).isSome then none
    else
      match w.vm vm with
      | .error _ => some w
      | .ok _ =>
        let old := if keep = 0 then [] else (w.listVmBackups vm).drop keep
        some (w.follow job (old.map (fun b => (vm, b.id))))
  | .turn job t => (w.jobs.get job).bind (fun found => w.turn found t)
  | .inventory node => some { w with node := node }

end Catalogue

end Pertisk.Backup
