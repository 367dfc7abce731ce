import Pertisk.Backup.Catalogue
import Pertisk.Disks.Requests
import Pertisk.Disks.Shelf

namespace Pertisk.Disks
open Lib Storage Volume Backup

/-- The backups of a node: the file that lists them, and the images that there are. -/
structure Depot (β : Type) where
  catalogue : Except String (List VmBackupRecord)
  stored : ImagePath → Option (Image β)

namespace VolumePool

variable {β : Type} (a : Site) (p : VolumePool β) (d : Depot β)

def requireGuest (id : VmId) : Except Fault VmRecord :=
  match a.node.store.get id with
  | none => .error (.refused s!"vm not found: {id.text}")
  | some vm => .ok vm

/-- Every disk of the backup is looked at before the first is written. -/
def backupJobs (vm : VmRecord) : List VmBackupDisk → Except Fault (List (Image β × VolumeRecord))
  | [] => .ok []
  | disk :: disks =>
    match d.stored disk.path with
    | none => .error (.refused s!"invalid vm spec: backup image for {disk.name} is missing")
    | some image =>
      if !vm.spec.disks.any (fun spec => !spec.cdrom && spec.volumeId == some disk.volumeId) then
        .error (.refused
          s!"invalid vm spec: backup disk {disk.name} is not attached to this guest")
      else
        match a.node.requireVolumeIdle disk.volumeId, p.getVolume disk.volumeId with
        | .error text, _ => .error (.refused text)
        | .ok (), .error fault => .error fault
        | .ok (), .ok vol =>
          if vol.backend.external then
            .error (.refused (s!"invalid vm spec: {Host.backendText vol.backend} volumes " ++
              "cannot be restored from a local backup"))
          else
            match backupJobs vm disks with
            | .error fault => .error fault
            | .ok jobs => .ok ((image, vol) :: jobs)

/-- `qemu-img convert` leaves the snapshots in an image behind. -/
def exportImage (image : Image β) : Image β := if p.qemu then { image with saved := [] } else image

/-- The image is exported to a temporary file, which takes the disk's place; when either fails the
disk is as it was. -/
def replaceEach : VolumePool β → List (Image β × VolumeRecord) → (ℕ → Luck β) →
    VolumePool β × Except Fault Unit
  | p, [], _ => (p, .ok ())
  | p, (image, vol) :: jobs, luck =>
    match (luck 0).command with
    | some (text, _) => (p, .error (.failed text))
    | none =>
      let file := Spot.file (p.localPath vol.id vol.format)
      replaceEach (p.set file (some (p.exportImage image))) jobs (fun i => luck (i + 1))

def restoreVmBackup (luck : ℕ → Luck β) (bump : Option String) (id : VmId) (backupId : Uuid) :
    VolumePool β × Except Fault Unit :=
  match requireGuest a id with
  | .error fault => (p, .error fault)
  | .ok vm =>
    if vm.template then (p, .error (.refused s!"vm {id.text} is a template; cannot restore"))
    else if vm.state = .running then
      (p, .error (.refused s!"vm {id.text} must be stopped to restore"))
    else
      match d.catalogue with
      | .error text => (p, .error (.failed text))
      | .ok all =>
        match all.find? (VmBackupRecord.isOf id backupId) with
        | none => (p, .error (.refused (backupNotFound backupId)))
        | some backup =>
          if backup.disks.isEmpty then
            (p, .error (.refused "invalid vm spec: backup has no disks"))
          else
            match p.backupJobs a d vm backup.disks with
            | .error fault => (p, .error fault)
            | .ok jobs => finish (p.replaceEach jobs luck) bump

/-- The guest's volumes that have the snapshot, in the order of its disks. -/
def snapshotVolumes (name : String) : List DiskSpec → Except Fault (List VolumeId)
  | [] => .ok []
  | disk :: disks =>
    match disk.cdrom, disk.volumeId with
    | true, _ => snapshotVolumes name disks
    | false, none => snapshotVolumes name disks
    | false, some id =>
      match p.getVolume id, snapshotVolumes name disks with
      | .error fault, _ => .error fault
      | .ok _, .error fault => .error fault
      | .ok record, .ok ids => .ok (if record.hasSnapshot name then id :: ids else ids)

/-- `restore_volume`. -/
def restoreVolume (luck : Luck β) (id : VolumeId) (name : String) :
    VolumePool β × Except Fault VolumeRecord :=
  match a.node.requireVolumeIdle id with
  | .error text => (p, .error (.refused text))
  | .ok () => finish (p.restoreSnapshot luck id name) luck.bump

/-- One disk after the other goes back, each for good. -/
def restoreEach (name : String) : VolumePool β → List VolumeId → (ℕ → Luck β) →
    VolumePool β × Except Fault Unit
  | p, [], _ => (p, .ok ())
  | p, id :: ids, luck =>
    match p.restoreVolume a (luck 0) id name with
    | (p, .error fault) => (p, .error fault)
    | (p, .ok _) => restoreEach name p ids (fun i => luck (i + 1))

def restoreVmSnapshot (luck : ℕ → Luck β) (id : VmId) (name : String) :
    VolumePool β × Except Fault Unit :=
  match a.node.cluster.quorumError a.now with
  | some text => (p, .error (.refused text))
  | none =>
    if (trimmed name).isEmpty then (p, .error (.refused "snapshot name is required"))
    else
      match requireGuest a id with
      | .error fault => (p, .error fault)
      | .ok vm =>
        if vm.state = .running then
          (p, .error (.refused s!"vm {id.text} must be stopped to restore"))
        else
          match p.snapshotVolumes (trimmed name) vm.spec.disks with
          | .error fault => (p, .error fault)
          | .ok [] => (p, .error (.refused s!"snapshot not found: {trimmed name}"))
          | .ok (first :: ids) => restoreEach a (trimmed name) p (first :: ids) luck

end VolumePool

/-- What a guest's disks are restored from. -/
inductive RestoreCall
  | backup (id : VmId) (backupId : Uuid)
  | snapshot (id : VmId) (name : String)

namespace RestoreCall

variable {β : Type} (a : Site) (p : VolumePool β) (d : Depot β)

def guest : RestoreCall → VmId
  | .backup id _ => id
  | .snapshot id _ => id

/-- How each disk's commands and files fare, and how the membership's file does at the end. -/
def run (luck : ℕ → Luck β) (bump : Option String) :
    RestoreCall → VolumePool β × Except Fault Unit
  | .backup id backupId => p.restoreVmBackup a d luck bump id backupId
  | .snapshot id name => p.restoreVmSnapshot a luck id name

/-- Every disk of the guest reads as it did. -/
def SameDisks (q : VolumePool β) (call : RestoreCall) : Prop :=
  ∀ vm, a.node.store.get call.guest = some vm → ∀ disk ∈ vm.spec.disks, ∀ id,
    disk.volumeId = some id → q.contents id = p.contents id

/-- However its commands and files fare, an error leaves the guest's disks as they were. -/
def AllOrNothing (call : RestoreCall) : Prop :=
  ∀ luck bump fault, (call.run a p d luck bump).2 = .error fault →
    call.SameDisks a p (call.run a p d luck bump).1

/-- All checks pass, with these disks to replace. -/
def Replaces (id : VmId) (backupId : Uuid) (jobs : List (Image β × VolumeRecord)) : Prop :=
  ∃ vm all backup, a.node.store.get id = some vm ∧ vm.template = false ∧ vm.state ≠ .running ∧
    d.catalogue = .ok all ∧ all.find? (VmBackupRecord.isOf id backupId) = some backup ∧
    backup.disks.isEmpty = false ∧ p.backupJobs a d vm backup.disks = .ok jobs

/-- All checks pass, and the first disk is about to be written. -/
def Begins (id : VmId) (name : String) : Prop :=
  ∃ vm first ids record snap s image, a.node.cluster.quorumError a.now = none ∧
    (trimmed name).isEmpty = false ∧ a.node.store.get id = some vm ∧ vm.state ≠ .running ∧
    p.snapshotVolumes (trimmed name) vm.spec.disks = .ok (first :: ids) ∧
    a.node.requireVolumeIdle first = .ok () ∧ p.getVolume first = .ok record ∧
    record.snapshots.find? (fun snap => snap.name == trimmed name) = some snap ∧
    p.spot record = .ok s ∧ p.restoredImage s record snap = .ok image

/-- A backup is refused before the first disk is replaced, or its images read as the disks do; a
snapshot's restore does not come to write a disk. -/
def Harmless : RestoreCall → Prop
  | .backup id backupId => ∀ jobs, Replaces a p d id backupId jobs →
      ∀ job ∈ jobs, p.contents job.2.id = some job.1.active
  | .snapshot id name => ¬ Begins a p id name

end RestoreCall

end Pertisk.Disks
