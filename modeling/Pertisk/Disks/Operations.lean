import Pertisk.Volume.External
import Pertisk.Volume.Saved

namespace Pertisk.Disks
open Lib Storage Volume

/-- A request is refused by a check, or a file or a command of a backend fails. -/
inductive Fault
  | refused (text : String)
  | failed (text : String)

/-- Where an image is: in a file, by its path from the root of the file system, or in a backend. -/
inductive Spot
  | file (name : FileName)
  | outside (place : Place)
  deriving DecidableEq

/-- The volumes and ISOs that a node lists, and every image that there is. `qemu` tells whether
`qemu-img` is installed. -/
structure VolumePool (β : Type) where
  root : FileName
  qemu : Bool
  rbd : Rbd
  zfs : Zfs
  volumes : Table StoredVolume StoredVolume.id
  isos : Table IsoRecord IsoRecord.name
  images : Spot → Option (Image β)

/-- How the command or the copy of a request ends, with what one that fails leaves where it
writes, and how the files of the inventory and of the membership are written. -/
structure Luck (β : Type) where
  command : Option (String × Option (Image β)) := none
  flush : Option String := none
  bump : Option String := none

def extension : VolumeFormat → String
  | .raw => "raw"
  | .qcow2 => "qcow2"

namespace VolumePool

variable {β : Type} (p : VolumePool β)

/-- `local_path`. -/
def localPath (id : VolumeId) (format : VolumeFormat) : FileName :=
  let ext := extension format
  p.root ++ ["disks".toList, s!"{uuidText id}.{ext}".toList]

def snapDir (id : VolumeId) : FileName :=
  p.root ++ ["snapshots".toList, (uuidText id).toList]

def isoPath (name : String) : FileName := p.root ++ ["iso".toList, name.toList]

/-- The image that commands about a volume work on. -/
def spot (r : VolumeRecord) : Except String Spot :=
  match r.backend with
  | .replica => .ok (.file (p.localPath r.id r.format))
  | .rbd => .ok (.outside (.image (p.rbd.spec r.name)))
  | .zfs =>
    match datasetFromPath r.path with
    | some dataset => .ok (.outside (.zvol dataset))
    | none => .error "not a zfs volume path"

/-- Where a snapshot is kept. -/
def slot (r : VolumeRecord) (snap : VolumeSnapshot) : Slot :=
  match r.backend, snap.path with
  | .rbd, _ => .inside snap.name
  | .zfs, _ => .inside (String.ofList (sanitize snap.name.toList))
  | .replica, none => .inside snap.name
  | .replica, some _ => .file (joinPath (p.snapDir r.id) snap.name)

def set (s : Spot) (image : Option (Image β)) : VolumePool β :=
  { p with images := Function.update p.images s image }

/-- A command or a copy that writes an image. -/
def write (s : Spot) (image : Image β) (command : Option (String × Option (Image β))) :
    VolumePool β × Except Fault Unit :=
  match command with
  | none => (p.set s (some image), .ok ())
  | some (text, none) => (p, .error (.failed text))
  | some (text, some left) => (p.set s (some left), .error (.failed text))

def getVolume (id : VolumeId) : Except Fault VolumeRecord :=
  match p.volumes.get id with
  | some v => .ok v.record
  | none => .error (.refused (StorageError.notFound id).text)

def image (s : Spot) : Except Fault (Image β) :=
  match p.images s with
  | some image => .ok image
  | none => .error (.failed "No such file or directory (os error 2)")

def nameTaken (name : String) : Bool := p.volumes.rows.any (fun v => v.record.name == name)

/-- The record is put into the inventory, and the inventory into its file. -/
def upsertVolume (record : VolumeRecord) (flush : Option String) :
    VolumePool β × Except Fault VolumeRecord :=
  ({ p with volumes := p.volumes.insert (.ofRecord record) },
    match flush with
    | none => .ok record
    | some text => .error (.failed text))

def insertIso (record : IsoRecord) (flush : Option String) : VolumePool β × Except Fault IsoRecord :=
  ({ p with isos := p.isos.insert record },
    match flush with
    | none => .ok record
    | some text => .error (.failed text))

end VolumePool

end Pertisk.Disks

namespace Pertisk.Disks
open Lib Storage Volume

structure CloneVolumeRequest where
  name : String
  linked : Bool := false

namespace VolumePool

variable {β : Type} [Contents β] (p : VolumePool β) (luck : Luck β)

def plain (contents : β) : Image β := { active := contents, saved := [] }

/-- What `create_volume` asks before it makes the image. -/
def createChecks (req : CreateVolumeRequest) : Except String Unit :=
  if (trimmed req.name).isEmpty then .error "volume name is required"
  else if req.sizeBytes = 0 then .error "volume size must be > 0"
  else if req.format == .qcow2 && !p.qemu then .error "qcow2 requires qemu-img"
  else if p.nameTaken req.name then .error s!"volume name already exists: {req.name}"
  else .ok ()

def blank (format : VolumeFormat) (sizeBytes : Nat) : Image β :=
  plain (match format with
    | .raw => createRaw sizeBytes
    | .qcow2 => createQcow2 sizeBytes)

/-- The note is looked at once the image is there. -/
def createVolume (id : VolumeId) (req : CreateVolumeRequest) :
    VolumePool β × Except Fault VolumeRecord :=
  match p.createChecks req with
  | .error text => (p, .error (.refused text))
  | .ok () =>
    match p.write (.file (p.localPath id req.format)) (blank req.format req.sizeBytes)
      luck.command with
    | (p, .error fault) => (p, .error fault)
    | (p, .ok ()) =>
      match cleanVolumeNotes req.notes with
      | .error text => (p, .error (.refused text))
      | .ok notes =>
        p.upsertVolume
          { id := id, name := req.name, format := req.format, sizeBytes := req.sizeBytes
            path := .disk id req.format, notes := notes } luck.flush

/-- A raw image is cut or filled with zeros; `grown` is what it reads as then. -/
def resize (grown : β → Nat → β) (id : VolumeId) (sizeBytes : Nat) :
    VolumePool β × Except Fault VolumeRecord :=
  match p.getVolume id with
  | .error fault => (p, .error fault)
  | .ok record =>
    if sizeBytes < record.sizeBytes then
      (p, .error (.refused
        s!"cannot shrink volume from {record.sizeBytes} to {sizeBytes} bytes"))
    else if sizeBytes = record.sizeBytes then (p, .ok record)
    else if record.format == .qcow2 && !p.qemu then
      (p, .error (.refused "qcow2 requires qemu-img"))
    else
      let file := Spot.file (p.localPath record.id record.format)
      match p.image file with
      | .error fault => (p, .error fault)
      | .ok image =>
        match p.write file { image with active := grown image.active sizeBytes } luck.command with
        | (p, .error fault) => (p, .error fault)
        | (p, .ok ()) => p.upsertVolume { record with sizeBytes := sizeBytes } luck.flush

/-- What `clone_volume` asks before it makes the image. -/
def cloneChecks (req : CloneVolumeRequest) : Except String Unit :=
  if p.nameTaken req.name then .error s!"volume name already exists: {req.name}"
  else if req.linked && !p.qemu then .error "linked clone requires qemu-img"
  else .ok ()

/-- An image is what its node reads in it, through the file behind it when it is linked; one that
`qemu-img` writes anew has no snapshots inside. -/
def cloneImage (linked converts : Bool) (image : Image β) : Image β :=
  if linked || converts then plain image.active else image

def cloneVolume (converts : Bool) (id newId : VolumeId) (req : CloneVolumeRequest) :
    VolumePool β × Except Fault VolumeRecord :=
  if (trimmed req.name).isEmpty then (p, .error (.refused "clone name is required"))
  else
    match p.getVolume id with
    | .error fault => (p, .error fault)
    | .ok source =>
      match p.cloneChecks req with
      | .error text => (p, .error (.refused text))
      | .ok () =>
        match p.image (.file (p.localPath source.id source.format)) with
        | .error fault => (p, .error fault)
        | .ok image =>
          let format := if req.linked then .qcow2 else source.format
          match p.write (.file (p.localPath newId format)) (cloneImage req.linked converts image)
            luck.command with
          | (p, .error fault) => (p, .error fault)
          | (p, .ok ()) =>
            p.upsertVolume
              { id := newId, name := req.name, format := format, sizeBytes := source.sizeBytes
                path := .disk newId format
                backingId := if req.linked then some source.id else none
                replicaCount := max source.replicaCount 1, backend := source.backend } luck.flush

/-- The tools as the edits of a record take them. -/
def tools : Tools where
  self := 0
  qemuImg := p.qemu
  zfs := p.zfs
  rbd := p.rbd

/-- The snapshot goes into the image under a tag, which a backend has only once, or the image is
copied. -/
def capture (s : Spot) (r : VolumeRecord) (image : Image β) (snap : VolumeSnapshot)
    (command : Option (String × Option (Image β))) : VolumePool β × Except Fault Unit :=
  match p.slot r snap with
  | .inside tag =>
    if r.backend.external && image.saved.any (fun entry => entry.1 == tag) then
      (p, .error (.failed "snapshot already exists"))
    else p.write s { image with saved := image.saved ++ [(tag, image.active)] } command
  | .file name => p.write (.file name) image command

def snapshot (now : Nat) (id : VolumeId) (name : String) (notes : Option String) :
    VolumePool β × Except Fault VolumeRecord :=
  if (trimmed name).isEmpty then (p, .error (.refused "snapshot name is required"))
  else
    match p.getVolume id with
    | .error fault => (p, .error fault)
    | .ok record =>
      let edit := Edit.snapshot name notes now false
      match edit.check record, p.spot record with
      | .error text, _ => (p, .error (.refused text))
      | .ok (), .error text => (p, .error (.refused text))
      | .ok (), .ok s =>
        match p.image s with
        | .error fault => (p, .error fault)
        | .ok image =>
          let snap := Edit.entry p.tools record name notes now false
          match p.capture s record image snap luck.command with
          | (p, .error fault) => (p, .error fault)
          | (p, .ok ()) => p.upsertVolume (edit.write p.tools record) luck.flush

/-- Record a snapshot that QEMU already created inside an open qcow2. -/
def noteSnapshot (now : Nat) (id : VolumeId) (name : String) (notes : Option String) :
    VolumePool β × Except Fault VolumeRecord :=
  match p.getVolume id with
  | .error fault => (p, .error fault)
  | .ok record =>
    let edit := Edit.snapshot name notes now true
    match edit.check record with
    | .error text => (p, .error (.refused text))
    | .ok () => p.upsertVolume (edit.write p.tools record) luck.flush

/-- A snapshot inside the image of a file is `qemu-img`'s to work on. -/
def tagTool (r : VolumeRecord) : Except Fault Unit :=
  if r.backend == .replica && !p.qemu then .error (.refused "qcow2 requires qemu-img") else .ok ()

/-- The file of a snapshot is removed, or the tag in the image. -/
def discard (s : Spot) (r : VolumeRecord) (snap : VolumeSnapshot)
    (command : Option (String × Option (Image β))) : VolumePool β × Except Fault Unit :=
  match p.slot r snap with
  | .inside tag =>
    if r.backend == .replica && r.format == .raw then (p, .ok ())
    else
      match p.tagTool r, p.image s with
      | .error fault, _ => (p, .error fault)
      | .ok (), .error fault => (p, .error fault)
      | .ok (), .ok image =>
        if image.saved.any (fun entry => entry.1 == tag) then
          p.write s { image with saved := image.saved.eraseP (fun entry => entry.1 == tag) } command
        else (p, .error (.failed "no such snapshot in the image"))
  | .file name =>
    match command with
    | some (text, _) => (p, .error (.failed text))
    | none => (p.set (.file name) none, .ok ())

def deleteSnapshot (id : VolumeId) (name : String) : VolumePool β × Except Fault VolumeRecord :=
  match p.getVolume id with
  | .error fault => (p, .error fault)
  | .ok record =>
    let name := trimmed name
    match record.snapshots.find? (fun snap => snap.name == name), p.spot record with
    | none, _ => (p, .error (.refused s!"snapshot not found: {name}"))
    | some _, .error text => (p, .error (.refused text))
    | some snap, .ok s =>
      match p.discard s record snap luck.command with
      | (p, .error fault) => (p, .error fault)
      | (p, .ok ()) =>
        let edit := Edit.deleteSnapshot name false
        p.upsertVolume (edit.write p.tools record) luck.flush

/-- The image that a restore puts in the place of the present one. A zvol's rollback destroys what
is newer than its target. -/
def restoredImage (s : Spot) (r : VolumeRecord) (snap : VolumeSnapshot) : Except Fault (Image β) :=
  match p.slot r snap with
  | .inside tag =>
    match p.tagTool r, p.image s with
    | .error fault, _ => .error fault
    | .ok (), .error fault => .error fault
    | .ok (), .ok image =>
      match image.saved.lookup tag with
      | some contents =>
        .ok {
          active := contents
          saved := if r.backend = .zfs then upTo tag image.saved else image.saved }
      | none => .error (.failed "no such snapshot in the image")
  | .file name => p.image (.file name)

/-- The name is taken as it comes, and the size in the record stays. -/
def restoreSnapshot (id : VolumeId) (name : String) : VolumePool β × Except Fault VolumeRecord :=
  match p.getVolume id with
  | .error fault => (p, .error fault)
  | .ok record =>
    match record.snapshots.find? (fun snap => snap.name == name), p.spot record with
    | none, _ => (p, .error (.refused s!"snapshot not found: {name}"))
    | some _, .error text => (p, .error (.refused text))
    | some snap, .ok s =>
      match p.restoredImage s record snap with
      | .error fault => (p, .error fault)
      | .ok image =>
        match p.write s image luck.command with
        | (p, .error fault) => (p, .error fault)
        | (p, .ok ()) => (p, .ok record)

def writeBlob (id : VolumeId) (bytes : β) : VolumePool β × Except Fault VolumeRecord :=
  match p.getVolume id with
  | .error fault => (p, .error fault)
  | .ok record =>
    if record.backend.external then
      (p, .error (.refused s!"cannot write a blob to a {Host.backendText record.backend} volume"))
    else
      match p.write (.file (p.localPath record.id record.format)) (plain bytes) luck.command with
      | (p, .error fault) => (p, .error fault)
      | (p, .ok ()) =>
        p.upsertVolume { record with sizeBytes := max record.sizeBytes (len bytes) } luck.flush

/-- A file that is there is kept, whatever the record says. -/
def ensureLocal (record : VolumeRecord) : VolumePool β × Except Fault VolumeRecord :=
  if record.backend.external then p.upsertVolume record luck.flush
  else
    let file := Spot.file (p.localPath record.id record.format)
    let record := { record with path := .disk record.id record.format }
    match p.images file with
    | some _ => p.upsertVolume record luck.flush
    | none =>
      let format := if record.format == .qcow2 && p.qemu then .qcow2 else .raw
      match p.write file (blank format record.sizeBytes) luck.command with
      | (p, .error fault) => (p, .error fault)
      | (p, .ok ()) => p.upsertVolume record luck.flush

end VolumePool

end Pertisk.Disks
