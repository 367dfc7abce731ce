import Pertisk.Volume.Writeback

namespace Pertisk.Volume
open Lib

/-- What a disk's image, a zvol or a Ceph image holds: its contents now, and the snapshots inside
it, the oldest first. -/
structure Image (β : Type) where
  active : β
  saved : List (String × β)

/-- The name of a file below the storage root. -/
abbrev FileName := List (List Char)

/-- `Path::join`, as the file system takes the result. -/
def joinPath (dir : FileName) (name : String) : FileName :=
  (name.toList.splitOn '/').foldl (fun path part =>
    if part = [] ∨ part = ['.'] then path
    else if part = ['.', '.'] then path.dropLast
    else path ++ [part]) (if name.toList.head? = some '/' then [] else dir)

/-- Where a snapshot is kept: inside the image under a tag, or in a file of its own. -/
inductive Slot
  | inside (tag : String)
  | file (name : FileName)
  deriving DecidableEq

def slot (r : VolumeRecord) (snap : VolumeSnapshot) : Slot :=
  match r.backend, snap.path with
  | .rbd, _ => .inside snap.name
  | .zfs, _ => .inside (String.ofList (sanitize snap.name.toList))
  | .replica, none => .inside snap.name
  | .replica, some _ =>
    .file (joinPath ["snapshots".toList, (uuidText r.id).toList] snap.name)

/-- `rollback -r` destroys what is newer than its target. -/
def upTo {β : Type} (tag : String) : List (String × β) → List (String × β)
  | [] => []
  | entry :: saved => if entry.1 = tag then [entry] else entry :: upTo tag saved

/-- A volume on the nodes of a cluster. Ceph's image is at no node. -/
structure Vault (β : Type) where
  record : VolumeRecord
  /-- The node that holds the guest's disk. -/
  home : NodeId
  images : Option NodeId → Option (Image β)
  files : NodeId → FileName → Option (Image β)
  backups : List (Image β)
  /-- What each snapshot captured, by its name; no daemon keeps it. -/
  captured : String → Option β

inductive VaultAction (β : Type)
  /-- The guest writes to its disk. -/
  | write (contents : β)
  | snapshot (n : NodeId) (name : String) (notes : Option String) (now : Nat) (live : Bool)
  | delete (n : NodeId) (name : String) (live : Bool)
  | restore (n : NodeId) (name : String)
  | backup (n : NodeId)
  | restoreBackup (n : NodeId) (i : Nat)
  /-- What the image reads as once it has the new size. -/
  | resize (n : NodeId) (sizeBytes : Nat) (contents : β)
  | rename (name : String)
  /-- A live migration mirrors what the guest has now. -/
  | migrate (dest : NodeId) (live : Bool)
  /-- A node's image is copied over a replica's. -/
  | sync (n dest : NodeId)

namespace Vault

variable {β : Type} (t : Tools) (v : Vault β)

def site (n : NodeId) : Option NodeId := if v.record.backend = .rbd then none else some n

def image (n : NodeId) : Except String (Image β) :=
  match v.images (v.site n) with
  | some image => .ok image
  | none => .error "no such image"

def setImage (n : NodeId) (image : Image β) : Vault β :=
  { v with images := Function.update v.images (v.site n) (some image) }

def setFile (n : NodeId) (name : FileName) (image : Option (Image β)) : Vault β :=
  { v with files := Function.update v.files n (Function.update (v.files n) name image) }

/-- Backends refuse a tag that they have; an image takes it once more. -/
def save (n : NodeId) (image : Image β) : Slot → Except String (Vault β)
  | .inside tag =>
    if v.record.backend.external && image.saved.any (fun entry => entry.1 == tag) then
      .error "snapshot already exists"
    else .ok (v.setImage n { image with saved := image.saved ++ [(tag, image.active)] })
  | .file name => .ok (v.setFile n name (some image))

def snapshot (n : NodeId) (edit : Edit) (snap : VolumeSnapshot) (live : Bool) :
    Except String (Vault β) := do
  edit.check v.record
  if live && v.record.backend == .replica && v.record.format == .raw then
    .error "raw disks cannot be snapshotted while a guest is running"
  else
    let image ← v.image n
    let v ← v.save n image (slot v.record snap)
    return { v with
      record := edit.write t v.record
      captured := Function.update v.captured snap.name (some image.active) }

/-- A file that is not there is as good as removed. -/
def discard (n : NodeId) : Slot → Except String (Vault β)
  | .inside tag => do
    let image ← v.image n
    if image.saved.any (fun entry => entry.1 == tag) then
      return v.setImage n { image with saved := image.saved.eraseP (fun entry => entry.1 == tag) }
    else .error "no such snapshot in the image"
  | .file name => .ok (v.setFile n name none)

def find (name : String) : Except String VolumeSnapshot :=
  match v.record.snapshots.find? (fun snap => snap.name == name) with
  | some snap => .ok snap
  | none => .error s!"snapshot not found: {name}"

def delete (n : NodeId) (name : String) (live : Bool) : Except String (Vault β) := do
  Edit.check v.record (.deleteSnapshot name live)
  let snap ← v.find (trimmed name)
  let v ← v.discard n (slot v.record snap)
  return { v with record := Edit.write t v.record (.deleteSnapshot name live) }

/-- The image that a restore puts in the place of the present one. -/
def restored (n : NodeId) : Slot → Except String (Image β)
  | .inside tag => do
    let image ← v.image n
    match image.saved.lookup tag with
    | some contents =>
      return {
        active := contents
        saved := if v.record.backend = .zfs then upTo tag image.saved else image.saved }
    | none => .error "no such snapshot in the image"
  | .file name =>
    match v.files n name with
    | some image => .ok image
    | none => .error "No such file or directory"

def restore (n : NodeId) (name : String) : Except String (Vault β) := do
  let snap ← v.find name
  let image ← v.restored n (slot v.record snap)
  return v.setImage n image

/-- Images of the files only; `qemu-img` leaves the snapshots in them behind. -/
def exported (image : Image β) : Image β := if t.qemuImg then { image with saved := [] } else image

def backup (n : NodeId) : Except String (Vault β) := do
  let image ← v.image n
  if v.record.backend.external then .error "volumes cannot be backed up"
  else return { v with backups := v.backups ++ [exported t image] }

def restoreBackup (n : NodeId) (i : Nat) : Except String (Vault β) :=
  match v.backups[i]? with
  | none => .error "backup not found"
  | some image =>
    if v.record.backend.external then .error "volumes cannot be restored from a local backup"
    else .ok (v.setImage n (exported t image))

def resize (n : NodeId) (sizeBytes : Nat) (contents : β) : Except String (Vault β) := do
  Edit.check v.record (.resize sizeBytes)
  let image ← v.image n
  return { v.setImage n { image with active := contents } with
    record := Edit.write t v.record (.resize sizeBytes) }

def rename (name : String) : Except String (Vault β) := do
  Edit.check v.record (.rename name)
  return { v with record := Edit.write t v.record (.rename name) }

/-- The destination's own file, or a copy of ours where it has none. -/
def landing (dest : NodeId) (image : Image β) (live : Bool) : Image β :=
  let there := (v.images (some dest)).getD image
  if live then { there with active := image.active } else there

def migrate (dest : NodeId) (live : Bool) : Except String (Vault β) := do
  let image ← v.image v.home
  match v.record.backend with
  | .rbd => return { v with home := dest }
  | .zfs => .error s!"cluster peer: volume {v.record.name} is a ZFS zvol on this node and cannot move"
  | .replica => return { v.setImage dest (v.landing dest image live) with home := dest }

def sync (n dest : NodeId) : Except String (Vault β) := do
  let image ← v.image n
  if v.record.backend.external then return v else return v.setImage dest image

def write (contents : β) : Except String (Vault β) := do
  let image ← v.image v.home
  return v.setImage v.home { image with active := contents }

/-- A call that fails leaves everything as it is. -/
def step (v : Vault β) : VaultAction β → Option (Vault β)
  | .write contents => (v.write contents).toOption
  | .snapshot n name notes now live =>
    (v.snapshot t n (.snapshot name notes now live) (Edit.entry t v.record name notes now live)
      live).toOption
  | .delete n name live => (v.delete t n name live).toOption
  | .restore n name => (v.restore n name).toOption
  | .backup n => (v.backup t n).toOption
  | .restoreBackup n i => (v.restoreBackup t n i).toOption
  | .resize n sizeBytes contents => (v.resize t n sizeBytes contents).toOption
  | .rename name => (v.rename t name).toOption
  | .migrate dest live => (v.migrate dest live).toOption
  | .sync n dest => (v.sync n dest).toOption

/-- The contents that a slot gives on the node of the guest's disk. -/
def content (v : Vault β) : Slot → Option β
  | .inside tag => (v.images (v.site v.home)).bind (fun image => image.saved.lookup tag)
  | .file name => (v.files v.home name).map Image.active

def active (v : Vault β) : Option β := (v.images (v.site v.home)).map Image.active

/-- The image gives for the slot what the guest's disk does. -/
def HoldsSlot (v : Vault β) (image : Image β) : Slot → Prop
  | .inside tag => image.saved.lookup tag = v.content (.inside tag)
  | .file _ => True

/-- The image has every listed snapshot that is inside the guest's disk. -/
def Holds (v : Vault β) (image : Image β) : Prop :=
  ∀ snap ∈ v.record.snapshots, v.HoldsSlot image (slot v.record snap)

/-- The node has the file of the slot. -/
def HasFile (v : Vault β) (n : NodeId) : Slot → Prop
  | .inside _ => True
  | .file name => (v.files n name).map Image.active = v.content (.file name)

/-- Nothing that is listed or left behind has the slot. -/
def FreeSlot (v : Vault β) : Slot → Prop
  | .inside tag => v.record.backend = .replica → (v.content (.inside tag)).isNone
  | .file name => .file name ∉ v.record.snapshots.map (slot v.record)

/-- Going back to the slot leaves the listed snapshots where they are: a zvol goes back to the
newest of them, and a file that is copied back has those inside. -/
def Last (v : Vault β) (n : NodeId) : Slot → Prop
  | .inside tag =>
    v.record.backend = .zfs → ∀ image ∈ v.images (v.site n), ∀ other ∈ v.record.snapshots,
      String.ofList (sanitize other.name.toList) ∈ (upTo tag image.saved).map Prod.fst
  | .file name => ∀ image ∈ v.files n name, v.Holds image

/-- Snapshots are taken where the guest's disk is and into free slots, nothing goes back beyond
another listed one, and an image that takes the place of the guest's disk, on its node or on the
one that the guest moves to, has the listed snapshots. -/
def Careful (t : Tools) (v : Vault β) : VaultAction β → Prop
  | .snapshot n name notes now live =>
    (v.record.backend = .rbd ∨ n = v.home) ∧
      v.FreeSlot (slot v.record (Edit.entry t v.record name notes now live))
  | .restore n name =>
    n = v.home → ∀ snap ∈ v.record.snapshots, snap.name = name → v.Last n (slot v.record snap)
  | .restoreBackup n i => n = v.home → ∀ image ∈ v.backups[i]?, v.Holds (exported t image)
  | .migrate dest live =>
    v.record.backend = .replica →
      (∀ image ∈ v.images (v.site v.home), v.Holds (v.landing dest image live)) ∧
        ∀ snap ∈ v.record.snapshots, v.HasFile dest (slot v.record snap)
  | .sync n dest => dest = v.home → ∀ image ∈ v.images (v.site n), v.Holds image
  | _ => True

end Vault

end Pertisk.Volume
