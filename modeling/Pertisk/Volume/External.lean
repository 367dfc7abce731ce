import Pertisk.Lib.Run
import Pertisk.Storage.Host
import Pertisk.Volume.Users
import Pertisk.Volume.Zfs

namespace Pertisk.Volume
open Lib Storage

/-- A dataset or an image outside the files of a node. -/
inductive Place
  | zvol (dataset : String)
  | image (spec : String)
  deriving DecidableEq

/-- What stands at a place. `madeFor` is the volume that it was made for; no daemon reads it. -/
structure Extent (β : Type) where
  madeFor : VolumeId
  bytes : β

structure CreateVolumeRequest where
  name : String
  sizeBytes : Nat
  format : VolumeFormat := .raw
  backend : Option StorageBackend := none
  notes : Option String := none

/-- A daemon with its ZFS pool and the Ceph pool. -/
structure World (β : Type) [Contents β] where
  now : Nat
  node : Node
  zfs : Zfs
  rbd : Rbd
  backend : StorageBackend
  /-- Backends whose CLI is installed. -/
  cli : StorageBackend → Bool
  extents : Place → Option (Extent β)
  /-- Ids that volumes have had; a new one is never among them. -/
  made : List VolumeId

/-- How an import fares: what the pool has against the image, the image made raw, the errors of the
commands that make its place and fill it, and whether a place that was not filled is gone. -/
structure Import (β : Type) where
  refused : Option String := none
  raw : Except String β
  fault : Option String := none
  ddFault : Option String := none
  destroyed : Bool := true

/-- Operations on volumes, with the error text of each command that fails. -/
inductive Action (β : Type)
  | create (id : VolumeId) (req : CreateVolumeRequest) (fault : Option String)
  | import (id : VolumeId) (name : String) (format : VolumeFormat) (sizeBytes : Nat)
      (backend : Option StorageBackend) (run : Import β)
  | rename (id : VolumeId) (name : String) (fault : Option String)
  | clone (id newId : VolumeId) (name : String) (linked : Bool) (now : Nat)
      (snapFault fault : Option String)
  | delete (id : VolumeId) (destroyed : Bool)

/-- The place that a guest of the volume opens. -/
def place (record : VolumeRecord) : Option Place :=
  match record.backend with
  | .replica => none
  | .zfs => (datasetFromPath record.path).map .zvol
  | .rbd => (specFromPath record.path).map .image

namespace World

variable {β : Type} [Contents β] (w : World β)

def setExtent (p : Place) (extent : Option (Extent β)) : World β :=
  { w with extents := Function.update w.extents p extent }

def putRecord (record : VolumeRecord) : World β := { w with node := w.node.putRecord record }

def removeVolume (id : VolumeId) : World β := { w with node := w.node.removeVolume id }

def bump : World β := { w with node := w.node.bump }

/-- The name of the place that a backend gives a volume. -/
def placeOf (backend : StorageBackend) (name : String) : Place :=
  match backend with
  | .zfs => .zvol (w.zfs.datasetName name)
  | _ => .image (w.rbd.spec name)

def imagePath (backend : StorageBackend) (name : String) : PathBuf :=
  match backend with
  | .zfs => w.zfs.imagePath name
  | _ => w.rbd.imagePath name

/-- The place that commands about a volume name. -/
def target (record : VolumeRecord) : Option Place :=
  match record.backend with
  | .replica => none
  | .zfs => (datasetFromPath record.path).map .zvol
  | .rbd => some (.image (w.rbd.spec record.name))

/-- A command that makes a new place, and refuses one that is there. -/
def makeNew (p : Place) (id : VolumeId) (bytes : β) (fault : Option String) :
    Except String (World β) :=
  match fault, w.extents p with
  | some text, _ => .error text
  | none, some _ => .error "destination already exists"
  | none, none => .ok (w.setExtent p (some ⟨id, bytes⟩))

/-- `zfs create -p` succeeds on a dataset that is there. -/
def createZvol (name : String) (id : VolumeId) (sizeBytes : Nat) (fault : Option String) :
    Except String (World β) :=
  let p := Place.zvol (w.zfs.datasetName name)
  match fault, w.extents p with
  | some text, _ => .error text
  | none, some _ => .ok w
  | none, none => .ok (w.setExtent p (some ⟨id, createRaw sizeBytes⟩))

/-- `zfs receive -F` overwrites a dataset that is there. -/
def copyDataset (dest : String) (id : VolumeId) (bytes : β) (fault : Option String) :
    Except String (World β) :=
  match fault with
  | some text => .error text
  | none => .ok (w.setExtent (.zvol (w.zfs.datasetName dest)) (some ⟨id, bytes⟩))

def renamePlace (source dest : Place) (fault : Option String) : Except String (World β) :=
  match fault, w.extents source, w.extents dest with
  | some text, _, _ => .error text
  | none, none, _ => .error "dataset does not exist"
  | none, some _, some _ => .error "destination already exists"
  | none, some extent, none => .ok ((w.setExtent source none).setExtent dest (some extent))

/-- The image is written onto the zvol; one that cannot be written is destroyed. -/
def importRaw (name : String) (id : VolumeId) (raw : β) (sizeBytes : Nat) (run : Import β) :
    World β × Except String Unit :=
  let p := Place.zvol (w.zfs.datasetName name)
  match w.createZvol name id (max sizeBytes (len raw)) run.fault with
  | .error text => (w, .error text)
  | .ok w =>
    match run.ddFault with
    | none => (w.setExtent p ((w.extents p).map (fun e => { e with bytes := raw })), .ok ())
    | some text => (if run.destroyed then w.setExtent p none else w, .error text)

/-- `rbd import` makes the image and fills it in one. -/
def importPlace (backend : StorageBackend) (name : String) (id : VolumeId) (raw : β)
    (sizeBytes : Nat) (run : Import β) : World β × Except String Unit :=
  match backend with
  | .zfs => w.importRaw name id raw sizeBytes run
  | _ =>
    match w.makeNew (w.placeOf backend name) id raw run.fault with
    | .error text => (w, .error text)
    | .ok w => (w, .ok ())

def cliMissing : StorageBackend → String → String
  | .zfs, op => s!"cluster peer: ZFS {op} requested but the zfs CLI was not found"
  | _, op => s!"cluster peer: Ceph RBD {op} requested but the rbd CLI was not found"

/-- The record of a volume outside the files, new or moved there. -/
def externalRecord (backend : StorageBackend) (id : VolumeId) (name : String)
    (format : VolumeFormat) (sizeBytes : Nat) : VolumeRecord where
  id := id
  name := name
  format := format
  sizeBytes := sizeBytes
  path := w.imagePath backend name
  replicas := if backend = .zfs then [w.node.cluster.selfId] else []
  backend := backend

def createVolume (id : VolumeId) (req : CreateVolumeRequest) (backend : StorageBackend)
    (fault : Option String) : World β × Except String VolumeRecord :=
  match w.node.cluster.quorumError w.now with
  | some text => (w, .error text)
  | none =>
    if !w.cli backend then (w, .error (cliMissing backend "volume"))
    else
      let made := match backend with
        | .zfs => w.createZvol req.name id req.sizeBytes fault
        | _ => w.makeNew (w.placeOf backend req.name) id (createRaw req.sizeBytes) fault
      match made with
      | .error text => (w, .error text)
      | .ok w =>
        let format := if backend = .zfs then .raw else req.format
        let record := w.externalRecord backend id req.name format req.sizeBytes
        let w := w.putRecord record
        match req.notes with
        | none => (w.bump, .ok record)
        | some notes =>
          match cleanVolumeNotes (some notes) with
          | .error text => (w, .error text)
          | .ok notes =>
            let record := { record with notes := notes }
            ((w.putRecord record).bump, .ok record)

/-- The volume is first one of the local files. -/
def importVolume (id : VolumeId) (name : String) (format : VolumeFormat) (sizeBytes : Nat)
    (backend : StorageBackend) (run : Import β) : World β × Except String VolumeRecord :=
  match w.node.cluster.quorumError w.now with
  | some text => (w, .error text)
  | none =>
    if !w.cli backend then (w, .error (cliMissing backend "volume"))
    else if (PeerUrl.trim name.toList).isEmpty then (w, .error "volume name is required")
    else if w.node.listVolumes.any (fun vol => vol.name == name) then
      (w, .error s!"volume name already exists: {name}")
    else
      match run.refused with
      | some text => (w, .error text)
      | none =>
        let w := w.putRecord
          { id := id, name := name, format := format, sizeBytes := sizeBytes
            path := .disk id format }
        match run.raw with
        | .error text => (w, .error text)
        | .ok raw =>
          match w.importPlace backend name id raw sizeBytes run with
          | (w, .error text) => (w.removeVolume id, .error text)
          | (w, .ok ()) =>
            let record := w.externalRecord backend id name .raw sizeBytes
            ((w.putRecord record).bump, .ok record)

def repath (record : VolumeRecord) : World β := { w with node := w.node.repath record }

def renameVolume (id : VolumeId) (name : String) (fault : Option String) :
    World β × Except String VolumeRecord :=
  match w.node.cluster.quorumError w.now with
  | some text => (w, .error text)
  | none =>
    let name := String.ofList (PeerUrl.trim name.toList)
    if name.isEmpty then (w, .error "volume name is required")
    else
      match w.node.getVolume id with
      | none => (w, .error (StorageError.notFound id).text)
      | some current =>
        if current.name = name then (w, .ok current)
        else if current.backend.external then
          match w.node.requireVolumeIdle id with
          | .error text => (w, .error text)
          | .ok () =>
            if !w.cli current.backend then (w, .error (cliMissing current.backend "rename"))
            else
              match w.target current with
              | none => (w, .error "not a zfs volume path")
              | some source =>
                match w.renamePlace source (w.placeOf current.backend name) fault with
                | .error text => (w, .error text)
                | .ok w =>
                  let record :=
                    { current with name := name, path := w.imagePath current.backend name }
                  (((w.putRecord record).repath record).bump, .ok record)
        else if w.node.listVolumes.any (fun vol => vol.id != id && vol.name == name) then
          (w, .error s!"volume name already exists: {name}")
        else
          let record := { current with name := name }
          ((w.putRecord record).bump, .ok record)

/-- The snapshot that a linked clone hangs on, which the source's record lists from then on. -/
def snapshotForClone (source : VolumeRecord) (name : String) (now : Nat)
    (snapFault : Option String) : Except String (World β) :=
  if source.snapshots.any (fun snap => snap.name == name) then
    .error s!"snapshot already exists: {name}"
  else
    match snapFault with
    | some text => .error text
    | none =>
      let snap : VolumeSnapshot := { name := name, createdUnix := now }
      .ok (w.putRecord { source with snapshots := source.snapshots ++ [snap] })

def cloneVolume (id newId : VolumeId) (name : String) (linked : Bool) (now : Nat)
    (snapFault fault : Option String) : World β × Except String VolumeRecord :=
  match w.node.requireVolumeIdle id with
  | .error text => (w, .error text)
  | .ok () =>
    match w.node.getVolume id with
    | none => (w, .error (StorageError.notFound id).text)
    | some source =>
      if !w.cli source.backend then (w, .error (cliMissing source.backend "clone"))
      else
        match (w.target source).bind w.extents with
        | none => (w, .error "dataset does not exist")
        | some extent =>
          let snapped := if linked then
              w.snapshotForClone source (rbdCloneSnap name) now snapFault
            else .ok w
          match snapped with
          | .error text => (w, .error text)
          | .ok w =>
            let made := match source.backend, linked with
              | .zfs, false => w.copyDataset name newId extent.bytes fault
              | backend, _ => w.makeNew (w.placeOf backend name) newId extent.bytes fault
            match made with
            | .error text => (w, .error text)
            | .ok w =>
              let record := w.externalRecord source.backend newId name .raw source.sizeBytes
              ((w.putRecord record).bump, .ok record)

/-- What the backend does about a removal is not asked. -/
def deleteVolume (id : VolumeId) (destroyed : Bool) : World β × Except String Unit :=
  if !(w.node.volumeUsers id).isEmpty then
    (w, .error s!"volume {uuidText id} is attached to a vm")
  else
    match w.node.getVolume id with
    | none => (w, .error (StorageError.notFound id).text)
    | some record =>
      let w := match w.target record with
        | some p => if w.cli record.backend && destroyed then w.setExtent p none else w
        | none => w
      ((w.removeVolume id).bump, .ok ())

/-- An id that no volume has had. -/
def fresh (id : VolumeId) : Bool := (w.node.getVolume id).isNone && !w.made.contains id

/-- Volumes of the files are no business of this system, but for their names. -/
def step (w : World β) : Action β → Option (World β)
  | .create id req fault =>
    let backend := req.backend.getD w.backend
    if w.fresh id && backend.external then
      some (createVolume { w with made := id :: w.made } id req backend fault).1
    else none
  | .import id name format sizeBytes backend run =>
    let backend := backend.getD w.backend
    if w.fresh id && backend.external then
      some (importVolume { w with made := id :: w.made } id name format sizeBytes backend run).1
    else none
  | .rename id name fault => some (w.renameVolume id name fault).1
  | .clone id newId name linked now snapFault fault =>
    if w.fresh newId && (w.node.getVolume id).all (fun vol => vol.backend.external) then
      some (cloneVolume { w with made := newId :: w.made } id newId name linked now snapFault
        fault).1
    else none
  | .delete id destroyed => some (w.deleteVolume id destroyed).1

end World

end Pertisk.Volume
