import Mathlib.Data.String.Basic
import Pertisk.Node

namespace Pertisk.Storage
open Lib

/-- What the daemon can tell of a file's bytes, and the images it makes itself. -/
class Contents (β : Type) where
  len : β → Nat
  /-- Bytes that occupy disk, holes left out. -/
  allocated : β → Nat
  createRaw : Nat → β
  createQcow2 : Nat → β

export Contents (len allocated createRaw createQcow2)

inductive StorageError
  | notFound (id : VolumeId)
  | isoNotFound (name : String)
  | isoExists (name : String)
  | invalidIsoName (name : String)
  | message (text : String)
  deriving DecidableEq, Repr

def StorageError.text : StorageError → String
  | notFound id => s!"volume not found: {uuidText id}"
  | isoNotFound name => s!"iso not found: {name}"
  | isoExists name => s!"iso already exists: {name}"
  | invalidIsoName name => s!"invalid iso name: {name}"
  | message text => text

inductive DaemonError
  | capacity (text : String)
  | peer (text : String)
  | storage (err : StorageError)
  deriving DecidableEq, Repr

def DaemonError.text : DaemonError → String
  | capacity text => s!"insufficient host capacity: {text}"
  | peer text => s!"cluster peer: {text}"
  | storage err => err.text

/-- A request to a peer about a disk or an ISO. -/
inductive Request
  | ensure (id : VolumeId)
  | ready (id : VolumeId)
  | stat (id : VolumeId)
  | free (id : VolumeId)
  | put (id : VolumeId)
  | pull (id : VolumeId)
  | isoStat (name : String)
  | isoPut (name : String)
  deriving DecidableEq, Repr

/-- What a call meets outside the daemon: requests that do not get through (with the client's
error text), free space at each node when a request is handled, installed tools, and the text
of an error response. -/
structure Env where
  fault : NodeId → Request → Option String
  freeMib : NodeId → Request → Option Nat
  qemuImg : NodeId → Bool
  httpText : DaemonError → String

/-- An ISO of the library with its file, which can go missing. -/
structure StoredIso (β : Type) [Contents β] where
  record : IsoRecord
  contents : Option β
  path : record.path = .iso record.name
  size : ∀ b, contents = some b → record.sizeBytes = len b

def StoredIso.name {β : Type} [Contents β] (x : StoredIso β) : String := x.record.name

/-- A node with its disk files and library ISOs. -/
structure Host (β : Type) [Contents β] where
  node : Node
  files : PathBuf → Option β
  isos : Table (StoredIso β) StoredIso.name

structure VolumeStat where
  «exists» : Bool
  size : Nat
  allocated : Nat
  freeBytes : Option Nat
  deriving DecidableEq, Repr

def mib : Nat := 1024 * 1024

def saturatingMul (a b : Nat) : Nat := min (a * b) u64Max

/-- Round up. -/
def divCeil (a b : Nat) : Nat := (a + b - 1) / b

variable {β : Type} [Contents β]

namespace Host

def writeFile (h : Host β) (path : PathBuf) (bytes : β) : Host β :=
  { h with files := Function.update h.files path (some bytes) }

def putRecord (h : Host β) (record : VolumeRecord) : Host β :=
  { h with node := h.node.putRecord record }

def bump (h : Host β) : Host β := { h with node := h.node.bump }

def getVolume (h : Host β) (id : VolumeId) : Option VolumeRecord := h.node.getVolume id

def hasLocal (h : Host β) (id : VolumeId) (format : VolumeFormat) : Bool :=
  (h.files (.disk id format)).isSome

/-- The file of a volume as this node's own record names it. -/
def volumeFile (h : Host β) (id : VolumeId) : Option β :=
  (h.getVolume id).bind (fun record => h.files record.path)

/-- The image that `ensure_local` makes for a volume without a file. -/
def blank (env : Env) (self : NodeId) (record : VolumeRecord) : β :=
  match record.format with
  | .raw => createRaw record.sizeBytes
  | .qcow2 =>
    if env.qemuImg self then createQcow2 record.sizeBytes else createRaw record.sizeBytes

def ensureLocal (env : Env) (self : NodeId) (h : Host β) (record : VolumeRecord) :
    Host β × VolumeRecord :=
  if record.backend.external then (h.putRecord record, record)
  else
    let path := PathBuf.disk record.id record.format
    let h := match h.files path with
      | some _ => h
      | none => h.writeFile path (blank env self record)
    (h.putRecord record, { record with path := path })

def localStat (h : Host β) (id : VolumeId) : Except StorageError (Bool × Nat) :=
  match h.getVolume id with
  | none => .error (.notFound id)
  | some record =>
    match h.files record.path with
    | none => .ok (false, 0)
    | some bytes => .ok (true, len bytes)

def volumeStat (env : Env) (self : NodeId) (request : Request) (h : Host β) (id : VolumeId) :
    VolumeStat :=
  let (found, size) := match h.localStat id with
    | .ok stat => stat
    | .error _ => (false, 0)
  { «exists» := found
    size := size
    allocated := match h.volumeFile id with
      | some bytes => allocated bytes
      | none => 0
    freeBytes := (env.freeMib self request).map (fun free => saturatingMul free mib) }

/-- A gibibyte of headroom stays free; a node that cannot tell its free space does not refuse. -/
def requireStorageBytes (env : Env) (self : NodeId) (request : Request) (need : Nat)
    (what : String) : Except DaemonError Unit :=
  match env.freeMib self request with
  | none => .ok ()
  | some avail =>
    let needMib := saturatingAdd (divCeil need mib) 1024
    if avail < needMib then
      .error (.capacity (s!"{what} needs {needMib} MiB free (including 1024 MiB headroom); " ++
        s!"this node has {avail} MiB"))
    else .ok ()

def backendText : StorageBackend → String
  | .replica => "replica"
  | .rbd => "rbd"
  | .zfs => "zfs"

def writeBlobFromPath (h : Host β) (id : VolumeId) (src : β) :
    Except StorageError (Host β × VolumeRecord) :=
  match h.getVolume id with
  | none => .error (.notFound id)
  | some record =>
    if record.backend.external then
      .error (.message s!"cannot write a blob to a {backendText record.backend} volume")
    else
      let path := PathBuf.disk record.id record.format
      let record := { record with path := path, sizeBytes := max record.sizeBytes (len src) }
      .ok ((h.writeFile path src).putRecord record, record)

/-- `PUT /v1/peer/volumes/{id}/blob`, once the body has arrived. -/
def peerVolumeBlobPut (env : Env) (self : NodeId) (h : Host β) (id : VolumeId)
    (allocatedHeader : Option Nat) (body : β) : Except DaemonError (Host β × VolumeRecord) :=
  match h.getVolume id with
  | none => .error (.storage (.notFound id))
  | some _ =>
    match requireStorageBytes env self (.put id) (allocatedHeader.getD 0) "volume replica" with
    | .error err => .error err
    | .ok () =>
      match h.writeBlobFromPath id body with
      | .error err => .error (.storage err)
      | .ok done => .ok done

def getIso (h : Host β) (name : String) : Except StorageError (StoredIso β) :=
  match h.isos.get name with
  | some iso => .ok iso
  | none => .error (.isoNotFound name)

/-- The bytes of a library ISO, when the node has it. -/
def isoFile (h : Host β) (name : String) : Option β := (h.isos.get name).bind (·.contents)

def isoStat (h : Host β) (name : String) : Bool × Nat :=
  match h.isos.get name with
  | some iso => if iso.contents.isSome then (true, iso.record.sizeBytes) else (false, 0)
  | none => (false, 0)

/-- Last component of a path; none when it is `..`. -/
def fileName (name : String) : Option String :=
  match ((name.toList.splitOn '/').filter (fun c => c ≠ [] && c ≠ ['.'])).getLast? with
  | none => none
  | some c => if c = ['.', '.'] then none else some (String.ofList c)

def isoName (explicit : String) : Except StorageError String :=
  let name := (fileName explicit).getD ""
  if name.isEmpty || PeerUrl.startsWith name.toList "." || '/' ∈ name.toList ||
      '\\' ∈ name.toList then .error (.invalidIsoName name)
  else .ok name

def importIso (h : Host β) (src : β) (name : String) : Except StorageError (Host β) :=
  match isoName name with
  | .error err => .error err
  | .ok name =>
    match h.isos.get name with
    | some _ => .error (.isoExists name)
    | none =>
      let iso : StoredIso β :=
        { record := { name := name, path := .iso name, sizeBytes := len src }
          contents := some src
          path := rfl
          size := fun b hb => by cases hb; rfl }
      .ok { h with isos := h.isos.insert iso }

def deleteIso (h : Host β) (name : String) : Host β := { h with isos := h.isos.erase name }

/-- An ISO of that name and size is taken for the same one. -/
def acceptIsoFile (h : Host β) (name : String) (src : β) : Host β × Except StorageError Unit :=
  let replace (h : Host β) : Host β × Except StorageError Unit :=
    match h.importIso src name with
    | .error err => (h, .error err)
    | .ok h => (h, .ok ())
  match h.isos.get name with
  | some existing =>
    if existing.record.sizeBytes = len src then (h, .ok ()) else replace (h.deleteIso name)
  | none => replace h

/-- `PUT /v1/peer/isos/{name}`, once the body has arrived. -/
def peerIsoPut (h : Host β) (name : String) (body : β) : Host β × Except DaemonError Unit :=
  if '/' ∈ name.toList || PeerUrl.contains name.toList ".." || name.isEmpty then
    (h, .error (.storage (.message "invalid iso name")))
  else
    match h.acceptIsoFile name body with
    | (h, .error err) => (h, .error (.storage err))
    | (h, .ok ()) => (h, .ok ())

end Host

end Pertisk.Storage
