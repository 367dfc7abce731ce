import Pertisk.Disks.Operations
import Pertisk.Service.Snapshots

namespace Pertisk.Disks
open Lib Storage Volume

/-- A daemon around its volumes: its members and guests, what it is configured with, the backends
whose CLI is installed and the free space that it sees. -/
structure Site where
  now : Nat
  node : Node
  backend : StorageBackend
  replicaCount : Nat
  driver : DriverKind
  cli : StorageBackend → Bool
  freeMib : Option Nat

namespace Site

variable (a : Site)

def requireStorageBytes (need : Nat) (what : String) : Except String Unit :=
  match a.freeMib with
  | none => .ok ()
  | some avail =>
    let needMib := saturatingAdd (divCeil need mib) 1024
    if avail < needMib then
      .error (s!"{what} needs {needMib} MiB free (including 1024 MiB headroom); " ++
        s!"this node has {avail} MiB")
    else .ok ()

end Site

def dropRepeated (pattern : List Char) : Nat → List Char → List Char
  | 0, s => s
  | n + 1, s => if pattern <+: s then dropRepeated pattern n (s.drop pattern.length) else s

/-- `trim_end_matches`. -/
def trimEndMatches (s pattern : List Char) : List Char :=
  (dropRepeated pattern.reverse s.length s.reverse).reverse

/-- The name that a cloud-init ISO gets from the one asked for. -/
def cidataName (name : String) : String :=
  let name := (trimmed name).toList
  let name := if name.isEmpty then "cidata.iso".toList else name
  let name := if ".iso".toList <:+ name.map Char.toLower then name else name ++ ".iso".toList
  if "cidata".toList <:+: name.map Char.toLower then String.ofList name
  else
    let stem := trimEndMatches (trimEndMatches name ".iso".toList) ".ISO".toList
    String.ofList (stem ++ "-cidata.iso".toList)

structure CloudInitIsoRequest where
  name : String
  notes : Option String := none

namespace VolumePool

variable {α β : Type} [Contents β] (a : Site) (p : VolumePool β) (luck next : Luck β)

/-- `bump`, once all is done. -/
def finish (r : VolumePool β × Except Fault α) (bump : Option String) :
    VolumePool β × Except Fault α :=
  match r with
  | (p, .error fault) => (p, .error fault)
  | (p, .ok done) =>
    match bump with
    | none => (p, .ok done)
    | some text => (p, .error (.failed text))

def putRecord (record : VolumeRecord) (flush : Option String) :
    VolumePool β × Except Fault VolumeRecord :=
  p.upsertVolume record.localize flush

def setVolumeNotes (id : VolumeId) (notes : Option String) (flush : Option String) :
    VolumePool β × Except Fault VolumeRecord :=
  match cleanVolumeNotes notes with
  | .error text => (p, .error (.refused text))
  | .ok notes =>
    match p.getVolume id with
    | .error fault => (p, .error fault)
    | .ok record => p.upsertVolume { record with notes := notes } flush

def outsidePlace (backend : StorageBackend) (name : String) : Place :=
  match backend with
  | .zfs => .zvol (p.zfs.datasetName name)
  | _ => .image (p.rbd.spec name)

def outsideRecord (backend : StorageBackend) (id : VolumeId) (name : String)
    (format : VolumeFormat) (sizeBytes : Nat) : VolumeRecord where
  id := id
  name := name
  format := if backend = .zfs then .raw else format
  sizeBytes := sizeBytes
  path := match backend with
    | .zfs => p.zfs.imagePath name
    | _ => p.rbd.imagePath name
  replicas := if backend = .zfs then [a.node.cluster.selfId] else []
  backend := backend

/-- `zfs create -p` succeeds on a dataset that is there, `rbd create` does not. -/
def makeOutside (backend : StorageBackend) (name : String) (sizeBytes : Nat)
    (command : Option (String × Option (Image β))) : VolumePool β × Except Fault Unit :=
  let s := Spot.outside (p.outsidePlace backend name)
  match p.images s, backend, command with
  | none, _, _ => p.write s (plain (createRaw sizeBytes)) command
  | some _, .zfs, none => (p, .ok ())
  | some _, .zfs, some (text, _) => (p, .error (.failed text))
  | some _, _, _ => (p, .error (.failed "File exists"))

/-- The image is made and the record put before the note is looked at. -/
def createOutside (backend : StorageBackend) (id : VolumeId) (req : CreateVolumeRequest) :
    VolumePool β × Except Fault VolumeRecord :=
  if !a.cli backend then (p, .error (.refused (World.cliMissing backend "volume")))
  else
    match p.makeOutside backend req.name req.sizeBytes luck.command with
    | (p, .error fault) => (p, .error fault)
    | (p, .ok ()) =>
      match p.putRecord (p.outsideRecord a backend id req.name req.format req.sizeBytes)
        luck.flush with
      | (p, .error fault) => (p, .error fault)
      | (p, .ok record) =>
        match req.notes with
        | none => (p, .ok record)
        | some notes => p.setVolumeNotes record.id (some notes) next.flush

/-- `create_volume` of the service. -/
def requestCreate (id : VolumeId) (req : CreateVolumeRequest) (configured : Option Nat) :
    VolumePool β × Except Fault VolumeRecord :=
  match a.node.cluster.quorumError a.now with
  | some text => (p, .error (.refused text))
  | none =>
    let backend := req.backend.getD a.backend
    if backend.external then finish (p.createOutside a luck next backend id req) next.bump
    else
      match a.requireStorageBytes 0 "create volume" with
      | .error text => (p, .error (.refused text))
      | .ok () =>
        match p.createVolume luck id req with
        | (p, .error fault) => (p, .error fault)
        | (p, .ok record) =>
          finish (p.putRecord (Service.placed a.node a.now (configured.getD a.replicaCount) record)
            next.flush) next.bump

/-- `zfs receive -F` overwrites a dataset that is there; the other commands refuse one. -/
def copyOutside (backend : StorageBackend) (linked : Bool) (name : String) (image : Image β)
    (command : Option (String × Option (Image β))) : VolumePool β × Except Fault Unit :=
  let s := Spot.outside (p.outsidePlace backend name)
  if (p.images s).isSome && !(backend == .zfs && !linked) then
    (p, .error (.failed "File exists"))
  else p.write s (plain image.active) command

def cloneOutside (source : VolumeRecord) (newId : VolumeId) (req : CloneVolumeRequest) :
    VolumePool β × Except Fault VolumeRecord :=
  if !a.cli source.backend then (p, .error (.refused (World.cliMissing source.backend "clone")))
  else
    match p.spot source with
    | .error text => (p, .error (.refused text))
    | .ok s =>
      let snapped := if req.linked then
          p.snapshot luck a.now source.id (rbdCloneSnap req.name) none
        else (p, .ok source)
      match snapped with
      | (p, .error fault) => (p, .error fault)
      | (p, .ok _) =>
        match p.image s with
        | .error fault => (p, .error fault)
        | .ok image =>
          match p.copyOutside source.backend req.linked req.name image next.command with
          | (p, .error fault) => (p, .error fault)
          | (p, .ok ()) =>
            p.putRecord (p.outsideRecord a source.backend newId req.name .raw source.sizeBytes)
              next.flush

/-- `clone_volume` of the service. -/
def requestClone (converts : Bool) (id newId : VolumeId) (req : CloneVolumeRequest) :
    VolumePool β × Except Fault VolumeRecord :=
  match a.node.requireVolumeIdle id with
  | .error text => (p, .error (.refused text))
  | .ok () =>
    match p.getVolume id with
    | .error fault => (p, .error fault)
    | .ok source =>
      if source.backend.external then
        finish (p.cloneOutside a luck next source newId req) next.bump
      else
        let occupied := match p.images (.file (p.localPath source.id source.format)) with
          | some image => allocated image.active
          | none => 0
        match a.requireStorageBytes occupied "clone volume" with
        | .error text => (p, .error (.refused text))
        | .ok () =>
          match p.cloneVolume luck converts id newId req with
          | (p, .error fault) => (p, .error fault)
          | (p, .ok record) =>
            finish (p.putRecord (Service.placed a.node a.now record.replicaCount record)
              next.flush) next.bump

def resizeOutside (grown : β → Nat → β) (current : VolumeRecord) (sizeBytes : Nat) :
    VolumePool β × Except Fault VolumeRecord :=
  if sizeBytes < current.sizeBytes then
    (p, .error (.refused
      s!"cannot shrink volume from {current.sizeBytes} to {sizeBytes} bytes"))
  else if sizeBytes = current.sizeBytes then p.putRecord current luck.flush
  else if !a.cli current.backend then
    (p, .error (.refused (World.cliMissing current.backend "resize")))
  else
    match p.spot current with
    | .error text => (p, .error (.refused text))
    | .ok s =>
      match p.image s with
      | .error fault => (p, .error fault)
      | .ok image =>
        match p.write s { image with active := grown image.active sizeBytes } luck.command with
        | (p, .error fault) => (p, .error fault)
        | (p, .ok ()) => p.putRecord { current with sizeBytes := sizeBytes } luck.flush

/-- `resize_volume` of the service. -/
def requestResize (grown : β → Nat → β) (id : VolumeId) (sizeBytes : Nat) :
    VolumePool β × Except Fault VolumeRecord :=
  match a.node.requireVolumeIdle id with
  | .error text => (p, .error (.refused text))
  | .ok () =>
    match p.getVolume id with
    | .error fault => (p, .error fault)
    | .ok current =>
      if current.backend.external then
        finish (p.resizeOutside a luck grown current sizeBytes) luck.bump
      else finish (p.resize luck grown id sizeBytes) luck.bump

/-- QEMU takes the snapshot inside the image that it has open, under a tag that is not there. -/
def snapshotInternal (vol : VolumeRecord) (name : String)
    (command : Option (String × Option (Image β))) : VolumePool β × Except Fault Unit :=
  let s := Spot.file (p.localPath vol.id vol.format)
  match p.image s with
  | .error fault => (p, .error fault)
  | .ok image =>
    if image.saved.any (fun entry => entry.1 == name) then
      (p, .error (.failed "Snapshot with this name already exists"))
    else p.write s { image with saved := image.saved ++ [(name, image.active)] } command

/-- The guest of the volume runs here. -/
def snapshotLive (vm : VmRecord) (id : VolumeId) (name : String) (notes : Option String) :
    VolumePool β × Except Fault VolumeRecord :=
  match p.getVolume id with
  | .error fault => (p, .error fault)
  | .ok vol =>
    if (trimmed name).isEmpty then (p, .error (.refused "snapshot name is required"))
    else if vol.hasSnapshot (trimmed name) then
      (p, .error (.refused s!"snapshot already exists: {trimmed name}"))
    else
      match Service.runningSnapshotPlan vol.backend vol.format a.driver
        (Service.hasDevice vm id) with
      | .storage => finish (p.snapshot luck a.now id (trimmed name) notes) luck.bump
      | .refuse text => (p, .error (.refused text))
      | .qemu =>
        match p.snapshotInternal vol (trimmed name) luck.command with
        | (p, .error fault) => (p, .error fault)
        | (p, .ok ()) => finish (p.noteSnapshot luck a.now id (trimmed name) notes) luck.bump

/-- `snapshot_volume_forward`. A request that came from a peer is not passed on to another. -/
def requestSnapshot (id : VolumeId) (name : String) (notes : Option String)
    (forwarded : Option (Except String VolumeRecord)) : VolumePool β × Except Fault VolumeRecord :=
  match a.node.runningVolumeUsers id with
  | [] => finish (p.snapshot luck a.now id name notes) luck.bump
  | [vmId] =>
    match a.node.store.get vmId with
    | none => (p, .error (.refused s!"vm not found: {vmId.text}"))
    | some vm =>
      if vm.nodeId.getD a.node.cluster.selfId = a.node.cluster.selfId then
        p.snapshotLive a luck vm id name notes
      else
        match forwarded with
        | none => (p, .error (.refused "guest is not running on this node"))
        | some answer => (p, answer.mapError .refused)
  | _ => (p, .error (.refused "volume is attached to more than one running guest"))

/-- An ISO of the name is overwritten, and the note is looked at once the file is there. -/
def createCloudinitIso (req : CloudInitIsoRequest) (bytes : β) :
    VolumePool β × Except Fault IsoRecord :=
  match Host.isoName (cidataName req.name) with
  | .error err => (p, .error (.refused err.text))
  | .ok name =>
    match p.write (.file (p.isoPath name)) (plain bytes) luck.command with
    | (p, .error fault) => (p, .error fault)
    | (p, .ok ()) =>
      match cleanVolumeNotes req.notes with
      | .error text => (p, .error (.refused text))
      | .ok notes =>
        p.insertIso { name := name, path := .iso name, sizeBytes := len bytes, notes := notes }
          luck.flush

end VolumePool

/-- The requests that a node's volumes are asked for, each with how its commands and its files
fare. -/
inductive Request (β : Type)
  | create (id : VolumeId) (req : CreateVolumeRequest) (configured : Option Nat)
      (luck next : Luck β)
  | cloudinit (req : CloudInitIsoRequest) (bytes : β) (luck : Luck β)
  | clone (converts : Bool) (id newId : VolumeId) (req : CloneVolumeRequest) (luck next : Luck β)
  | snapshot (id : VolumeId) (name : String) (notes : Option String)
      (forwarded : Option (Except String VolumeRecord)) (luck : Luck β)
  | resize (grown : β → Nat → β) (id : VolumeId) (sizeBytes : Nat) (luck : Luck β)

namespace Request

variable {α β : Type} [Contents β]

/-- What is done, and how it ends. -/
def ended (r : VolumePool β × Except Fault α) : VolumePool β × Except Fault Unit :=
  (r.1, r.2.map (fun _ => ()))

def run (a : Site) (p : VolumePool β) : Request β → VolumePool β × Except Fault Unit
  | .create id req configured luck next => ended (p.requestCreate a luck next id req configured)
  | .cloudinit req bytes luck => ended (p.createCloudinitIso luck req bytes)
  | .clone converts id newId req luck next =>
    ended (p.requestClone a luck next converts id newId req)
  | .snapshot id name notes forwarded luck =>
    ended (p.requestSnapshot a luck id name notes forwarded)
  | .resize grown id sizeBytes luck => ended (p.requestResize a luck grown id sizeBytes)

end Request

end Pertisk.Disks
