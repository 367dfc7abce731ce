import Pertisk.Service.Guests

namespace Pertisk.Service
open Lib Op Volume Storage

structure CreateVolumeRequest where
  name : String
  sizeBytes : Nat
  format : VolumeFormat := .qcow2
  replicas : Option Nat := none
  backend : Option StorageBackend := none
  notes : Option String := none

variable (env : Env)

/-- The storage command of a backend is there, or the operation is refused. -/
def requireCli (backend : StorageBackend) (what : String) : Op Unit := do
  let o ← ask env
  demand (o.yes = true) (.other (match backend with
    | .rbd => s!"cluster peer: Ceph RBD {what} requested but the rbd CLI was not found"
    | _ => s!"cluster peer: ZFS {what} requested but the zfs CLI was not found"))

/-- A gibibyte of headroom stays free; a node that cannot tell its free space does not refuse. -/
def requireStorageBytes (need : Nat) (what : String) : Op Unit := do
  let o ← ask env
  check (match o.freeMib with
    | none => .ok ()
    | some avail =>
      let needMib := saturatingAdd (divCeil need mib) 1024
      if avail < needMib then
        .error (.capacity (s!"{what} needs {needMib} MiB free (including 1024 MiB headroom); " ++
          s!"this node has {avail} MiB"))
      else .ok ())

def imagePath (config : Config) (backend : StorageBackend) (name : String) : PathBuf :=
  match backend with
  | .rbd => (Rbd.new config.rbdPool).imagePath name
  | _ => (Zfs.new config.zfsPool).imagePath name

/-- A zvol stays with the node that made it; a Ceph image is every node's. -/
def externalReplicas (self : NodeId) : StorageBackend → List NodeId
  | .zfs => [self]
  | _ => []

/-- The record of a new image outside the files directory. -/
def externalRecord (config : Config) (self : NodeId) (backend : StorageBackend) (fresh : Uuid)
    (name : String) (format : VolumeFormat) (sizeBytes : Nat) : VolumeRecord where
  id := fresh
  name := name
  format := format
  sizeBytes := sizeBytes
  path := imagePath config backend name
  replicas := externalReplicas self backend
  backend := backend

/-- A new volume's copies are placed on nodes that are online. -/
def placed (n : Node) (now configured : Nat) (record : VolumeRecord) : VolumeRecord :=
  let online := n.cluster.onlineIds now
  let want := replicaWant online.length (max configured 1)
  { record with
    replicaCount := want
    replicas := placeReplicas online want (some n.cluster.selfId)
    backend := .replica }

/-- Read the record, work, and put the whole record back. -/
def edit (command : Bool) (e : Edit) (id : VolumeId) : Op VolumeRecord := do
  let record ← getVolume id
  check ((e.check record).mapError .other)
  let o ← ask env
  let n ← node
  let tools : Tools :=
    { self := n.cluster.selfId, qemuImg := o.yes, zfs := Zfs.new env.config.zfsPool
      rbd := Rbd.new env.config.rbdPool }
  if e.settled tools record then pure record
  else do
    onlyIf command (run env (fun text => text))
    putRecord (e.write tools record)

def ensureLocal (record : VolumeRecord) : Op VolumeRecord := do
  onlyIf (!record.backend.external) (run env (fun text => text))
  putRecord record

/-- Peers that cannot be reached are left out. -/
def ensureReplicas (record : VolumeRecord) : Op Unit := do
  let n ← node
  each record.replicas (fun replica =>
    if replica = n.cluster.selfId then ignore (ensureLocal env record)
    else ignore (run env (fun text => text)))

/-- The file goes to the other holders that are online; the maps stay. -/
def syncVolumeReplicas (record : VolumeRecord) : Op Unit :=
  onlyIf (!record.backend.external) (ignore (run env (fun text => text)))

def syncVmVolumes (vm : VmRecord) : Op Unit := do
  let n ← node
  each (vm.spec.disks.filterMap (fun disk => disk.volumeId.bind n.getVolume))
    (syncVolumeReplicas env)

/-- `create_volume` of the volume pool. -/
def poolCreate (req : CreateVolumeRequest) : Op VolumeRecord := do
  demand (trimmed req.name ≠ "") (.other "volume name is required")
  demand (req.sizeBytes ≠ 0) (.other "volume size must be > 0")
  let qemu ← ask env
  demand (req.format = .raw ∨ qemu.yes = true) (.other "qcow2 requires qemu-img")
  let n ← node
  demand (n.listVolumes.all (fun vol => vol.name != req.name))
    (.other s!"volume name already exists: {req.name}")
  let o ← ask env
  run env (fun text => text)
  let notes ← check ((cleanVolumeNotes req.notes).mapError .other)
  putRecord
    { id := o.freshId, name := req.name, format := req.format, sizeBytes := req.sizeBytes
      path := .disk o.freshId req.format, notes := notes }

/-- A volume on Ceph or ZFS; the note is set by an edit of its own. -/
def createExternal (backend : StorageBackend) (req : CreateVolumeRequest) : Op VolumeRecord := do
  requireCli env backend "volume"
  run env (fun text => text)
  let o ← ask env
  let n ← node
  let format := if backend = .zfs then .raw else req.format
  let record ← putRecord (externalRecord env.config n.cluster.selfId backend o.freshId req.name
    format req.sizeBytes)
  match req.notes with
  | some notes => edit env false (.setNotes notes) record.id
  | none => pure record

def createVolume (req : CreateVolumeRequest) : Op VolumeRecord := do
  requireQuorum env
  let backend := req.backend.getD env.config.backend
  if backend.external then do
    let record ← createExternal env backend req
    bump
    pure record
  else do
    requireStorageBytes env 0 "create volume"
    let record ← poolCreate env req
    let o ← ask env
    let n ← node
    let configured := req.replicas.getD env.config.replicaCount
    let record ← putRecord (placed n o.nowMs configured record)
    ensureReplicas env record
    bump
    pure record

def updateVolume (id : VolumeId) (notes : Option String) : Op VolumeRecord := do
  requireQuorum env
  let record ← (match notes with
    | some notes => edit env false (.setNotes notes) id
    | none => getVolume id)
  bump
  pure record

/-- `import_volume` of the volume pool: the image is copied, or converted. -/
def poolImport (name : String) : Op VolumeRecord := do
  demand (trimmed name ≠ "") (.other "volume name is required")
  run env (fun text => text)
  let n ← node
  demand (n.listVolumes.all (fun vol => vol.name != name))
    (.other s!"volume name already exists: {name}")
  run env (fun text => text)
  let o ← ask env
  demand (o.bytes ≠ 0) (.other "empty volume upload")
  let size ← ask env
  putRecord
    { id := o.freshId, name := name, format := o.format
      sizeBytes := max (if size.yes then size.bytes else o.bytes) o.bytes
      path := .disk o.freshId o.format }

/-- The file that was imported first becomes an image of the backend, or goes again. -/
def importExternal (backend : StorageBackend) (record : VolumeRecord) : Op VolumeRecord := do
  run env (fun text => text)
  let imported ← Proc.attempt (run env (fun text => text))
  match imported with
  | .error err => do
    removeVolume record.id
    check (.error err)
  | .ok _ => do
    let n ← node
    putRecord { record with
      path := imagePath env.config backend record.name
      format := .raw
      backend := backend
      replicas := externalReplicas n.cluster.selfId backend
      replicaCount := 1 }

def importVolume (name : String) (need : Nat) (backend : Option StorageBackend) :
    Op VolumeRecord := do
  requireQuorum env
  let backend := backend.getD env.config.backend
  onlyIf backend.external (requireCli env backend "volume")
  requireStorageBytes env need "import volume"
  let record ← poolImport env name
  if backend.external then do
    let record ← importExternal env backend record
    bump
    pure record
  else do
    let o ← ask env
    let n ← node
    let record ← putRecord (placed n o.nowMs env.config.replicaCount record)
    ensureReplicas env record
    bump
    pure record

def deleteVolume (id : VolumeId) : Op Unit := do
  let n ← node
  demand (n.volumeUsers id = []) (.other s!"volume {uuidText id} is attached to a vm")
  let record ← getVolume id
  each (record.replicas.filter (· ≠ n.cluster.selfId)) (fun _ => ignore (run env (fun text => text)))
  onlyIf record.backend.external (ignore (run env (fun text => text)))
  removeVolume id
  bump

/-- The path of a ZFS volume names its dataset. -/
def requireDataset (record : VolumeRecord) : Op Unit :=
  demand (record.backend = .zfs → (datasetFromPath record.path).isSome)
    (.other "not a zfs volume path")

def renameVolume (id : VolumeId) (name : String) : Op VolumeRecord := do
  requireQuorum env
  demand (trimmed name ≠ "") (.other "volume name is required")
  let current ← getVolume id
  if current.name = trimmed name then pure current
  else do
    if current.backend.external then do
      requireVolumeIdle id
      requireCli env current.backend "rename"
      requireDataset current
      let record ← edit env true (.rename name) id
      repath record
      bump
      pure record
    else do
      let n ← node
      demand (n.listVolumes.all (fun vol => vol.id == id || vol.name != trimmed name))
        (.other s!"volume name already exists: {trimmed name}")
      let record ← edit env false (.rename name) id
      bump
      pure record

def resizeVolume (id : VolumeId) (sizeBytes : Nat) : Op VolumeRecord := do
  requireVolumeIdle id
  let current ← getVolume id
  onlyIf (current.backend.external && decide (current.sizeBytes < sizeBytes)) (do
    requireCli env current.backend "resize"
    requireDataset current)
  let record ← edit env (current.sizeBytes != sizeBytes) (.resize sizeBytes) id
  syncVolumeReplicas env record
  bump
  pure record

/-- `snapshot` of the volume pool. -/
def poolSnapshot (id : VolumeId) (name : String) (notes : Option String) : Op VolumeRecord := do
  let o ← ask env
  edit env true (.snapshot name notes (o.nowMs / 1000) false) id

/-- `clone_volume` of the volume pool. -/
def poolClone (source : VolumeRecord) (name : String) (linked : Bool) : Op VolumeRecord := do
  demand (trimmed name ≠ "") (.other "clone name is required")
  let n ← node
  demand (n.listVolumes.all (fun vol => vol.name != name))
    (.other s!"volume name already exists: {name}")
  let o ← ask env
  demand (linked = true → o.yes = true) .linkedRequiresQemu
  run env (fun text => text)
  let format := if linked then .qcow2 else source.format
  putRecord
    { id := o.freshId, name := name, format := format, sizeBytes := source.sizeBytes
      path := .disk o.freshId format
      backingId := if linked then some source.id else none
      replicaCount := max source.replicaCount 1, backend := source.backend }

/-- A copy of an image on Ceph or ZFS; a linked one hangs on a snapshot of the source. -/
def cloneExternal (source : VolumeRecord) (name : String) (linked : Bool) : Op VolumeRecord := do
  requireCli env source.backend "clone"
  requireDataset source
  onlyIf linked (do
    let _ ← poolSnapshot env source.id (rbdCloneSnap name) none
    pure ())
  run env (fun text => text)
  let o ← ask env
  let n ← node
  putRecord (externalRecord env.config n.cluster.selfId source.backend o.freshId name .raw
    source.sizeBytes)

def cloneVolume (id : VolumeId) (name : String) (linked : Bool) : Op VolumeRecord := do
  requireVolumeIdle id
  let source ← getVolume id
  if source.backend.external then do
    let record ← cloneExternal env source name linked
    bump
    pure record
  else do
    let need ← ask env
    requireStorageBytes env need.bytes "clone volume"
    let record ← poolClone env source name linked
    let o ← ask env
    let n ← node
    let record ← putRecord { placed n o.nowMs record.replicaCount record with
      backend := record.backend }
    ensureReplicas env record
    syncVolumeReplicas env record
    bump
    pure record

section
variable {env : Env}

theorem still_requireCli (backend : StorageBackend) (what : String) :
    Proc.Still (requireCli env backend what) :=
  (still_ask env).bind (fun _ => still_demand _ _)

theorem still_requireStorageBytes (need : Nat) (what : String) :
    Proc.Still (requireStorageBytes env need what) :=
  (still_ask env).bind (fun _ => still_check _)

theorem silent_edit (command : Bool) (e : Edit) (id : VolumeId) :
    Proc.Silent (edit env command e id) := by
  refine (still_getVolume id).silent.bind (fun record => (still_check _).silent.bind (fun _ => ?_))
  refine (still_ask env).silent.bind (fun o => still_node.silent.bind (fun n => ?_))
  dsimp only
  split
  · exact (Proc.Still.pure _).silent
  · exact (silent_onlyIf (still_run env _).silent).bind (fun _ => silent_putRecord _)

theorem silent_ensureLocal (record : VolumeRecord) : Proc.Silent (ensureLocal env record) :=
  (silent_onlyIf (still_run env _).silent).bind (fun _ => silent_putRecord record)

theorem silent_ensureReplicas (record : VolumeRecord) : Proc.Silent (ensureReplicas env record) := by
  refine still_node.silent.bind (fun n => .each (fun replica => ?_))
  split
  · exact silent_ignore (silent_ensureLocal record)
  · exact silent_ignore (still_run env _).silent

theorem still_syncVolumeReplicas (record : VolumeRecord) :
    Proc.Still (syncVolumeReplicas env record) :=
  still_onlyIf (still_ignore (still_run env _))

theorem still_syncVmVolumes (vm : VmRecord) : Proc.Still (syncVmVolumes env vm) :=
  still_node.bind (fun _ => .each (fun record => still_syncVolumeReplicas record))

theorem settles_createVolume (req : CreateVolumeRequest) : Proc.Settles (createVolume env req) := by
  refine .of_bind (fun _ => ?_)
  dsimp only
  split
  · exact .of_bind (fun _ => settles_bump_pure _)
  · refine .of_bind (fun _ => .of_bind (fun _ => .of_bind (fun o => .of_bind (fun n => ?_))))
    exact .of_bind (fun _ => .of_bind (fun _ => settles_bump_pure _))

theorem settles_updateVolume (id : VolumeId) (notes : Option String) :
    Proc.Settles (updateVolume env id notes) :=
  .of_bind (fun _ => .of_bind (fun _ => settles_bump_pure _))

theorem settles_importVolume (name : String) (need : Nat) (backend : Option StorageBackend) :
    Proc.Settles (importVolume env name need backend) := by
  refine .of_bind (fun _ => .of_bind (fun _ => .of_bind (fun _ => .of_bind (fun record => ?_))))
  split
  · exact .of_bind (fun _ => settles_bump_pure _)
  · refine .of_bind (fun o => .of_bind (fun n => ?_))
    exact .of_bind (fun _ => .of_bind (fun _ => settles_bump_pure _))

theorem settles_deleteVolume (id : VolumeId) : Proc.Settles (deleteVolume env id) := by
  refine .of_bind (fun n => .of_bind (fun _ => .of_bind (fun record => ?_)))
  exact .of_bind (fun _ => .of_bind (fun _ => .of_bind (fun _ => settles_bump)))

/-- A volume that has the name already is left as it is. -/
theorem keeps_renameVolume (id : VolumeId) (name : String) :
    Proc.Keeps (renameVolume env id name) := by
  refine (still_requireQuorum env).keeps.bind (fun _ => (still_demand _ _).keeps.bind (fun _ => ?_))
  refine (still_getVolume id).keeps.bind (fun current => ?_)
  split
  · exact (Proc.Still.pure _).keeps
  · refine Proc.Settles.keeps ?_
    split
    · refine .of_bind (fun _ => .of_bind (fun _ => .of_bind (fun _ => ?_)))
      exact .of_bind (fun _ => .of_bind (fun _ => settles_bump_pure _))
    · exact .of_bind (fun n => .of_bind (fun _ => .of_bind (fun _ => settles_bump_pure _)))

theorem settles_resizeVolume (id : VolumeId) (sizeBytes : Nat) :
    Proc.Settles (resizeVolume env id sizeBytes) := by
  refine .of_bind (fun _ => .of_bind (fun current => .of_bind (fun _ => ?_)))
  exact .of_bind (fun _ => .of_bind (fun _ => settles_bump_pure _))

theorem settles_cloneVolume (id : VolumeId) (name : String) (linked : Bool) :
    Proc.Settles (cloneVolume env id name linked) := by
  refine .of_bind (fun _ => .of_bind (fun source => ?_))
  split
  · exact .of_bind (fun _ => settles_bump_pure _)
  · refine .of_bind (fun need => .of_bind (fun _ => .of_bind (fun record => .of_bind (fun o => ?_))))
    refine .of_bind (fun n => .of_bind (fun _ => .of_bind (fun _ => ?_)))
    exact .of_bind (fun _ => settles_bump_pure _)

end

end Pertisk.Service
