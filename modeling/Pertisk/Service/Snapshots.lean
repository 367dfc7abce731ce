import Pertisk.Service.Volumes

namespace Pertisk.Service
open Lib Op Volume

variable (env : Env)

/-- QEMU was given a drive for this volume. -/
def hasDevice (vm : VmRecord) (id : VolumeId) : Bool :=
  vm.spec.disks.any (fun disk => !disk.cdrom && disk.volumeId == some id)

/-- How to snapshot a volume that a running guest still has open. -/
inductive RunningSnapshot
  | storage
  | qemu
  | refuse (text : String)

def runningSnapshotPlan (backend : StorageBackend) (format : VolumeFormat) (driver : DriverKind)
    (device : Bool) : RunningSnapshot :=
  match backend with
  | .rbd | .zfs => .storage
  | .replica =>
    if format ≠ .qcow2 then .refuse "raw disks cannot be snapshotted while a guest is running"
    else if driver ≠ .qemu then .refuse "live snapshot requires the qemu driver"
    else if device then .qemu
    else .refuse "volume is not a disk on the running guest"

/-- Record a snapshot that QEMU already created inside an open qcow2. -/
def noteSnapshotOf (id : VolumeId) (name : String) (notes : Option String) : Op VolumeRecord := do
  let o ← ask env
  edit env false (.snapshot name notes (o.nowMs / 1000) true) id

/-- The guest of the volume runs here. -/
def snapshotLive (vm : VmRecord) (id : VolumeId) (name : String) (notes : Option String) :
    Op VolumeRecord := do
  let vol ← getVolume id
  demand (trimmed name ≠ "") (.other "snapshot name is required")
  demand (vol.hasSnapshot (trimmed name) = false)
    (.other s!"snapshot already exists: {trimmed name}")
  match runningSnapshotPlan vol.backend vol.format env.config.driver (hasDevice vm id) with
  | .storage => do
    let record ← poolSnapshot env id name notes
    bump
    pure record
  | .qemu => do
    run env (fun text => text)
    let record ← noteSnapshotOf env id name notes
    bump
    pure record
  | .refuse text => check (.error (.other text))

def peerVolume : Op VolumeRecord := do
  let o ← ask env
  check (o.peerVolume.mapError (fun text => .other s!"cluster peer: {text}"))

/-- The node that runs the guest takes the snapshot; a request from a peer is not passed on. -/
def snapshotVolumeForward (id : VolumeId) (name : String) (notes : Option String)
    (allowForward : Bool) : Op VolumeRecord := do
  let n ← node
  match n.runningVolumeUsers id with
  | [] => do
    let record ← poolSnapshot env id name notes
    syncVolumeReplicas env record
    bump
    pure record
  | [vmId] => do
    let vm ← getVm vmId
    if vm.nodeId.getD n.cluster.selfId = n.cluster.selfId then snapshotLive env vm id name notes
    else do
      demand (allowForward = true) (.other "guest is not running on this node")
      peerVolume env
  | _ => check (.error (.other "volume is attached to more than one running guest"))

def snapshotVolume (id : VolumeId) (name : String) (notes : Option String) : Op VolumeRecord :=
  snapshotVolumeForward env id name notes true

def snapshotVolumeHere (id : VolumeId) (name : String) (notes : Option String) :
    Op VolumeRecord :=
  snapshotVolumeForward env id name notes false

/-- The image goes back to a snapshot; its record stays as it is. -/
def poolRestore (id : VolumeId) (name : String) : Op VolumeRecord := do
  let record ← getVolume id
  demand (record.hasSnapshot name = true) (.other s!"snapshot not found: {name}")
  requireDataset record
  run env (fun text => text)
  pure record

def restoreVolume (id : VolumeId) (name : String) : Op VolumeRecord := do
  requireVolumeIdle id
  let record ← poolRestore env id name
  syncVolumeReplicas env record
  bump
  pure record

def updateVolumeSnapshot (id : VolumeId) (name : String) (notes : Option String) :
    Op VolumeRecord := do
  requireQuorum env
  demand (trimmed name ≠ "") (.other "snapshot name is required")
  let record ← (match notes with
    | some notes => edit env false (.setSnapshotNotes name notes) id
    | none => do
      let record ← getVolume id
      demand (record.hasSnapshot (trimmed name) = true)
        (.other s!"snapshot not found: {trimmed name}")
      pure record)
  bump
  pure record

/-- The snapshot lies inside an image that the running guest may have open. -/
def liveQcow (record : VolumeRecord) (name : String) : Bool :=
  record.backend == .replica && record.format == .qcow2 &&
    record.snapshots.any (fun snap => snap.name == name && snap.path.isNone)

/-- QEMU deletes a snapshot of an open image, where it can; the rest is the pool's work. -/
def dropSnapshot (live : Bool) (id : VolumeId) (name : String) : Op VolumeRecord := do
  let o ← ask env
  let done := live && o.ran.toOption.isSome
  edit env (!done) (.deleteSnapshot name done) id

def deleteVolumeSnapshot (id : VolumeId) (name : String) : Op VolumeRecord := do
  requireQuorum env
  demand (trimmed name ≠ "") (.other "snapshot name is required")
  let n ← node
  let live ← (match n.runningVolumeUsers id with
    | [] => pure false
    | vmId :: _ => do
      let vm ← getVm vmId
      let record ← getVolume id
      demand (record.hasSnapshot (trimmed name) = true)
        (.other s!"snapshot not found: {trimmed name}")
      pure (liveQcow record (trimmed name) && hasDevice vm id))
  let record ← dropSnapshot env live id (trimmed name)
  bump
  pure record

/-- The volumes of a guest's disks, CD-ROMs left out. -/
def diskVolumes (vm : VmRecord) : List VolumeId :=
  (vm.spec.disks.filter (fun disk => !disk.cdrom)).filterMap DiskSpec.volumeId

def deleteNamedSnapshot (vm : VmRecord) (name : String) : Op Unit :=
  each (diskVolumes vm) (fun id => do
    let record ← getVolume id
    if record.hasSnapshot name then do
      let live := vm.state == .running && liveQcow record name && hasDevice vm id
      let _ ← dropSnapshot env live id name
      pure ()
    else pure ())

/-- The disks of the guest that have the snapshot; one that is not in the inventory is an error. -/
def volumesWith (name : String) : List VolumeId → Op (List VolumeRecord)
  | [] => pure []
  | id :: rest => do
    let record ← getVolume id
    let others ← volumesWith name rest
    pure (if record.hasSnapshot name then record :: others else others)

/-- Remove one snapshot name from every disk on this guest. -/
def deleteVmSnapshot (id : VmId) (name : String) : Op Unit := do
  requireQuorum env
  demand (trimmed name ≠ "") (.other "snapshot name is required")
  let vm ← get env id
  let n ← node
  demand ((diskVolumes vm).any (fun v => (n.getVolume v).any (·.hasSnapshot (trimmed name))) = true)
    (.other s!"snapshot not found: {trimmed name}")
  deleteNamedSnapshot env vm (trimmed name)
  bump

/-- Update the description on a named snapshot across every disk that has it. -/
def updateVmSnapshot (id : VmId) (name : String) (notes : Option String) : Op Unit := do
  requireQuorum env
  demand (trimmed name ≠ "") (.other "snapshot name is required")
  let vm ← get env id
  let records ← volumesWith (trimmed name) (diskVolumes vm)
  demand (records ≠ []) (.other s!"snapshot not found: {trimmed name}")
  match notes with
  | none => pure ()
  | some notes => do
    each records (fun record => do
      let _ ← edit env false (.setSnapshotNotes name notes) record.id
      pure ())
    bump

/-- Every disk in turn; the snapshots that were taken are removed when one fails. -/
def snapshotDisks (name : String) (notes : Option String) :
    List VolumeId → List VolumeRecord → Op Unit
  | [], _ => pure ()
  | id :: rest, done => do
    let taken ← Proc.attempt (snapshotVolume env id name notes)
    match taken with
    | .ok record => snapshotDisks name notes rest (done ++ [record])
    | .error err => do
      each done (fun record => ignore (deleteVolumeSnapshot env record.id name))
      check (.error err)

/-- Snapshot every non-CD disk under one name. -/
def createVmSnapshot (id : VmId) (name : String) (notes : Option String) : Op Unit := do
  requireQuorum env
  demand (trimmed name ≠ "") (.other "snapshot name is required")
  let vm ← get env id
  requireNotTemplate vm "snapshot"
  demand (diskVolumes vm ≠ []) (.other "guest has no disks to snapshot")
  each (diskVolumes vm) (fun id => do
    let record ← getVolume id
    demand (record.hasSnapshot (trimmed name) = false)
      (.other s!"snapshot already exists: {trimmed name}"))
  snapshotDisks env (trimmed name) notes (diskVolumes vm) []

/-- Roll every disk that has this snapshot back to it. The guest must be stopped. -/
def restoreVmSnapshot (id : VmId) (name : String) : Op Unit := do
  requireQuorum env
  demand (trimmed name ≠ "") (.other "snapshot name is required")
  let vm ← get env id
  requireStopped vm "restore"
  let records ← volumesWith (trimmed name) (diskVolumes vm)
  demand (records ≠ []) (.other s!"snapshot not found: {trimmed name}")
  each records (fun record => do
    let _ ← restoreVolume env record.id (trimmed name)
    pure ())

section
variable {env : Env}

theorem settles_snapshotLive (vm : VmRecord) (id : VolumeId) (name : String)
    (notes : Option String) : Proc.Settles (snapshotLive env vm id name notes) := by
  refine .of_bind (fun vol => .of_bind (fun _ => .of_bind (fun _ => ?_)))
  split
  · exact .of_bind (fun _ => settles_bump_pure _)
  · exact .of_bind (fun _ => .of_bind (fun _ => settles_bump_pure _))
  · exact .throw _

/-- A snapshot that another node takes changes nothing here. -/
theorem keeps_snapshotVolumeForward (id : VolumeId) (name : String) (notes : Option String)
    (allowForward : Bool) : Proc.Keeps (snapshotVolumeForward env id name notes allowForward) := by
  refine still_node.keeps.bind (fun n => ?_)
  split
  · refine Proc.Settles.keeps ?_
    exact .of_bind (fun _ => .of_bind (fun _ => settles_bump_pure _))
  · refine (still_getVm _).keeps.bind (fun vm => ?_)
    split
    · exact (settles_snapshotLive vm id name notes).keeps
    · refine (still_demand _ _).keeps.bind (fun _ => Proc.Still.keeps ?_)
      exact (still_ask env).bind (fun _ => still_check _)
  · exact (still_check _).keeps

theorem settles_restoreVolume (id : VolumeId) (name : String) :
    Proc.Settles (restoreVolume env id name) :=
  .of_bind (fun _ => .of_bind (fun _ => .of_bind (fun _ => settles_bump_pure _)))

theorem settles_updateVolumeSnapshot (id : VolumeId) (name : String) (notes : Option String) :
    Proc.Settles (updateVolumeSnapshot env id name notes) :=
  .of_bind (fun _ => .of_bind (fun _ => .of_bind (fun _ => settles_bump_pure _)))

theorem settles_deleteVolumeSnapshot (id : VolumeId) (name : String) :
    Proc.Settles (deleteVolumeSnapshot env id name) := by
  refine .of_bind (fun _ => .of_bind (fun _ => .of_bind (fun n => .of_bind (fun live => ?_))))
  exact .of_bind (fun _ => settles_bump_pure _)

theorem still_volumesWith (name : String) (ids : List VolumeId) :
    Proc.Still (volumesWith name ids) := by
  induction ids with
  | nil => exact .pure _
  | cons id ids ih => exact (still_getVolume id).bind (fun _ => ih.bind (fun _ => .pure _))

theorem silent_dropSnapshot (live : Bool) (id : VolumeId) (name : String) :
    Proc.Silent (dropSnapshot env live id name) :=
  (still_ask env).silent.bind (fun _ => silent_edit _ _ id)

theorem silent_deleteNamedSnapshot (vm : VmRecord) (name : String) :
    Proc.Silent (deleteNamedSnapshot env vm name) := by
  refine .each (fun id => (still_getVolume id).silent.bind (fun record => ?_))
  split
  · exact (silent_dropSnapshot _ id name).bind (fun _ => (Proc.Still.pure _).silent)
  · exact (Proc.Still.pure _).silent

theorem settles_deleteVmSnapshot (id : VmId) (name : String) :
    Proc.Settles (deleteVmSnapshot env id name) := by
  refine .of_bind (fun _ => .of_bind (fun _ => .of_bind (fun vm => .of_bind (fun n => ?_))))
  exact .of_bind (fun _ => .of_bind (fun _ => settles_bump))

theorem settles_updateVmSnapshot (id : VmId) (name notes : String) :
    Proc.Settles (updateVmSnapshot env id name (some notes)) := by
  refine .of_bind (fun _ => .of_bind (fun _ => .of_bind (fun vm => .of_bind (fun records => ?_))))
  exact .of_bind (fun _ => .of_bind (fun _ => settles_bump))

/-- With no note the disks are only looked up; a guest's addresses may be written all the same. -/
theorem silent_updateVmSnapshot (id : VmId) (name : String) :
    Proc.Silent (updateVmSnapshot env id name none) := by
  refine (still_requireQuorum env).silent.bind (fun _ => (still_demand _ _).silent.bind (fun _ => ?_))
  refine (silent_get id).bind (fun vm => (still_volumesWith _ _).silent.bind (fun records => ?_))
  exact (still_demand _ _).silent.bind (fun _ => (Proc.Still.pure _).silent)

theorem keeps_snapshotDisks (name : String) (notes : Option String) (ids : List VolumeId)
    (done : List VolumeRecord) : Proc.Keeps (snapshotDisks env name notes ids done) := by
  induction ids generalizing done with
  | nil => exact (Proc.Still.pure _).keeps
  | cons id ids ih =>
    refine (keeps_snapshotVolumeForward id name notes true).attempt_bind (fun _ => ih _) ?_
    exact fun e => .of_bind (fun _ => .throw _)

theorem keeps_createVmSnapshot (hquiet : env.Quiet) (id : VmId) (name : String)
    (notes : Option String) : Proc.Keeps (createVmSnapshot env id name notes) := by
  refine (still_requireQuorum env).keeps.bind (fun _ => (still_demand _ _).keeps.bind (fun _ => ?_))
  refine (still_get hquiet id).keeps.bind (fun vm => (still_demand _ _).keeps.bind (fun _ => ?_))
  refine (still_demand _ _).keeps.bind (fun _ => Proc.Keeps.bind ?_ (fun _ => ?_))
  · exact .each (fun _ _ => (still_getVolume _).keeps.bind (fun _ => (still_demand _ _).keeps))
  · exact keeps_snapshotDisks _ notes _ _

theorem settles_restoreVmSnapshot (id : VmId) (name : String) :
    Proc.Settles (restoreVmSnapshot env id name) := by
  refine .of_bind (fun _ => .of_bind (fun _ => .of_bind (fun vm => .of_bind (fun _ => ?_))))
  refine .of_bind (fun records => settles_demand_bind (fun hne => .each (fun record => ?_) hne))
  exact (settles_restoreVolume record.id _).bind (fun _ => (Proc.Still.pure _).keeps)

end

end Pertisk.Service
