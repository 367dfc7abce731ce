import Pertisk.Service.Power

namespace Pertisk.Service
open Lib Op Volume Storage

structure CreateTemplateRequest where
  name : String
  volumeId : VolumeId
  id : Option VmId := none
  vcpus : Option Nat := none
  memoryMib : Option Nat := none
  consoleType : Option ConsoleType := none
  notes : Option String := none

structure CloneVmRequest where
  name : String
  id : Option VmId := none
  linked : Bool := false
  start : Bool := false
  vcpus : Option Nat := none
  memoryMib : Option Nat := none
  diskSizeBytes : Option Nat := none
  autostart : Option Bool := none
  autostartDelay : Option Nat := none
  autostartOrder : Option Nat := none
  ha : Option Bool := none
  group : Option String := none
  notes : Option String := none
  networkId : Option Uuid := none
  ip : Option String := none
  dualStack : Bool := false
  /-- The login that the cloud-init part asks for. -/
  user : Option String := none

variable (env : Env)

/-- What comes after the definition of a new guest; on a failure the guest is destroyed again. -/
def orDestroy (id : VmId) (rest : Op Unit) : Op Unit := do
  let finished ← Proc.attempt rest
  match finished with
  | .ok _ => pure ()
  | .error err => do
    ignore (destroy env id)
    check (.error err)

def createTemplate (req : CreateTemplateRequest) : Op VmRecord := do
  requireQuorum env
  demand (trimmed req.name ≠ "") (invalidSpec "name is required")
  let spec : VmSpec :=
    { name := trimmed req.name, vcpus := req.vcpus.getD 1, memoryMib := req.memoryMib.getD 1024
      consoleType := req.consoleType.getD .serial, ha := false, notes := req.notes }
  check (validate spec)
  let record ← createGuest env req.id spec
  orDestroy env record.id (do
    let _ ← attachDisk record.id req.volumeId
    pure ())
  convertToTemplate env record.id

/-- `base`, or the first of `base-2` to `base-9999` that no volume has. -/
def uniqueVolumeName (n : Node) (base : String) (fresh : Uuid) : String :=
  let free (name : String) : Bool := n.listVolumes.all (fun vol => vol.name != name)
  if free base then base
  else
    match ((List.range' 2 9998).map (fun i => s!"{base}-{i}")).find? free with
    | some name => name
    | none => s!"{base}-{uuidText fresh}"

/-- A copy that cannot be linked is a full one. -/
def cloneLinked (volumeId : VolumeId) (name : String) (linked : Bool) : Op VolumeRecord := do
  let cloned ← Proc.attempt (cloneVolume env volumeId name linked)
  match cloned, linked with
  | .ok record, _ => pure record
  | .error .linkedRequiresQemu, true => cloneVolume env volumeId name false
  | .error err, _ => check (.error err)

/-- The first disk is grown when the request asks for more than it has. -/
def cloneDisks (newId : VmId) (name : String) (linked : Bool) :
    Option Nat → List VolumeId → Op Unit
  | _, [] => pure ()
  | grow, volumeId :: rest => do
    let source ← getVolume volumeId
    let o ← ask env
    let n ← node
    let volName := uniqueVolumeName n s!"{name}-{source.name}" o.freshId
    let cloned ← cloneLinked env volumeId volName linked
    let cloned ← (if cloned.sizeBytes < grow.getD 0 then
        resizeVolume env cloned.id (grow.getD 0)
      else pure cloned)
    let _ ← attachDisk newId cloned.id
    cloneDisks newId name linked none rest

/-- The identity is written into the disk and onto an ISO, and the login into the record. -/
def seedClonedGuest (source : VmRecord) (newId : VmId) (name : String) (user : Option String) :
    Op Unit := do
  let n ← node
  let user := (nonBlank user).getD (defaultCloudUser (source.spec.name :: name ::
    source.spec.disks.filterMap (fun disk =>
      (disk.volumeId.bind n.getVolume).map VolumeRecord.name)))
  run env (fun text => text)
  run env (fun text => text)
  let _ ← attachIso env newId s!"{name}-{newId.text}-cidata.iso"
  ignore (updateVm newId (fun vm => { vm with spec := { vm.spec with sshUser := some user } }))

def finishClone (source : VmRecord) (newId : VmId) (name : String) (req : CloneVmRequest) :
    Op Unit := do
  let linked := req.linked && env.config.driver != .cloudHypervisor
  cloneDisks env newId name linked req.diskSizeBytes (diskVolumes source)
  let o ← ask env
  let network := (req.networkId.or ((source.spec.nets.head?).bind NetSpec.networkId)).or
    o.network
  match network with
  | some network => do
    let _ ← attachNic env newId ⟨network, req.ip, req.dualStack⟩
    seedClonedGuest env source newId name req.user
  | none => seedClonedGuest env source newId name req.user

/-- Schedules of a copy have not run yet. -/
def unrun (sched : VmSchedule) : VmSchedule := { sched with lastRunUnix := 0 }

/-- The memory that is left for guests on this host. -/
def startMemoryBudgetMib (n : Node) (hostMib : Nat) : Nat :=
  let running := n.store.rows.filter (fun vm =>
    vm.state == .running && vm.nodeId == some n.cluster.selfId)
  guestMemoryBudgetMib (min hostMib u32Max) -
    wrappingSum32 (running.map (fun vm => vm.spec.memoryMib))

def cloneSpec (n : Node) (hostMib : Option Nat) (source : VmSpec) (req : CloneVmRequest) :
    VmSpec :=
  let memoryMib := req.memoryMib.getD source.memoryMib
  let memoryMib := match hostMib.map (startMemoryBudgetMib n) with
    | some budget =>
      if req.start && decide (budget < memoryMib) && decide (64 ≤ budget) then budget
      else memoryMib
    | none => memoryMib
  { source with
    name := trimmed req.name
    disks := []
    nets := []
    serialLog := none
    sshUser := none
    autostart := req.autostart.getD false
    ha := req.ha.getD true
    autostartDelay := req.autostartDelay.getD 0
    autostartOrder := req.autostartOrder.getD 0
    group := if req.group.isSome then placementGroup req.group else source.group
    notes := req.notes
    backup := source.backup.map unrun
    snapshot := source.snapshot.map unrun
    vcpus := req.vcpus.getD source.vcpus
    memoryMib := memoryMib }

/-- There was no room for a guest. -/
def refused {α : Type} : Except DaemonError α → Bool
  | .error (.capacity _) | .error (.unschedulable _) => true
  | _ => false

/-- A start that is refused for want of room leaves the clone stopped, with the reason. -/
def startClone (id : VmId) : Op VmRecord := do
  let started ← Proc.attempt (start env id)
  match started with
  | .ok started => pure started
  | .error err =>
    if refused started then do
      let record ← get env id
      upsertVm { record with lastError := some err.text }
      pure { record with lastError := some err.text }
    else check (.error err)

/-- The new guest with its disks and NICs, known to the peers. -/
def makeClone (id : VmId) (req : CloneVmRequest) : Op VmRecord := do
  requireQuorum env
  let source ← getVm id
  requireStopped source "clone"
  demand (trimmed req.name ≠ "") (invalidSpec "name is required")
  let n ← node
  demand (nameTaken n (trimmed req.name) none = false)
    (.other s!"name already exists: {trimmed req.name}")
  let o ← ask env
  let spec := cloneSpec n o.hostMib source.spec req
  check (validate spec)
  let created ← createGuest env req.id spec
  orDestroy env created.id (finishClone env source created.id (trimmed req.name) req)
  bump
  pure created

def cloneVm (id : VmId) (req : CloneVmRequest) : Op VmRecord := do
  let created ← makeClone env id req
  if req.start then startClone env created.id else get env created.id

/-- `clone_from_snapshot` of the volume pool. -/
def poolCloneFromSnapshot (source : VolumeRecord) (snap name : String) : Op VolumeRecord := do
  demand (trimmed name ≠ "") (.other "volume name is required")
  let n ← node
  demand (n.listVolumes.all (fun vol => vol.name != trimmed name))
    (.other s!"volume name already exists: {trimmed name}")
  demand (source.hasSnapshot snap = true) (.other s!"snapshot not found: {snap}")
  run env (fun text => text)
  let o ← ask env
  demand (o.bytes ≠ 0) (.other "snapshot copy is empty")
  let size ← ask env
  putRecord
    { id := o.freshId, name := trimmed name, format := source.format
      sizeBytes := max (if size.yes then size.bytes else source.sizeBytes) o.bytes
      path := .disk o.freshId source.format
      replicaCount := max source.replicaCount 1 }

def cloneVolumeFromSnapshot (id : VolumeId) (snap name : String) : Op VolumeRecord := do
  let source ← getVolume id
  let o ← ask env
  let n ← node
  if source.backend.external then do
    requireCli env source.backend "snapshot clone"
    requireDataset source
    run env (fun text => text)
    putRecord (externalRecord env.config n.cluster.selfId source.backend o.freshId name .raw
      source.sizeBytes)
  else do
    requireStorageBytes env o.bytes "clone snapshot"
    let record ← poolCloneFromSnapshot env source snap name
    let record ← putRecord (placed n o.nowMs record.replicaCount record)
    ensureReplicas env record
    pure record

def finishSnapshotClone (source : VmRecord) (newId : VmId) (name snap : String)
    (volumes : List VolumeRecord) : Op Unit := do
  each volumes (fun vol => do
    let o ← ask env
    let n ← node
    let volName := uniqueVolumeName n s!"{name}-{vol.name}" o.freshId
    let cloned ← cloneVolumeFromSnapshot env vol.id snap volName
    let attached ← Proc.attempt (attachDisk newId cloned.id)
    match attached with
    | .ok _ => pure ()
    | .error err => do
      ignore (deleteVolume env cloned.id)
      check (.error err))
  let isos := (source.spec.disks.filter (fun disk => disk.cdrom && !isoIsCidata disk)).filterMap
    DiskSpec.isoName
  each isos (fun iso => do
    let _ ← attachIso env newId iso
    pure ())
  each source.spec.nets (fun nic =>
    match nic.networkId with
    | none => pure ()
    | some network => do
      let _ ← attachNic env newId ⟨network, none, nic.dualStack⟩
      pure ())

/-- Every disk has the snapshot, or the first that lacks it is named. -/
def requireSnapshots (snap : String) : List VolumeId → Op (List VolumeRecord)
  | [] => pure []
  | id :: rest => do
    let record ← getVolume id
    demand (record.hasSnapshot snap = true)
      (.other s!"snapshot {snap} is missing on disk {record.name}")
    let others ← requireSnapshots snap rest
    pure (record :: others)

def snapshotCloneSpec (source : VmSpec) (name : String) : VmSpec :=
  { source with
    name := name, disks := [], nets := [], serialLog := none, sshUser := none
    backup := source.backup.map unrun, snapshot := source.snapshot.map unrun }

/-- New guest whose disks are a copy of this snapshot. The source guest can stay running. -/
def cloneVmFromSnapshot (id : VmId) (snap : String) (newId : Option VmId) (name : String) :
    Op VmRecord := do
  requireQuorum env
  demand (trimmed snap ≠ "") (.other "snapshot name is required")
  let source ← get env id
  demand (trimmed name ≠ "") (invalidSpec "name is required")
  let n ← node
  demand (nameTaken n (trimmed name) none = false)
    (.other s!"name already exists: {trimmed name}")
  let volumes ← requireSnapshots (trimmed snap) (diskVolumes source)
  demand (volumes ≠ []) (.other s!"snapshot not found: {trimmed snap}")
  let spec := snapshotCloneSpec source.spec (trimmed name)
  check (validate spec)
  let created ← createGuest env newId spec
  orDestroy env created.id
    (finishSnapshotClone env source created.id (trimmed name) (trimmed snap) volumes)
  bump
  get env created.id

section
variable {env : Env} {b b' : Noted Book.generation}

theorem orDestroy_ok {id : VmId} {rest : Op Unit} {u : Unit}
    (h : orDestroy env id rest b = (.ok u, b')) : ∃ v, rest b = (.ok v, b') := by
  obtain ⟨finished, m, hrun, h⟩ := Proc.bind_ok h
  rcases hrest : rest b with ⟨r, m'⟩
  have hr : finished = r ∧ m = m' := by
    cases hrun
    simp [hrest]
  obtain ⟨rfl, rfl⟩ := hr
  cases finished with
  | ok v =>
    cases h
    exact ⟨v, rfl⟩
  | error e =>
    obtain ⟨_, _, -, hfail⟩ := Proc.bind_ok h
    cases hfail

theorem insertUnique_ok {requested : Option VmId} {spec : VmSpec} {dest : NodeId}
    {record : VmRecord} (h : insertUnique env requested spec dest b = (.ok record, b')) :
    record.template = false ∧ b'.state.node.store.get record.id = some record := by
  obtain ⟨o, _, -, h⟩ := Proc.bind_ok h
  obtain ⟨n, _, -, h⟩ := Proc.bind_ok h
  obtain ⟨id, _, -, h⟩ := Proc.bind_ok h
  obtain ⟨_, m, hput, h⟩ := Proc.bind_ok h
  have hstored := upsertVm_ok hput
  cases h
  exact ⟨rfl, hstored⟩

/-- A new guest is in the store, and is no template. -/
theorem createGuest_ok {requested : Option VmId} {spec : VmSpec} {record : VmRecord}
    (h : createGuest env requested spec b = (.ok record, b')) :
    record.template = false ∧ b'.state.node.store.get record.id = some record := by
  obtain ⟨_, _, -, h⟩ := Proc.bind_ok h
  obtain ⟨_, _, -, h⟩ := Proc.bind_ok h
  obtain ⟨_, _, -, h⟩ := Proc.bind_ok h
  obtain ⟨_, _, -, h⟩ := Proc.bind_ok h
  obtain ⟨inserted, m, hinsert, h⟩ := Proc.bind_ok h
  have hinserted := insertUnique_ok hinsert
  obtain ⟨_, m', hbump, h⟩ := Proc.bind_ok h
  have hstore := bump_ok hbump
  cases h
  rw [hstore]
  exact hinserted

theorem attachDisk_ok {id : VmId} {volumeId : VolumeId} {record r : VmRecord}
    (hget : b.state.node.store.get id = some record)
    (h : attachDisk id volumeId b = (.ok r, b')) :
    r.template = record.template ∧ b'.state.node.store.get id = some r := by
  obtain ⟨found, m, hfound, h⟩ := Proc.bind_ok h
  obtain ⟨_, m₁, hstopped, hrest⟩ := Proc.bind_ok h
  obtain ⟨rfl, hstored⟩ := getVm_ok hfound
  obtain ⟨-, rfl⟩ := demand_ok hstopped
  rw [hget] at hstored
  cases hstored
  have hid : record.id = id := Table.key_of_get hget
  split at hrest
  · cases hrest
    exact ⟨rfl, hget⟩
  · obtain ⟨n, _, -, h⟩ := Proc.bind_ok hrest
    obtain ⟨_, _, -, h⟩ := Proc.bind_ok h
    obtain ⟨volume, _, -, h⟩ := Proc.bind_ok h
    obtain ⟨_, _, hput, h⟩ := Proc.bind_ok h
    have hwritten := upsertVm_ok hput
    cases h
    exact ⟨rfl, hid ▸ hwritten⟩

theorem convertToTemplate_clean {id : VmId} {record r : VmRecord}
    (hget : b.state.node.store.get id = some record) (htemplate : record.template = false)
    (h : convertToTemplate env id b = (.ok r, b')) : b'.Clean := by
  obtain ⟨_, m, hquorum, h⟩ := Proc.bind_ok h
  obtain ⟨found, m₁, hfound, hmake⟩ := Proc.bind_ok h
  obtain ⟨rfl, hstored⟩ := getVm_ok hfound
  rw [requireQuorum_ok hquorum, hget] at hstored
  cases hstored
  rw [if_neg (by simp [htemplate])] at hmake
  exact settles_makeTemplate record _ r b' hmake

/-- The template's disk is attached in silence; the conversion behind it tells the peers. -/
theorem settles_createTemplate (req : CreateTemplateRequest) :
    Proc.Settles (createTemplate env req) := by
  intro b a b' h
  obtain ⟨_, _, -, h⟩ := Proc.bind_ok h
  obtain ⟨_, _, -, h⟩ := Proc.bind_ok h
  obtain ⟨_, _, -, h⟩ := Proc.bind_ok h
  obtain ⟨record, m, hcreate, h⟩ := Proc.bind_ok h
  obtain ⟨_, m', hattach, hconvert⟩ := Proc.bind_ok h
  obtain ⟨_, hattach⟩ := orDestroy_ok hattach
  obtain ⟨attached, m'', hattached, hpure⟩ := Proc.bind_ok hattach
  cases hpure
  obtain ⟨htemplate, hget⟩ := createGuest_ok hcreate
  obtain ⟨hsame, hget'⟩ := attachDisk_ok hget hattached
  exact convertToTemplate_clean hget' (hsame.trans htemplate) hconvert

theorem settles_makeClone (id : VmId) (req : CloneVmRequest) :
    Proc.Settles (makeClone env id req) := by
  refine .of_bind (fun _ => .of_bind (fun source => .of_bind (fun _ => .of_bind (fun _ => ?_))))
  refine .of_bind (fun n => .of_bind (fun _ => .of_bind (fun o => .of_bind (fun _ => ?_))))
  exact .of_bind (fun created => .of_bind (fun _ => settles_bump_pure created))

theorem startClone_clean {id : VmId} {r : VmRecord}
    (hstart : refused (start env id b).1 = false) (hb : b.Clean)
    (h : startClone env id b = (.ok r, b')) : b'.Clean := by
  obtain ⟨started, m, hrun, h⟩ := Proc.bind_ok h
  rcases hs : start env id b with ⟨result, m'⟩
  rw [hs] at hstart
  have hr : started = result ∧ m = m' := by
    cases hrun
    simp [hs]
  obtain ⟨rfl, rfl⟩ := hr
  cases started with
  | ok record =>
    cases h
    exact keeps_start id b _ _ hb hs
  | error e =>
    simp only [hstart, Bool.false_eq_true, if_false] at h
    cases h

/-- A clone whose start is not refused is announced once its disks and NICs are in place. -/
theorem cloneVm_clean (hquiet : env.Quiet) {id : VmId} {req : CloneVmRequest} {r : VmRecord}
    (hstart : req.start = true → ∀ created m, makeClone env id req b = (.ok created, m) →
      refused (start env created.id m).1 = false)
    (h : cloneVm env id req b = (.ok r, b')) : b'.Clean := by
  obtain ⟨created, m, hmade, hrest⟩ := Proc.bind_ok h
  have hm := settles_makeClone id req b created m hmade
  split at hrest
  · exact startClone_clean (hstart (by assumption) created m hmade) hm hrest
  · exact (still_get hquiet created.id).keeps m r b' hm hrest

theorem settles_cloneVmFromSnapshot (hquiet : env.Quiet) (id : VmId) (snap : String)
    (newId : Option VmId) (name : String) :
    Proc.Settles (cloneVmFromSnapshot env id snap newId name) := by
  refine .of_bind (fun _ => .of_bind (fun _ => .of_bind (fun source => .of_bind (fun _ => ?_))))
  refine .of_bind (fun n => .of_bind (fun _ => .of_bind (fun volumes => .of_bind (fun _ => ?_))))
  refine .of_bind (fun _ => .of_bind (fun created => .of_bind (fun _ => ?_)))
  exact settles_bump.bind (fun _ => (still_get hquiet _).keeps)

theorem silent_poolCloneFromSnapshot (source : VolumeRecord) (snap name : String) :
    Proc.Silent (poolCloneFromSnapshot env source snap name) := by
  refine (still_demand _ _).silent.bind (fun _ => still_node.silent.bind (fun n => ?_))
  refine (still_demand _ _).silent.bind (fun _ => (still_demand _ _).silent.bind (fun _ => ?_))
  refine (still_run env _).silent.bind (fun _ => (still_ask env).silent.bind (fun o => ?_))
  refine (still_demand _ _).silent.bind (fun _ => (still_ask env).silent.bind (fun size => ?_))
  exact silent_putRecord _

theorem silent_cloneVolumeFromSnapshot (id : VolumeId) (snap name : String) :
    Proc.Silent (cloneVolumeFromSnapshot env id snap name) := by
  refine (still_getVolume id).silent.bind (fun source => (still_ask env).silent.bind (fun o => ?_))
  refine still_node.silent.bind (fun n => ?_)
  split
  · refine (still_requireCli _ _).silent.bind (fun _ => (still_demand _ _).silent.bind (fun _ => ?_))
    exact (still_run env _).silent.bind (fun _ => silent_putRecord _)
  · refine (still_requireStorageBytes _ _).silent.bind (fun _ => ?_)
    refine (silent_poolCloneFromSnapshot source snap name).bind (fun record => ?_)
    refine (silent_putRecord _).bind (fun record => ?_)
    exact (silent_ensureReplicas record).bind (fun _ => (Proc.Still.pure _).silent)

end

end Pertisk.Service
