import Pertisk.Service.Book

namespace Pertisk.Service
open Lib Op Volume

/-- The text without blanks around it, unless nothing is left. -/
def nonBlank (s : Option String) : Option String := (s.map trimmed).filter (fun t => !t.isEmpty)

/-- What the spec's own check refuses. -/
def validate (spec : VmSpec) : Except DaemonError Unit :=
  if trimmed spec.name = "" then .error (invalidSpec "name is required")
  else if spec.vcpus = 0 then .error (invalidSpec "vcpus must be >= 1")
  else if spec.memoryMib < 64 then .error (invalidSpec "memory_mib must be >= 64")
  else if spec.notes.any (fun notes => 500 < (trimmed notes).length) then
    .error (invalidSpec "notes are limited to 500 characters")
  else if spec.backup.any (fun sched => sched.intervalHours == 0) then
    .error (invalidSpec "backup interval_hours must be >= 1")
  else if spec.snapshot.any (fun sched => sched.intervalHours == 0) then
    .error (invalidSpec "snapshot interval_hours must be >= 1")
  else .ok ()

def cleanNotes (notes : String) : Except DaemonError (Option String) :=
  if 500 < (trimmed notes).length then .error (invalidSpec "notes are limited to 500 characters")
  else .ok (nonBlank (some notes))

def nameTaken (n : Node) (name : String) (except : Option VmId) : Bool :=
  n.store.rows.any (fun vm => vm.spec.name == name && some vm.id != except)

/-- The smallest numeric id that is free, from 100 on. -/
def nextNumeric (n : Node) (fresh : Uuid) : VmId :=
  let free := (List.range' 100 (n.store.rows.length + 1)).find?
    (fun k => !(n.store.rows.any (fun vm => vm.id == .numeric k)))
  match free with
  | some k => if k ≤ 9999999999 then .numeric k else .legacy fresh
  | none => .legacy fresh

/-- The id that a new guest gets, unless it or the name is taken. -/
def newId (n : Node) (requested : Option VmId) (name : String) (fresh : Uuid) :
    Except DaemonError VmId :=
  if nameTaken n name none then .error (.other s!"name already exists: {name}")
  else
    match requested with
    | some id =>
      if (n.store.get id).isSome then .error (.other s!"vm id already exists: {id.text}")
      else .ok id
    | none => .ok (nextNumeric n fresh)

def defined (runDir : String) (id : VmId) (spec : VmSpec) (dest : NodeId) : VmRecord :=
  let serial := spec.serialLog.or (some (.text s!"{runDir}/{id.text}.serial"))
  { id := id, spec := { spec with serialLog := serial }, state := .created, serialLog := serial
    nodeId := some dest }

structure UpdateVmRequest where
  name : Option String := none
  vcpus : Option Nat := none
  memoryMib : Option Nat := none
  ha : Option Bool := none
  autostart : Option Bool := none
  autostartDelay : Option Nat := none
  autostartOrder : Option Nat := none
  group : Option String := none
  notes : Option String := none
  consoleType : Option ConsoleType := none

/-- The spec with what the request sets. -/
def UpdateVmRequest.apply (req : UpdateVmRequest) (spec : VmSpec) (notes : Option String) :
    VmSpec :=
  { spec with
    name := (req.name.map trimmed).getD spec.name
    vcpus := req.vcpus.getD spec.vcpus
    memoryMib := req.memoryMib.getD spec.memoryMib
    ha := req.ha.getD spec.ha
    autostart := req.autostart.getD spec.autostart
    autostartDelay := req.autostartDelay.getD spec.autostartDelay
    autostartOrder := req.autostartOrder.getD spec.autostartOrder
    group := if req.group.isSome then placementGroup req.group else spec.group
    notes := notes
    consoleType := req.consoleType.getD spec.consoleType }

structure SetScheduleRequest where
  enabled : Bool
  intervalHours : Nat := 24
  keep : Nat := 3

structure AttachNicRequest where
  networkId : Uuid
  ip : Option String := none
  dualStack : Bool := false

variable (env : Env)

/-- Place a defined guest; its memory is looked at when it starts. -/
def pickNodeDefine (spec : VmSpec) (prefer : Option NodeId) : Op NodeId := do
  let o ← ask env
  let n ← node
  let loads := n.loads o.nowMs
  match scheduleDefineSpread loads prefer (n.volumeAffinity spec) (n.groupNodes spec none) with
  | some dest => pure dest
  | none => check (.error (.unschedulable (Migrate.unschedulableDetail loads)))

def insertUnique (requested : Option VmId) (spec : VmSpec) (dest : NodeId) : Op VmRecord := do
  let o ← ask env
  let n ← node
  let id ← check (newId n requested spec.name o.freshId)
  upsertVm (defined env.config.runDir id spec dest)
  pure (defined env.config.runDir id spec dest)

def createGuest (requested : Option VmId) (spec : VmSpec) : Op VmRecord := do
  requireQuorum env
  let notes ← check (match spec.notes with
    | some notes => cleanNotes notes
    | none => .ok none)
  let spec := { spec with group := placementGroup spec.group, notes := notes }
  check (validate spec)
  let dest ← pickNodeDefine env spec none
  let record ← insertUnique env requested spec dest
  bump
  pure record

def update (id : VmId) (req : UpdateVmRequest) : Op VmRecord := do
  requireQuorum env
  let n ← node
  let vm ← getVm id
  onlyIf (req.vcpus.isSome || req.memoryMib.isSome) (requireStopped vm "resize cpu or memory")
  onlyIf req.consoleType.isSome (requireStopped vm "change console")
  check (match req.name.map trimmed with
    | some name =>
      if nameTaken n name (some id) then .error (.other s!"name already exists: {name}")
      else .ok ()
    | none => .ok ())
  let notes ← check (match req.notes with
    | some notes => cleanNotes notes
    | none => .ok vm.spec.notes)
  let vm := { vm with
    spec := req.apply vm.spec notes
    graphicsSocket := if req.consoleType = some .serial then none else vm.graphicsSocket }
  check (validate vm.spec)
  upsertVm vm
  bump
  pure vm

def makeTemplate (vm : VmRecord) : Op VmRecord := do
  requireStopped vm "convert to template"
  let vm := { vm with
    template := true
    spec := { vm.spec with autostart := false, ha := false, backup := none, snapshot := none } }
  upsertVm vm
  bump
  pure vm

def convertToTemplate (id : VmId) : Op VmRecord := do
  requireQuorum env
  let vm ← getVm id
  if vm.template then pure vm else makeTemplate vm

/-- `set_backup_schedule` and `set_snapshot_schedule`: the last run is kept. -/
def setSchedule (word : String) (sched : VmSpec → Option VmSchedule)
    (put : VmSpec → VmSchedule → VmSpec) (id : VmId) (req : SetScheduleRequest) : Op VmRecord := do
  requireQuorum env
  let vm ← getVm id
  requireNotTemplate vm s!"set {word} schedule"
  demand (req.intervalHours ≠ 0) (invalidSpec s!"{word} interval_hours must be >= 1")
  let lastRunUnix := ((sched vm.spec).map VmSchedule.lastRunUnix).getD 0
  let vm := { vm with
    spec := put vm.spec ⟨req.enabled, req.intervalHours, req.keep, lastRunUnix⟩ }
  check (validate vm.spec)
  upsertVm vm
  bump
  pure vm

def setBackupSchedule : VmId → SetScheduleRequest → Op VmRecord :=
  setSchedule env "backup" VmSpec.backup (fun spec sched => { spec with backup := some sched })

def setSnapshotSchedule : VmId → SetScheduleRequest → Op VmRecord :=
  setSchedule env "snapshot" VmSpec.snapshot (fun spec sched => { spec with snapshot := some sched })

def clearSchedule (word : String) (clear : VmSpec → VmSpec) (id : VmId) : Op VmRecord := do
  requireQuorum env
  let vm ← getVm id
  requireNotTemplate vm s!"clear {word} schedule"
  let vm := { vm with spec := clear vm.spec }
  upsertVm vm
  bump
  pure vm

def clearBackupSchedule : VmId → Op VmRecord :=
  clearSchedule env "backup" (fun spec => { spec with backup := none })

def clearSnapshotSchedule : VmId → Op VmRecord :=
  clearSchedule env "snapshot" (fun spec => { spec with snapshot := none })

def withDisk (vm : VmRecord) (disk : DiskSpec) : VmRecord :=
  { vm with spec := { vm.spec with disks := vm.spec.disks ++ [disk] } }

def volumeDisk (volume : VolumeRecord) : DiskSpec where
  path := if volume.backend.external then volume.path else .disk volume.id volume.format
  volumeId := some volume.id

def isoDisk (iso : IsoRecord) : DiskSpec where
  path := iso.path
  readonly := true
  cdrom := true
  isoName := some iso.name

def attachDisk (vmId : VmId) (volumeId : VolumeId) : Op VmRecord := do
  let vm ← getVm vmId
  requireStopped vm "attach disk"
  if vm.usesVolume volumeId then pure vm
  else do
    let n ← node
    demand (n.volumeUsers volumeId = [])
      (.other s!"volume {uuidText volumeId} is attached to a vm")
    let volume ← getVolume volumeId
    upsertVm (withDisk vm (volumeDisk volume))
    pure (withDisk vm (volumeDisk volume))

def attachIso (vmId : VmId) (iso : String) : Op VmRecord := do
  let vm ← getVm vmId
  requireStopped vm "attach iso"
  if vm.spec.disks.any (fun disk => disk.isoName == some iso) then pure vm
  else do
    let iso ← getIso env iso
    upsertVm (withDisk vm (isoDisk iso))
    pure (withDisk vm (isoDisk iso))

/-- `detach_disk` and `detach_iso`: the disks that are kept stay in their order. -/
def detach (word : String) (keep : DiskSpec → Bool) (vmId : VmId) : Op VmRecord := do
  let vm ← getVm vmId
  requireStopped vm s!"detach {word}"
  let vm := { vm with spec := { vm.spec with disks := vm.spec.disks.filter keep } }
  upsertVm vm
  pure vm

def detachDisk (vmId : VmId) (volumeId : VolumeId) : Op VmRecord :=
  detach "disk" (fun disk => disk.volumeId != some volumeId) vmId

def detachIso (vmId : VmId) (name : String) : Op VmRecord :=
  detach "iso" (fun disk => disk.isoName != some name) vmId

/-- The network pool finds the address and the tap, or refuses. -/
def attachNic (vmId : VmId) (req : AttachNicRequest) : Op VmRecord := do
  let vm ← getVm vmId
  requireStopped vm "attach nic"
  let o ← ask env
  let nic ← check (o.nic.mapError .other)
  let nic := { nic with dualStack := req.dualStack }
  let vm := { vm with spec := { vm.spec with nets := vm.spec.nets ++ [nic] } }
  upsertVm vm
  pure vm

def detachNic (vmId : VmId) (tap : String) : Op VmRecord := do
  let vm ← getVm vmId
  requireStopped vm "detach nic"
  let vm := { vm with
    spec := { vm.spec with nets := vm.spec.nets.filter (fun nic => nic.tap != some tap) } }
  upsertVm vm
  pure vm

/-- Twelve hexadecimal digits in pairs, whatever stands between them. -/
def normalizeMac (mac : String) : Option String :=
  let digit (c : Char) : Bool := c.isDigit || ('a' ≤ c && c ≤ 'f') || ('A' ≤ c && c ≤ 'F')
  let hex := (mac.toList.filter digit).map Char.toLower
  if hex.length = 12 then
    some (":".intercalate ((hex.toChunks 2).map String.ofList))
  else none

/-- The NICs with the addresses of their likes, found by MAC or else by tap. -/
def patchNicAddrs (dest src : List NetSpec) : List NetSpec :=
  dest.map (fun nic =>
    let like (other : NetSpec) : Bool :=
      match nic.mac.bind normalizeMac, other.mac.bind normalizeMac with
      | some a, some b => a == b || (nic.tap.isSome && nic.tap == other.tap)
      | _, _ => nic.tap.isSome && nic.tap == other.tap
    match src.find? like with
    | some other => { nic with ip := other.ip, ipv6 := other.ipv6 }
    | none => nic)

def persistObservedNicAddrs (id : VmId) (nets : List NetSpec) : Op VmRecord :=
  updateVm id (fun latest =>
    { latest with spec := { latest.spec with nets := patchNicAddrs latest.spec.nets nets } })

/-- A guest's record; addresses that are seen now and are not in it are written into it. -/
def get (id : VmId) : Op VmRecord := do
  let vm ← getVm id
  let o ← ask env
  match o.seen with
  | none => pure vm
  | some nets => do
    let latest ← Proc.attempt (persistObservedNicAddrs id nets)
    match latest with
    | .ok latest => pure latest
    | .error _ => pure { vm with spec := { vm.spec with nets := nets } }

/-- The same for every guest, on a timer. -/
def refreshObservedAddrs : Op Unit := do
  let n ← node
  each n.store.rows (fun vm => do
    let o ← ask env
    match o.seen with
    | none => pure ()
    | some nets => ignore (persistObservedNicAddrs vm.id nets))

/-- Words in the names around a guest, and the login of the image that they speak of. -/
def cloudUsers : List (String × String) :=
  [("almalinux", "almalinux"), ("alma", "almalinux"), ("rocky", "rocky"), ("centos", "centos"),
    ("rhel", "cloud-user"), ("redhat", "cloud-user"), ("red-hat", "cloud-user"),
    ("fedora", "fedora"), ("debian", "debian"), ("alpine", "alpine"), ("oracle", "opc"),
    ("opensuse", "opensuse"), ("sles", "opensuse")]

def defaultCloudUser (hints : List String) : String :=
  let blob := (" ".intercalate hints).toList.map Char.toLower
  match cloudUsers.find? (fun user => decide (user.1.toList <:+: blob)) with
  | some user => user.2
  | none => "ubuntu"

/-- The names of a guest, of its volumes and of its ISOs. -/
def nameHints (n : Node) (vm : VmRecord) : List String :=
  vm.spec.name :: vm.spec.disks.flatMap (fun disk =>
    ((disk.volumeId.bind n.getVolume).map VolumeRecord.name).toList ++ disk.isoName.toList)

/-- The login and the address of a guest's SSH tab; the login is kept in the record. -/
def guestSshTarget (id : VmId) (user : Option String) : Op (String × String) := do
  let vm ← getVm id
  requireNotTemplate vm "ssh"
  demand (vm.state = .running)
    (.other s!"cluster peer: guest {id.text} is not running (state {vm.state.text})")
  let o ← ask env
  let host ← check (match o.host with
    | some host => .ok host
    | none => .error (.other (s!"cluster peer: guest {id.text} has no IP yet — wait for " ++
        "DHCP/cloud-init or set a static address")))
  let n ← node
  let user := ((nonBlank user).or (nonBlank vm.spec.sshUser)).getD
    (defaultCloudUser (nameHints n vm))
  onlyIf (nonBlank vm.spec.sshUser).isNone
    (ignore (updateVm id (fun rec => { rec with spec := { rec.spec with sshUser := some user } })))
  pure (host, user)

section
variable {env : Env}

theorem settles_createGuest (requested : Option VmId) (spec : VmSpec) :
    Proc.Settles (createGuest env requested spec) :=
  .of_bind (fun _ => .of_bind (fun _ => .of_bind (fun _ => .of_bind (fun _ => .of_bind (fun _ =>
    settles_bump_pure _)))))

theorem settles_update (id : VmId) (req : UpdateVmRequest) :
    Proc.Settles (update env id req) := by
  refine .of_bind (fun _ => .of_bind (fun n => .of_bind (fun vm => ?_)))
  refine .of_bind (fun _ => .of_bind (fun _ => .of_bind (fun _ => .of_bind (fun notes => ?_))))
  exact .of_bind (fun _ => .of_bind (fun _ => settles_bump_pure _))

theorem settles_makeTemplate (vm : VmRecord) : Proc.Settles (makeTemplate vm) :=
  .of_bind (fun _ => .of_bind (fun _ => settles_bump_pure _))

theorem keeps_convertToTemplate (id : VmId) : Proc.Keeps (convertToTemplate env id) := by
  refine (still_requireQuorum env).keeps.bind (fun _ => (still_getVm id).keeps.bind (fun vm => ?_))
  split
  · exact (Proc.Still.pure _).keeps
  · exact (settles_makeTemplate vm).keeps

theorem settles_setSchedule {word : String} {sched : VmSpec → Option VmSchedule}
    {put : VmSpec → VmSchedule → VmSpec} (id : VmId) (req : SetScheduleRequest) :
    Proc.Settles (setSchedule env word sched put id req) := by
  refine .of_bind (fun _ => .of_bind (fun vm => .of_bind (fun _ => .of_bind (fun _ => ?_))))
  exact .of_bind (fun _ => .of_bind (fun _ => settles_bump_pure _))

theorem settles_clearSchedule {word : String} {clear : VmSpec → VmSpec} (id : VmId) :
    Proc.Settles (clearSchedule env word clear id) :=
  .of_bind (fun _ => .of_bind (fun _ => .of_bind (fun _ => .of_bind (fun _ =>
    settles_bump_pure _))))

/-- The end of every attach and detach: the record is written, and nobody is told. -/
theorem silent_upsertVm_pure (record : VmRecord) :
    Proc.Silent (upsertVm record >>= fun _ => pure record) :=
  (silent_upsertVm record).bind (fun _ => (Proc.Still.pure record).silent)

theorem silent_attachDisk (vmId : VmId) (volumeId : VolumeId) :
    Proc.Silent (attachDisk vmId volumeId) := by
  refine (still_getVm vmId).silent.bind (fun vm => (still_demand _ _).silent.bind (fun _ => ?_))
  split
  · exact (Proc.Still.pure _).silent
  · refine still_node.silent.bind (fun n => (still_demand _ _).silent.bind (fun _ => ?_))
    exact (still_getVolume _).silent.bind (fun volume => silent_upsertVm_pure _)

theorem silent_attachIso (vmId : VmId) (iso : String) : Proc.Silent (attachIso env vmId iso) := by
  refine (still_getVm vmId).silent.bind (fun vm => (still_demand _ _).silent.bind (fun _ => ?_))
  split
  · exact (Proc.Still.pure _).silent
  · exact (still_getIso env iso).silent.bind (fun iso => silent_upsertVm_pure _)

theorem silent_detach {word : String} {keep : DiskSpec → Bool} (vmId : VmId) :
    Proc.Silent (detach word keep vmId) :=
  (still_getVm vmId).silent.bind (fun _ => (still_demand _ _).silent.bind (fun _ =>
    silent_upsertVm_pure _))

theorem silent_attachNic (vmId : VmId) (req : AttachNicRequest) :
    Proc.Silent (attachNic env vmId req) := by
  refine (still_getVm vmId).silent.bind (fun vm => (still_demand _ _).silent.bind (fun _ => ?_))
  exact (still_ask env).silent.bind (fun o => (still_check _).silent.bind (fun nic =>
    silent_upsertVm_pure _))

theorem silent_detachNic (vmId : VmId) (tap : String) : Proc.Silent (detachNic vmId tap) :=
  (still_getVm vmId).silent.bind (fun _ => (still_demand _ _).silent.bind (fun _ =>
    silent_upsertVm_pure _))

theorem silent_get (id : VmId) : Proc.Silent (get env id) := by
  refine (still_getVm id).silent.bind (fun vm => (still_ask env).silent.bind (fun o => ?_))
  split
  · exact (Proc.Still.pure _).silent
  · refine (silent_updateVm _ _).attempt.bind (fun latest => ?_)
    split <;> exact (Proc.Still.pure _).silent

theorem silent_refreshObservedAddrs : Proc.Silent (refreshObservedAddrs env) := by
  refine still_node.silent.bind (fun n => .each (fun vm => ?_))
  refine (still_ask env).silent.bind (fun o => ?_)
  split
  · exact (Proc.Still.pure _).silent
  · exact silent_ignore (silent_updateVm _ _)

theorem silent_guestSshTarget (id : VmId) (user : Option String) :
    Proc.Silent (guestSshTarget env id user) := by
  refine (still_getVm id).silent.bind (fun vm => (still_demand _ _).silent.bind (fun _ => ?_))
  refine (still_demand _ _).silent.bind (fun _ => (still_ask env).silent.bind (fun o => ?_))
  refine (still_check _).silent.bind (fun host => still_node.silent.bind (fun n => ?_))
  exact (silent_onlyIf (silent_ignore (silent_updateVm _ _))).bind
    (fun _ => (Proc.Still.pure _).silent)

/-- Where no address is seen that a record lacks, a guest is only read. -/
theorem still_get (hquiet : env.Quiet) (id : VmId) : Proc.Still (get env id) := by
  refine (still_getVm id).bind (fun vm => still_ask_bind env (fun k => ?_))
  rw [hquiet k]
  exact .pure _

theorem get_ok (hquiet : env.Quiet) {id : VmId} {vm : VmRecord} {b b' : Noted Book.generation}
    (h : get env id b = (.ok vm, b')) : b.state.node.store.get id = some vm := by
  obtain ⟨found, m, hfound, h⟩ := Proc.bind_ok h
  obtain ⟨o, m', hask, h⟩ := Proc.bind_ok h
  obtain ⟨-, hstored⟩ := getVm_ok hfound
  have hseen : o.seen = none := ask_ok hask ▸ hquiet _
  simp only [hseen] at h
  cases h
  exact hstored

end

end Pertisk.Service
