import Pertisk.Lib.Ledger
import Pertisk.Service.Power
import Pertisk.Volume.Linked

namespace Pertisk.Record
open Lib Service

/-- The schedules of a guest. -/
inductive Kind
  | backup
  | snapshot
  deriving DecidableEq

def Kind.word : Kind → String
  | backup => "backup"
  | snapshot => "snapshot"

def Kind.sched (k : Kind) (spec : VmSpec) : Option VmSchedule :=
  match k with
  | backup => spec.backup
  | snapshot => spec.snapshot

def Kind.put (k : Kind) (sched : Option VmSchedule) (spec : VmSpec) : VmSpec :=
  match k with
  | backup => { spec with backup := sched }
  | snapshot => { spec with snapshot := sched }

/-- The volumes and the ISOs that a node knows. -/
structure Inventory where
  volumes : List VolumeRecord := []
  isos : List IsoRecord := []

namespace Inventory

variable (inv : Inventory)

def getVolume (id : VolumeId) : Option VolumeRecord := inv.volumes.find? (fun vol => vol.id == id)

def getIso (name : String) : Option IsoRecord := inv.isos.find? (fun iso => iso.name == name)

/-- The path that a disk has on this node. -/
def pathOf (disk : DiskSpec) : PathBuf :=
  match disk.volumeId with
  | some id => ((inv.getVolume id).map (fun vol => (volumeDisk vol).path)).getD disk.path
  | none => ((disk.isoName.bind inv.getIso).map IsoRecord.path).getD disk.path

def localizeDisks (r : VmRecord) : VmRecord :=
  { r with spec := { r.spec with
    disks := r.spec.disks.map (fun disk => { disk with path := inv.pathOf disk }) } }

/-- The cloud-init ISO of a clone is put back when the record has lost it. -/
def restoreCloneCidata (r : VmRecord) : VmRecord :=
  if r.spec.disks.any isoIsCidata then r
  else
    match inv.getIso s!"{r.spec.name}-{r.id.text}-cidata.iso" with
    | none => r
    | some iso =>
      let r := withDisk r (isoDisk iso)
      if (nonBlank r.spec.sshUser).isSome then r
      else { r with spec := { r.spec with sshUser := some (defaultCloudUser [r.spec.name]) } }

def prepare (r : VmRecord) : VmRecord := inv.restoreCloneCidata (inv.localizeDisks r)

end Inventory

/-- What an operation makes of the record that it has read. -/
inductive Change
  | edit (req : UpdateVmRequest)
  | attach (disk : DiskSpec)
  | detachDisk (volumeId : VolumeId)
  | detachIso (name : String)
  | attachNic (nic : NetSpec)
  | detachNic (tap : String)
  | schedule (kind : Kind) (req : SetScheduleRequest)
  | unschedule (kind : Kind)
  | ran (kind : Kind) (now : Nat)
  | sshUser (user : String)
  | nicAddrs (nets : List NetSpec)
  /-- `localize_disks` and `restore_clone_cidata`. -/
  | prepare (inv : Inventory)
  | create (created : Created)
  | start (node : NodeId) (pid : Option Nat)
  | fail (text : String)
  | stop
  /-- `apply_run` takes over a guest of another node, or finds it running. -/
  | move (node : NodeId) (runDir : String)
  | adopt (node : NodeId)
  /-- A peer's `apply_run`, when its record comes back. -/
  | runThere (node : NodeId) (runDir : String) (inv : Inventory) (created : Created)
    (pid : Option Nat)
  /-- The record as `apply_run` returned it. -/
  | again
  /-- The record as it was before `apply_run`, and failed. -/
  | giveUp (vm : VmRecord) (text : String)

def mapSpec (f : VmSpec → VmSpec) (r : VmRecord) : VmRecord := { r with spec := f r.spec }

/-- An update; the text of its notes has passed the check. -/
def edited (req : UpdateVmRequest) (r : VmRecord) : VmRecord :=
  let notes := match req.notes with
    | some notes => nonBlank (some notes)
    | none => r.spec.notes
  { r with
    spec := req.apply r.spec notes
    graphicsSocket := if req.consoleType = some .serial then none else r.graphicsSocket }

def Kind.scheduled (k : Kind) (req : SetScheduleRequest) (spec : VmSpec) : VmSpec :=
  let lastRunUnix := ((k.sched spec).map VmSchedule.lastRunUnix).getD 0
  k.put (some ⟨req.enabled, req.intervalHours, req.keep, lastRunUnix⟩) spec

def Kind.ranAt (k : Kind) (now : Nat) (spec : VmSpec) : VmSpec :=
  k.put ((k.sched spec).map (fun sched => { sched with lastRunUnix := now })) spec

def moved (node : NodeId) (runDir : String) (r : VmRecord) : VmRecord :=
  { r with state := .created }.toRun node runDir

def Change.apply : Change → VmRecord → VmRecord
  | edit req, r => edited req r
  | attach disk, r => withDisk r disk
  | detachDisk volumeId, r => mapSpec (fun spec =>
      { spec with disks := spec.disks.filter (fun disk => disk.volumeId != some volumeId) }) r
  | detachIso name, r => mapSpec (fun spec =>
      { spec with disks := spec.disks.filter (fun disk => disk.isoName != some name) }) r
  | attachNic nic, r => mapSpec (fun spec => { spec with nets := spec.nets ++ [nic] }) r
  | detachNic tap, r => mapSpec (fun spec =>
      { spec with nets := spec.nets.filter (fun nic => nic.tap != some tap) }) r
  | schedule kind req, r => mapSpec (kind.scheduled req) r
  | unschedule kind, r => mapSpec (kind.put none) r
  | ran kind now, r => mapSpec (kind.ranAt now) r
  | sshUser user, r => mapSpec (fun spec => { spec with sshUser := some user }) r
  | nicAddrs nets, r => mapSpec (fun spec => { spec with nets := patchNicAddrs spec.nets nets }) r
  | prepare inv, r => inv.prepare r
  | create created, r => r.withCreated (some created)
  | start node pid, r => r.started node none pid
  | fail text, r => r.failed text
  | stop, r => r.stopped
  | move node runDir, r => moved node runDir r
  | adopt node, r => { r with nodeId := some node, state := .running }
  | runThere node runDir inv created pid, r =>
    (inv.prepare (moved node runDir r)).started node (some created) pid
  | again, r => r
  | giveUp vm text, r =>
    { r with
      nodeId := vm.nodeId
      pid := vm.pid
      apiSocket := vm.apiSocket
      consoleSocket := vm.consoleSocket
      graphicsSocket := vm.graphicsSocket
      serialLog := vm.serialLog
      spec := { r.spec with serialLog := vm.spec.serialLog }
      state := .failed
      lastError := some text }

/-- What is asked for of a guest at rest. The volume, the ISO and the NIC are those that the pools
hand out, and `names` those of the other guests. -/
inductive Request
  | update (req : UpdateVmRequest) (names : List String)
  | attachDisk (volume : VolumeRecord)
  | attachIso (iso : IsoRecord)
  | detachDisk (volumeId : VolumeId)
  | detachIso (name : String)
  | attachNic (nic : NetSpec)
  | detachNic (tap : String)
  | setSchedule (kind : Kind) (req : SetScheduleRequest)
  | clearSchedule (kind : Kind)
  /-- A backup or a snapshot by schedule is done. -/
  | ran (kind : Kind) (now : Nat)

def updateChange (req : UpdateVmRequest) (names : List String) (r : VmRecord) :
    Except String (Option Change) := do
  (if req.vcpus.isSome || req.memoryMib.isSome then
    Pertisk.requireStopped r "resize cpu or memory" else .ok ())
  (if req.consoleType.isSome then Pertisk.requireStopped r "change console" else .ok ())
  (match req.name.map Volume.trimmed with
    | some name => if names.contains name then .error s!"name already exists: {name}" else .ok ()
    | none => .ok ())
  let _ ← (cleanNotes (req.notes.getD "")).mapError DaemonError.text
  (validate (edited req r).spec).mapError DaemonError.text
  return some (.edit req)

def scheduleChange (kind : Kind) (req : SetScheduleRequest) (r : VmRecord) :
    Except String (Option Change) := do
  Pertisk.requireNotTemplate r s!"set {kind.word} schedule"
  (if req.intervalHours = 0 then
    .error (invalidSpec s!"{kind.word} interval_hours must be >= 1").text else .ok ())
  (validate (kind.scheduled req r.spec)).mapError DaemonError.text
  return some (.schedule kind req)

/-- The change that a request makes of the record as it reads it, unless it refuses. A disk that is
there already is not attached again. -/
def Request.change : Request → VmRecord → Except String (Option Change)
  | update req names, r => updateChange req names r
  | attachDisk volume, r => do
    Pertisk.requireStopped r "attach disk"
    return if r.usesVolume volume.id then none else some (.attach (volumeDisk volume))
  | attachIso iso, r => do
    Pertisk.requireStopped r "attach iso"
    return if r.spec.disks.any (fun disk => disk.isoName == some iso.name) then none
      else some (.attach (isoDisk iso))
  | detachDisk volumeId, r => do
    Pertisk.requireStopped r "detach disk"
    return some (.detachDisk volumeId)
  | detachIso name, r => do
    Pertisk.requireStopped r "detach iso"
    return some (.detachIso name)
  | attachNic nic, r => do
    Pertisk.requireStopped r "attach nic"
    return some (.attachNic nic)
  | detachNic tap, r => do
    Pertisk.requireStopped r "detach nic"
    return some (.detachNic tap)
  | setSchedule kind req, r => scheduleChange kind req r
  | clearSchedule kind, r => do
    Pertisk.requireNotTemplate r s!"clear {kind.word} schedule"
    return some (.unschedule kind)
  | ran kind now, _ => return some (.ran kind now)

/-- The record says that the guest runs, as the process with this pid and socket. -/
def Shows (r : VmRecord) (pid : Option Nat) (socket : Option PathBuf) : Prop :=
  r.state = .running ∧ r.pid = pid ∧ r.apiSocket = socket

/-- After it the record does not say that the guest runs here. -/
def Change.ends : Change → Bool
  | fail _ | stop | move .. | runThere .. | giveUp .. => true
  | _ => false

/-- It is made behind the start gate, of the process that a start is about. -/
def Change.launches : Change → Bool
  | create _ | start .. => true
  | _ => false

variable {r : VmRecord} {pid : Option Nat} {socket : Option PathBuf}

theorem Inventory.prepare_runtime (inv : Inventory) (r : VmRecord) :
    (inv.prepare r).state = r.state ∧ (inv.prepare r).pid = r.pid ∧
      (inv.prepare r).apiSocket = r.apiSocket := by
  unfold Inventory.prepare Inventory.restoreCloneCidata
  split
  · exact ⟨rfl, rfl, rfl⟩
  · split
    · exact ⟨rfl, rfl, rfl⟩
    · dsimp only
      split <;> exact ⟨rfl, rfl, rfl⟩

/-- A change of another kind leaves a record that shows the guest's process one that does. -/
theorem Shows.change {c : Change} (h : Shows r pid socket) (hends : c.ends = false)
    (hlaunches : c.launches = false) : Shows (c.apply r) pid socket := by
  obtain ⟨hstate, hpid, hsocket⟩ := h
  cases c with
  | prepare inv =>
    obtain ⟨hs, hp, ha⟩ := inv.prepare_runtime r
    exact ⟨hs.trans hstate, hp.trans hpid, ha.trans hsocket⟩
  | adopt => exact ⟨rfl, hpid, hsocket⟩
  | create | start => cases hlaunches
  | fail | stop | move | runThere | giveUp => cases hends
  | edit | attach | detachDisk | detachIso | attachNic | detachNic | schedule | unschedule | ran
  | sshUser | nicAddrs | again => exact ⟨hstate, hpid, hsocket⟩

end Pertisk.Record
