import Pertisk.Service.Pruned
import Pertisk.Service.Tick

namespace Pertisk.Service
open Lib Op Storage

/-- The operations of the service that may write a guest's or a volume's record. A daemon's other
tasks run these one after the other. -/
inductive Call
  | createGuest (requested : Option VmId) (spec : VmSpec)
  | update (id : VmId) (req : UpdateVmRequest)
  | convertToTemplate (id : VmId)
  | createTemplate (req : CreateTemplateRequest)
  | cloneVm (id : VmId) (req : CloneVmRequest)
  | cloneVmFromSnapshot (id : VmId) (snap : String) (newId : Option VmId) (name : String)
  | setBackupSchedule (id : VmId) (req : SetScheduleRequest)
  | clearBackupSchedule (id : VmId)
  | runDueBackupSchedules
  | setSnapshotSchedule (id : VmId) (req : SetScheduleRequest)
  | clearSnapshotSchedule (id : VmId)
  | snapshotGuestScheduled (id : VmId) (now : Nat)
  | pruneScheduledSnapshots (id : VmId) (keep : Nat)
  | attachDisk (vmId : VmId) (volumeId : VolumeId)
  | attachIso (vmId : VmId) (iso : String)
  | attachNic (vmId : VmId) (req : AttachNicRequest)
  | detachDisk (vmId : VmId) (volumeId : VolumeId)
  | detachIso (vmId : VmId) (name : String)
  | detachNic (vmId : VmId) (tap : String)
  | get (id : VmId)
  | refreshObservedAddrs
  | guestSshTarget (id : VmId) (user : Option String)
  | start (id : VmId)
  | startLocal (id : VmId)
  | stop (id : VmId)
  | stopLocal (id : VmId)
  | shutdown (id : VmId)
  | shutdownLocal (id : VmId)
  | restart (id : VmId)
  | restartLocal (id : VmId)
  | destroy (id : VmId)
  | applyRun (record : VmRecord)
  | applyStop (record : VmRecord)
  | applyShutdown (record : VmRecord)
  | applyRestart (record : VmRecord)
  | migrate (id : VmId) (target : Option NodeId)
  | drainNode (from_ : Option NodeId)
  | finishIncoming (id : VmId)
  | createVolume (req : CreateVolumeRequest)
  | updateVolume (id : VolumeId) (notes : Option String)
  | importVolume (name : String) (need : Nat) (backend : Option StorageBackend)
  | deleteVolume (id : VolumeId)
  | renameVolume (id : VolumeId) (name : String)
  | resizeVolume (id : VolumeId) (sizeBytes : Nat)
  | cloneVolume (id : VolumeId) (name : String) (linked : Bool)
  | cloneVolumeFromSnapshot (id : VolumeId) (snap name : String)
  | snapshotVolume (id : VolumeId) (name : String) (notes : Option String)
  | snapshotVolumeHere (id : VolumeId) (name : String) (notes : Option String)
  | restoreVolume (id : VolumeId) (name : String)
  | updateVolumeSnapshot (id : VolumeId) (name : String) (notes : Option String)
  | deleteVolumeSnapshot (id : VolumeId) (name : String)
  | createVmSnapshot (id : VmId) (name : String) (notes : Option String)
  | updateVmSnapshot (id : VmId) (name : String) (notes : Option String)
  | deleteVmSnapshot (id : VmId) (name : String)
  | restoreVmSnapshot (id : VmId) (name : String)
  | ensureVolumesOnNode (vm : VmRecord) (dest : NodeId)
  | pullMissingVolumes (vm : VmRecord)
  | applyEnsureVolume (record : VolumeRecord)
  | applyVolumeBlob (id : VolumeId) (len : Nat)
  | applyDeleteReplica (id : VolumeId)
  | onGuestExited (id : VmId)
  | reconcileLocalVms
  | fenceLocal
  | recoverHa
  | rebuildVolumes

/-- What is returned besides the success does not matter here. -/
def void {α : Type} (p : Op α) : Op Unit := p >>= fun _ => pure ()

variable (env : Env)

def perform : Call → Op Unit
  | .createGuest requested spec => void (createGuest env requested spec)
  | .update id req => void (update env id req)
  | .convertToTemplate id => void (convertToTemplate env id)
  | .createTemplate req => void (createTemplate env req)
  | .cloneVm id req => void (cloneVm env id req)
  | .cloneVmFromSnapshot id snap newId name => void (cloneVmFromSnapshot env id snap newId name)
  | .setBackupSchedule id req => void (setBackupSchedule env id req)
  | .clearBackupSchedule id => void (clearBackupSchedule env id)
  | .runDueBackupSchedules => void (runDueBackupSchedules env)
  | .setSnapshotSchedule id req => void (setSnapshotSchedule env id req)
  | .clearSnapshotSchedule id => void (clearSnapshotSchedule env id)
  | .snapshotGuestScheduled id now => void (snapshotGuestScheduled env id now)
  | .pruneScheduledSnapshots id keep => void (pruneScheduledSnapshots env id keep)
  | .attachDisk vmId volumeId => void (attachDisk vmId volumeId)
  | .attachIso vmId iso => void (attachIso env vmId iso)
  | .attachNic vmId req => void (attachNic env vmId req)
  | .detachDisk vmId volumeId => void (detachDisk vmId volumeId)
  | .detachIso vmId name => void (detachIso vmId name)
  | .detachNic vmId tap => void (detachNic vmId tap)
  | .get id => void (get env id)
  | .refreshObservedAddrs => void (refreshObservedAddrs env)
  | .guestSshTarget id user => void (guestSshTarget env id user)
  | .start id => void (start env id)
  | .startLocal id => void (startLocal env id)
  | .stop id => void (stop env id)
  | .stopLocal id => void (stopLocal env id)
  | .shutdown id => void (shutdown env id)
  | .shutdownLocal id => void (shutdownLocal env id)
  | .restart id => void (restart env id)
  | .restartLocal id => void (restartLocal env id)
  | .destroy id => void (destroy env id)
  | .applyRun record => void (applyRun env record)
  | .applyStop record => void (applyStop env record)
  | .applyShutdown record => void (applyShutdown env record)
  | .applyRestart record => void (applyRestart env record)
  | .migrate id target => void (migrate env id target)
  | .drainNode from_ => void (drainNode env from_)
  | .finishIncoming id => void (finishIncoming env id)
  | .createVolume req => void (createVolume env req)
  | .updateVolume id notes => void (updateVolume env id notes)
  | .importVolume name need backend => void (importVolume env name need backend)
  | .deleteVolume id => void (deleteVolume env id)
  | .renameVolume id name => void (renameVolume env id name)
  | .resizeVolume id sizeBytes => void (resizeVolume env id sizeBytes)
  | .cloneVolume id name linked => void (cloneVolume env id name linked)
  | .cloneVolumeFromSnapshot id snap name => void (cloneVolumeFromSnapshot env id snap name)
  | .snapshotVolume id name notes => void (snapshotVolume env id name notes)
  | .snapshotVolumeHere id name notes => void (snapshotVolumeHere env id name notes)
  | .restoreVolume id name => void (restoreVolume env id name)
  | .updateVolumeSnapshot id name notes => void (updateVolumeSnapshot env id name notes)
  | .deleteVolumeSnapshot id name => void (deleteVolumeSnapshot env id name)
  | .createVmSnapshot id name notes => void (createVmSnapshot env id name notes)
  | .updateVmSnapshot id name notes => void (updateVmSnapshot env id name notes)
  | .deleteVmSnapshot id name => void (deleteVmSnapshot env id name)
  | .restoreVmSnapshot id name => void (restoreVmSnapshot env id name)
  | .ensureVolumesOnNode vm dest => void (ensureVolumesOnNode env vm dest)
  | .pullMissingVolumes vm => void (pullMissingVolumes env vm)
  | .applyEnsureVolume record => void (applyEnsureVolume env record)
  | .applyVolumeBlob id len => void (applyVolumeBlob env id len)
  | .applyDeleteReplica id => void (applyDeleteReplica id)
  | .onGuestExited id => void (onGuestExited env id)
  | .reconcileLocalVms => void (reconcileLocalVms env)
  | .fenceLocal => void (fenceLocal env)
  | .recoverHa => void (recoverHa env)
  | .rebuildVolumes => void (rebuildVolumes env)

/-- The changes that an operation makes here are announced before it returns. -/
def Announced (b : Book) : Call → Prop
  | .attachDisk .. | .attachIso .. | .attachNic .. | .detachDisk .. | .detachIso ..
  | .detachNic .. => False
  | .get _ | .refreshObservedAddrs | .guestSshTarget .. => False
  | .cloneVolumeFromSnapshot .. | .pullMissingVolumes _ | .pruneScheduledSnapshots .. => False
  | .applyEnsureVolume _ | .applyVolumeBlob .. | .applyDeleteReplica _ => False
  | .fenceLocal | .rebuildVolumes => False
  | .updateVmSnapshot _ _ notes => notes.isSome = true
  | .applyRun _ => (env.answers b.asked).yes = false
  | .applyRestart record => recreates env (env.answers b.asked) record = true
  | .cloneVm id req => env.Quiet ∧ (req.start = true → ∀ created m,
      makeClone env id req (Noted.ofState b) = (.ok created, m) →
        refused (start env created.id m).1 = false)
  | .cloneVmFromSnapshot .. | .createVmSnapshot .. | .runDueBackupSchedules => env.Quiet
  | .snapshotGuestScheduled id now => env.Quiet ∧
      ∀ vm, b.node.store.get id = some vm → keepsAll b.node vm now = true
  | _ => True

/-- Operations made of others. What one of them leaves unannounced, the next may announce. -/
def Call.composite : Call → Bool
  | .cloneVm .. | .cloneVmFromSnapshot .. | .createVmSnapshot .. | .runDueBackupSchedules
  | .snapshotGuestScheduled .. => true
  | _ => false

section
variable {env : Env} {b : Book} {b' : Noted Book.generation} {c : Call} {u : Unit} {α : Type}
  {p : Op α}

theorem void_ok (h : void p (Noted.ofState b) = (.ok u, b')) :
    ∃ a, p (Noted.ofState b) = (.ok a, b') := by
  obtain ⟨a, m, hp, hpure⟩ := Proc.bind_ok h
  cases hpure
  exact ⟨a, hp⟩

theorem ofState_clean : (Noted.ofState b : Noted Book.generation).Clean :=
  Noted.clean_of_marks rfl

theorem Keeps.clean (hp : Proc.Keeps p) (h : void p (Noted.ofState b) = (.ok u, b')) :
    b'.Clean := by
  obtain ⟨a, hrun⟩ := void_ok h
  exact hp _ a b' ofState_clean hrun

theorem Settles.clean (hp : Proc.Settles p) (h : void p (Noted.ofState b) = (.ok u, b')) :
    b'.Clean := Keeps.clean hp.keeps h

theorem Silent.not_clean (hp : Proc.Silent p) (h : void p (Noted.ofState b) = (.ok u, b'))
    (hchanged : b'.marks ≠ []) : ¬ b'.Clean := by
  obtain ⟨a, hrun⟩ := void_ok h
  exact (hp.unmoved hrun).not_clean rfl hchanged

theorem applyRun_clean {record r : VmRecord} (hgone : (env.answers b.asked).yes = false)
    (h : applyRun env record (Noted.ofState b) = (.ok r, b')) : b'.Clean := by
  obtain ⟨o, m, hask, hrun⟩ := Proc.bind_ok h
  have ho : o.yes = false := ask_ok hask ▸ hgone
  rw [ho] at hrun
  exact settles_applyRunWith record m r b' hrun

theorem applyRun_unmoved {record r : VmRecord} (hthere : (env.answers b.asked).yes = true)
    (h : applyRun env record (Noted.ofState b) = (.ok r, b')) :
    (Noted.ofState b : Noted Book.generation).Unmoved b' := by
  obtain ⟨o, m, hask, hrun⟩ := Proc.bind_ok h
  have ho : o.yes = true := ask_ok hask ▸ hthere
  rw [ho] at hrun
  exact ((still_ask env).silent.unmoved hask).trans ((silent_applyRunWith record).unmoved hrun)

/-- Whatever an operation changed, the peers learn of it where `Announced` says so. -/
theorem clean_of_announced (h : perform env c (Noted.ofState b) = (.ok u, b'))
    (ha : Announced env b c) : b'.Clean := by
  cases c with
  | createGuest requested spec => exact Settles.clean (settles_createGuest requested spec) h
  | update id req => exact Settles.clean (settles_update id req) h
  | convertToTemplate id => exact Keeps.clean (keeps_convertToTemplate id) h
  | createTemplate req => exact Settles.clean (settles_createTemplate req) h
  | cloneVm id req =>
    obtain ⟨r, hrun⟩ := void_ok h
    exact cloneVm_clean ha.1 ha.2 hrun
  | cloneVmFromSnapshot id snap newId name => exact Settles.clean (settles_cloneVmFromSnapshot ha id snap newId name) h
  | setBackupSchedule id req => exact Settles.clean (settles_setSchedule id req) h
  | clearBackupSchedule id => exact Settles.clean (settles_clearSchedule id) h
  | runDueBackupSchedules => exact Keeps.clean (keeps_runDueBackupSchedules ha) h
  | setSnapshotSchedule id req => exact Settles.clean (settles_setSchedule id req) h
  | clearSnapshotSchedule id => exact Settles.clean (settles_clearSchedule id) h
  | snapshotGuestScheduled id now =>
    obtain ⟨_, hrun⟩ := void_ok h
    exact snapshotGuestScheduled_clean ha.1 ha.2 ofState_clean hrun
  | pruneScheduledSnapshots id keep => exact ha.elim
  | attachDisk vmId volumeId => exact ha.elim
  | attachIso vmId iso => exact ha.elim
  | attachNic vmId req => exact ha.elim
  | detachDisk vmId volumeId => exact ha.elim
  | detachIso vmId name => exact ha.elim
  | detachNic vmId tap => exact ha.elim
  | get id => exact ha.elim
  | refreshObservedAddrs => exact ha.elim
  | guestSshTarget id user => exact ha.elim
  | start id => exact Keeps.clean (keeps_start id) h
  | startLocal id => exact Settles.clean (settles_startLocal id) h
  | stop id => exact Keeps.clean (keeps_onOwner (fun id => (settles_stopLocal id).keeps) id) h
  | stopLocal id => exact Settles.clean (settles_stopLocal id) h
  | shutdown id => exact Keeps.clean (keeps_onOwner (fun id => (settles_shutdownLocal id).keeps) id) h
  | shutdownLocal id => exact Settles.clean (settles_shutdownLocal id) h
  | restart id => exact Keeps.clean (keeps_onOwner keeps_restartLocal id) h
  | restartLocal id => exact Keeps.clean (keeps_restartLocal id) h
  | destroy id => exact Keeps.clean (keeps_destroy id) h
  | applyRun record =>
    obtain ⟨r, hrun⟩ := void_ok h
    exact applyRun_clean ha hrun
  | applyStop record => exact Settles.clean (settles_applyThen settles_stopLocal record) h
  | applyShutdown record => exact Settles.clean (settles_applyThen settles_shutdownLocal record) h
  | applyRestart record =>
    obtain ⟨r, hrun⟩ := void_ok h
    obtain ⟨m, -, hwith⟩ := applyRestart_ok hrun
    exact settles_restartWith ha m r b' hwith
  | migrate id target => exact Keeps.clean (keeps_migrate id target) h
  | drainNode from_ => exact Keeps.clean (keeps_drainNode from_) h
  | finishIncoming id => exact Settles.clean (settles_finishIncoming id) h
  | createVolume req => exact Settles.clean (settles_createVolume req) h
  | updateVolume id notes => exact Settles.clean (settles_updateVolume id notes) h
  | importVolume name need backend => exact Settles.clean (settles_importVolume name need backend) h
  | deleteVolume id => exact Settles.clean (settles_deleteVolume id) h
  | renameVolume id name => exact Keeps.clean (keeps_renameVolume id name) h
  | resizeVolume id sizeBytes => exact Settles.clean (settles_resizeVolume id sizeBytes) h
  | cloneVolume id name linked => exact Settles.clean (settles_cloneVolume id name linked) h
  | cloneVolumeFromSnapshot id snap name => exact ha.elim
  | snapshotVolume id name notes => exact Keeps.clean (keeps_snapshotVolumeForward id name notes true) h
  | snapshotVolumeHere id name notes => exact Keeps.clean (keeps_snapshotVolumeForward id name notes false) h
  | restoreVolume id name => exact Settles.clean (settles_restoreVolume id name) h
  | updateVolumeSnapshot id name notes => exact Settles.clean (settles_updateVolumeSnapshot id name notes) h
  | deleteVolumeSnapshot id name => exact Settles.clean (settles_deleteVolumeSnapshot id name) h
  | createVmSnapshot id name notes => exact Keeps.clean (keeps_createVmSnapshot ha id name notes) h
  | updateVmSnapshot id name notes =>
    obtain ⟨note, rfl⟩ := Option.isSome_iff_exists.mp ha
    exact Settles.clean (settles_updateVmSnapshot id name note) h
  | deleteVmSnapshot id name => exact Settles.clean (settles_deleteVmSnapshot id name) h
  | restoreVmSnapshot id name => exact Settles.clean (settles_restoreVmSnapshot id name) h
  | ensureVolumesOnNode vm dest => exact Keeps.clean (keeps_ensureVolumesOnNode vm dest) h
  | pullMissingVolumes vm => exact ha.elim
  | applyEnsureVolume record => exact ha.elim
  | applyVolumeBlob id len => exact ha.elim
  | applyDeleteReplica id => exact ha.elim
  | onGuestExited id => exact Keeps.clean ((steady_onGuestExited id).keeps) h
  | reconcileLocalVms => exact Keeps.clean keeps_reconcileLocalVms h
  | fenceLocal => exact ha.elim
  | recoverHa => exact Keeps.clean keeps_recoverHa h
  | rebuildVolumes => exact ha.elim

/-- Where it does not, a change stays at the count that the peers have. -/
theorem not_clean_of_not_announced (h : perform env c (Noted.ofState b) = (.ok u, b'))
    (hchanged : b'.marks ≠ []) (hsingle : c.composite = false) (hnot : ¬ Announced env b c) :
    ¬ b'.Clean := by
  cases c with
  | pruneScheduledSnapshots id keep => exact Silent.not_clean (silent_pruneScheduledSnapshots id keep) h hchanged
  | attachDisk vmId volumeId => exact Silent.not_clean (silent_attachDisk vmId volumeId) h hchanged
  | attachIso vmId iso => exact Silent.not_clean (silent_attachIso vmId iso) h hchanged
  | attachNic vmId req => exact Silent.not_clean (silent_attachNic vmId req) h hchanged
  | detachDisk vmId volumeId => exact Silent.not_clean (silent_detach vmId) h hchanged
  | detachIso vmId name => exact Silent.not_clean (silent_detach vmId) h hchanged
  | detachNic vmId tap => exact Silent.not_clean (silent_detachNic vmId tap) h hchanged
  | get id => exact Silent.not_clean (silent_get id) h hchanged
  | refreshObservedAddrs => exact Silent.not_clean silent_refreshObservedAddrs h hchanged
  | guestSshTarget id user => exact Silent.not_clean (silent_guestSshTarget id user) h hchanged
  | applyRun record =>
    obtain ⟨r, hrun⟩ := void_ok h
    exact (applyRun_unmoved (by simpa [Announced] using hnot) hrun).not_clean rfl hchanged
  | applyRestart record =>
    obtain ⟨r, hrun⟩ := void_ok h
    obtain ⟨m, hm, hwith⟩ := applyRestart_ok hrun
    have hstill := still_restartWith (Bool.eq_false_iff.mpr hnot)
    exact (hm.trans (hstill.silent.unmoved hwith)).not_clean rfl hchanged
  | cloneVolumeFromSnapshot id snap name => exact Silent.not_clean (silent_cloneVolumeFromSnapshot id snap name) h hchanged
  | updateVmSnapshot id name notes =>
    rw [Announced, Option.not_isSome_iff_eq_none] at hnot
    subst hnot
    exact Silent.not_clean (silent_updateVmSnapshot id name) h hchanged
  | pullMissingVolumes vm => exact Silent.not_clean (silent_pullMissingVolumes vm) h hchanged
  | applyEnsureVolume record => exact Silent.not_clean (silent_ensureLocal record) h hchanged
  | applyVolumeBlob id len => exact Silent.not_clean (silent_edit _ _ id) h hchanged
  | applyDeleteReplica id => exact Silent.not_clean (silent_removeVolume id) h hchanged
  | fenceLocal => exact Silent.not_clean silent_fenceLocal h hchanged
  | rebuildVolumes => exact Silent.not_clean silent_rebuildVolumes h hchanged
  | cloneVm | cloneVmFromSnapshot | createVmSnapshot | runDueBackupSchedules
  | snapshotGuestScheduled => cases hsingle
  | _ => exact absurd trivial hnot

end

def webGuest (state : VmState) : VmRecord :=
  { id := .numeric 100, spec := { name := "web" }, state := state, nodeId := some 1 }

/-- A node with one guest, and a volume that no guest has. -/
def deskBook (state : VmState) : Book where
  node := ((Node.fresh 1).upsertVm (webGuest state)).putRecord
    { id := 7, name := "data", format := .raw, sizeBytes := 1024, path := .disk 7 .raw }

def quietEnv : Env where
  answers _ := {}

def stopped : Except DaemonError Unit × Noted Book.generation :=
  perform quietEnv (.stopLocal (.numeric 100)) (Noted.ofState (deskBook .running))

end Pertisk.Service
