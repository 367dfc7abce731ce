import Pertisk.Service.Clones

namespace Pertisk.Service
open Lib Op Volume Storage

variable (env : Env)

/-- Mark a VM stopped after its process exits without an API stop. -/
def onGuestExited (id : VmId) : Op Unit := do
  let record ← getVm id
  let n ← node
  if record.state = .running ∧ record.nodeId = some n.cluster.selfId then do
    ignore (run env (fun text => text))
    let _ ← settle env record
    pure ()
  else pure ()

/-- Correct stale Running state, and stop guests this node no longer owns. -/
def reconcileLocalVms : Op Unit := do
  let n ← node
  each n.store.rows (fun vm => do
    let o ← ask env
    let mine := vm.nodeId == some n.cluster.selfId
    if o.yes && !mine then ignore (run env (fun text => text))
    else if mine && vm.state == .running && !o.yes then ignore (onGuestExited env vm.id)
    else pure ())

/-- Quorum is lost: the guests of this node are stopped. -/
def fenceLocal : Op Unit := do
  let n ← node
  each n.store.rows (fun vm =>
    if vm.nodeId = some n.cluster.selfId ∧ vm.state = .running then do
      ignore (run env (fun text => text))
      upsertVm { vm with state := .stopped }
    else pure ())

/-- The disks of a guest that is to move are brought to the destination. -/
def prepareMove (moving : VmRecord) (dest : NodeId) : Op Unit := do
  let n ← node
  if dest = n.cluster.selfId then do
    let pulled ← Proc.attempt (pullMissingVolumes env moving)
    check (pulled.mapError (fun err =>
      .other s!"cluster peer: ha pull volumes for {moving.id.text} failed: {err.text}"))
  else ensureVolumesOnNode env moving dest

def afterMove (vm : VmRecord) : Except DaemonError VmRecord → Op Unit
  | .ok started => do
    ignore (run env (fun text => text))
    upsertVm started
  | .error err => upsertVm (vm.failed err.text)

/-- The guest of a lost node is run on another, or marked as failed. -/
def moveGuest (vm : VmRecord) (dest : NodeId) : Op Unit := do
  let moving := { vm with nodeId := some dest, state := .created }
  let prepared ← Proc.attempt (prepareMove env moving dest)
  match prepared with
  | .error err => upsertVm (vm.failed err.text)
  | .ok _ => do
    let started ← Proc.attempt (peerRun env dest moving)
    afterMove env vm started
    bump

/-- Nothing is done where no node has room, or only the lost one. -/
def moveTo (vm : VmRecord) (owner : NodeId) : Option NodeId → Op Unit
  | none => pure ()
  | some dest => if dest = owner then pure () else moveGuest env vm dest

def recoverGuest (loads : List NodeLoad) (vm : VmRecord) : Op Unit := do
  let isOnline (id : NodeId) : Bool := loads.any (fun load => load.id == id && load.online)
  let n ← node
  match vm.nodeId with
  | none => pure ()
  | some owner =>
    if vm.template || !vm.spec.ha || vm.state != .running || isOnline owner then pure ()
    else if !n.guestCanHaRestart vm then do
      upsertVm (vm.failed "HA restart needs Ceph RBD disks; local files stay on the lost node")
      bump
    else
      let affinity := (n.volumeAffinity vm.spec).filter isOnline
      moveTo env vm owner (scheduleSpread loads vm.spec affinity.head? affinity
        (n.groupNodes vm.spec (some vm.id)))

def recoverHa : Op Unit := do
  let o ← ask env
  let n ← node
  if n.cluster.haArmed then each n.store.rows (recoverGuest env (n.loads o.nowMs)) else pure ()

/-- Replicas that are offline are left out of a volume's record and others put in; then the
copies are made. -/
def rebuildVolume (online : List NodeId) (vol : VolumeRecord) : Op Unit := do
  let n ← node
  if vol.backend.external ∨ (n.volumeUsers vol.id = [] ∧ n.volumeIsBacking vol.id = false) then
    pure ()
  else do
    let vol := rebuiltRecord online n.cluster.selfId vol
    ignore (putRecord vol)
    ensureReplicas env vol
    let o ← ask env
    if o.yes then syncVolumeReplicas env vol
    else if vol.replicas.any (· ≠ n.cluster.selfId) then do
      ignore (ensureLocal env vol)
      ignore (run env (fun text => text))
    else pure ()

def rebuildVolumes : Op Unit := do
  let o ← ask env
  let n ← node
  each n.listVolumes (rebuildVolume env (n.cluster.onlineIds o.nowMs))

def applyEnsureVolume (record : VolumeRecord) : Op VolumeRecord := ensureLocal env record

/-- `apply_volume_blob` and `apply_volume_blob_path`. -/
def applyVolumeBlob (id : VolumeId) (len : Nat) : Op VolumeRecord :=
  edit env true (.writeBlob len) id

def applyDeleteReplica (id : VolumeId) : Op Unit := removeVolume id

section
variable {env : Env} {b b' : Noted Book.generation}

theorem steady_onGuestExited (id : VmId) : Proc.Steady (onGuestExited env id) := by
  refine (still_getVm id).steady.bind (fun record => still_node.steady.bind (fun n => ?_))
  split
  · refine (still_ignore (still_run env _)).steady.bind (fun _ => Proc.Steady.bind ?_ (fun _ => ?_))
    · exact steady_write_bump ((still_syncVmVolumes _).bind (fun _ => .pure _)).steady
    · exact (Proc.Still.pure _).steady
  · exact (Proc.Still.pure _).steady

theorem keeps_reconcileLocalVms : Proc.Keeps (reconcileLocalVms env) := by
  refine still_node.keeps.bind (fun n => .each (fun vm _ => ?_))
  refine (still_ask env).keeps.bind (fun o => ?_)
  dsimp only
  split
  · exact (still_ignore (still_run env _)).keeps
  · split
    · exact ((steady_onGuestExited vm.id).attempt.bind (fun _ => (Proc.Still.pure _).steady)).keeps
    · exact (Proc.Still.pure _).keeps

theorem ensureVolumeOn_rbd {dest : NodeId} {id : VolumeId}
    (h : ∀ vol, b.state.node.getVolume id = some vol → vol.backend = .rbd) :
    ensureVolumeOn env dest id b = (.ok (), b) := by
  unfold ensureVolumeOn
  rw [Proc.bind_run]
  cases hvol : b.state.node.getVolume id with
  | none =>
    simp only [node, Proc.look, hvol]
    rfl
  | some vol =>
    simp only [node, Proc.look, hvol, h vol hvol, if_true]
    rfl

theorem pullVolume_rbd {id : VolumeId}
    (h : ∀ vol, b.state.node.getVolume id = some vol → vol.backend = .rbd) :
    pullVolume env id b = (.ok (), b) := by
  unfold pullVolume
  rw [Proc.bind_run]
  cases hvol : b.state.node.getVolume id with
  | none =>
    simp only [node, Proc.look, hvol]
    rfl
  | some vol =>
    simp only [node, Proc.look, hvol, h vol hvol, StorageBackend.external, if_true]
    rfl

/-- The disks of a guest that may be restarted elsewhere are all in Ceph. -/
theorem rbd_of_guestCanHaRestart {n : Node} {vm : VmRecord} (h : n.guestCanHaRestart vm = true)
    {id : VolumeId} (hid : id ∈ vm.spec.disks.filterMap DiskSpec.volumeId) {vol : VolumeRecord}
    (hvol : n.getVolume id = some vol) : vol.backend = .rbd := by
  obtain ⟨disk, hdisk, hv⟩ := List.mem_filterMap.mp hid
  simp only [Node.guestCanHaRestart, disksAreHaDurable, Bool.or_eq_true, List.all_eq_true] at h
  rcases h with hnil | hall
  · rw [List.isEmpty_iff.mp hnil] at hdisk
    cases hdisk
  · have hdurable := hall disk hdisk
    simp only [hv, Option.bind_some, hvol, Option.map_some] at hdurable
    cases hbackend : vol.backend with
    | rbd => rfl
    | replica => simp [hbackend, StorageBackend.haDurable] at hdurable
    | zfs => simp [hbackend, StorageBackend.haDurable] at hdurable

theorem prepareMove_durable {vm moving : VmRecord} {dest : NodeId} (hspec : moving.spec = vm.spec)
    (h : b.state.node.guestCanHaRestart vm = true) :
    prepareMove env moving dest b = (.ok (), b) := by
  have hrbd : ∀ id ∈ moving.spec.disks.filterMap DiskSpec.volumeId, ∀ vol,
      b.state.node.getVolume id = some vol → vol.backend = .rbd := by
    intro id hid vol hvol
    rw [hspec] at hid
    exact rbd_of_guestCanHaRestart h hid hvol
  have hpull : pullMissingVolumes env moving b = (.ok (), b) :=
    Proc.each_same (fun id hid => pullVolume_rbd (hrbd id hid))
  have hensure : each (moving.spec.disks.filterMap DiskSpec.volumeId)
      (ensureVolumeOn env dest) b = (.ok (), b) :=
    Proc.each_same (fun id hid => ensureVolumeOn_rbd (hrbd id hid))
  unfold prepareMove
  rw [Proc.bind_run]
  simp only [node, Proc.look]
  split
  · rw [Proc.bind_run]
    simp only [Proc.attempt, id_eq, hpull]
    rfl
  · unfold ensureVolumesOnNode
    rw [Proc.bind_run]
    simp only [node, Proc.look, id_eq]
    rw [if_neg (by assumption)]
    exact hensure

theorem moveGuest_clean {vm : VmRecord} {dest : NodeId} {u : Unit}
    (hcan : b.state.node.guestCanHaRestart vm = true)
    (h : moveGuest env vm dest b = (.ok u, b')) : b'.Clean := by
  obtain ⟨prepared, m, hprepared, h⟩ := Proc.bind_ok h
  have hsame : prepareMove env { vm with nodeId := some dest, state := .created } dest b =
      (.ok (), b) := prepareMove_durable rfl hcan
  simp only [Proc.attempt, hsame] at hprepared
  cases hprepared
  have hrest := Proc.Settles.of_bind
    (p := Proc.attempt (peerRun env dest { vm with nodeId := some dest, state := .created }))
    (fun started => Proc.Settles.of_bind (p := afterMove env vm started) (fun _ => settles_bump))
  exact hrest b u b' h

theorem moveTo_clean {vm : VmRecord} {owner : NodeId} {picked : Option NodeId} {u : Unit}
    (hb : b.Clean) (hcan : b.state.node.guestCanHaRestart vm = true)
    (h : moveTo env vm owner picked b = (.ok u, b')) : b'.Clean := by
  cases picked with
  | none => exact (Proc.Still.pure _).keeps _ u b' hb h
  | some dest =>
    simp only [moveTo] at h
    split at h
    · exact (Proc.Still.pure _).keeps _ u b' hb h
    · exact moveGuest_clean hcan h

theorem keeps_recoverGuest (loads : List NodeLoad) (vm : VmRecord) :
    Proc.Keeps (recoverGuest env loads vm) := by
  intro b u b' hb h
  obtain ⟨n, m, hnode, h⟩ := Proc.bind_ok h
  cases hnode
  dsimp only at h
  cases hnode : vm.nodeId with
  | none =>
    simp only [hnode] at h
    exact (Proc.Still.pure _).keeps _ u b' hb h
  | some owner =>
    simp only [hnode] at h
    split at h
    · exact (Proc.Still.pure _).keeps _ u b' hb h
    · split at h
      · exact (Proc.Settles.of_bind (fun _ => settles_bump)).keeps _ u b' hb h
      · rename_i hcan
        simp only [Bool.not_eq_true', Bool.not_eq_false] at hcan
        exact moveTo_clean hb hcan h

theorem keeps_recoverHa : Proc.Keeps (recoverHa env) := by
  refine (still_ask env).keeps.bind (fun o => still_node.keeps.bind (fun n => ?_))
  split
  · exact .each (fun vm _ => keeps_recoverGuest _ vm)
  · exact (Proc.Still.pure _).keeps

theorem silent_fenceLocal : Proc.Silent (fenceLocal env) := by
  refine still_node.silent.bind (fun n => .each (fun vm => ?_))
  split
  · exact (still_ignore (still_run env _)).silent.bind (fun _ => silent_upsertVm _)
  · exact (Proc.Still.pure _).silent

theorem silent_rebuildVolumes : Proc.Silent (rebuildVolumes env) := by
  refine (still_ask env).silent.bind (fun o => still_node.silent.bind (fun n => .each (fun vol => ?_)))
  refine still_node.silent.bind (fun n => ?_)
  split
  · exact (Proc.Still.pure _).silent
  · refine (silent_ignore (silent_putRecord _)).bind (fun _ => ?_)
    refine (silent_ensureReplicas _).bind (fun _ => (still_ask env).silent.bind (fun o => ?_))
    split
    · exact (still_syncVolumeReplicas _).silent
    · split
      · refine (silent_ignore (silent_ensureLocal _)).bind (fun _ => ?_)
        exact silent_ignore (still_run env _).silent
      · exact (Proc.Still.pure _).silent

end

end Pertisk.Service
