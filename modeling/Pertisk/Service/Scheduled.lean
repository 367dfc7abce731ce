import Pertisk.Service.Clones

namespace Pertisk.Service
open Lib Op Volume Storage

variable (env : Env)

/-- Guests of this node whose schedule is due, the longest waiting first. -/
def due (n : Node) (now : Nat) (sched : VmSpec → Option VmSchedule) (fit : VmRecord → Bool) :
    List VmId :=
  let waiting (vm : VmRecord) : Option (VmId × Nat) :=
    match sched vm.spec with
    | none => none
    | some s =>
      let elapsed := now - s.lastRunUnix
      if vm.template || !fit vm || vm.nodeId != some n.cluster.selfId || !s.enabled ||
          s.intervalHours == 0 ||
          (decide (0 < s.lastRunUnix) && decide (elapsed < saturatingMul s.intervalHours 3600))
      then none
      else some (vm.id, elapsed)
  ((n.store.rows.filterMap waiting).mergeSort (fun a b =>
    decide (b.2 < a.2) || (a.2 == b.2 && decide (a.1 ≤ b.1)))).map Prod.fst

/-- The images of a stopped guest's disks are copied aside; the maps stay. -/
def createVmBackup (id : VmId) : Op Unit := do
  let vm ← getVm id
  requireNotTemplate vm "backup"
  requireStopped vm "backup"
  each (diskVolumes vm) (fun volumeId => do
    let vol ← getVolume volumeId
    demand (vol.backend.external = false) (invalidSpec (Host.backendText vol.backend ++
      " volumes cannot be backed up with the local export path yet"))
    let o ← ask env
    demand (o.yes = true) (invalidSpec s!"volume {vol.name} has no local image to export"))
  demand (diskVolumes vm ≠ []) (invalidSpec "guest has no disks to back up")
  run env (fun text => text)

/-- `get` once more, and the run is noted in the record; the counter moves. -/
def noteRun (now : Nat) (note : VmSpec → (VmSchedule → VmSchedule) → VmSpec) (id : VmId) :
    Op Unit := do
  let vm ← Proc.attempt (get env id)
  match vm with
  | .error _ => pure ()
  | .ok vm => do
    upsertVm { vm with spec := note vm.spec (fun sched => { sched with lastRunUnix := now }) }
    bump

/-- Run at most one due scheduled backup. -/
def runDueBackupSchedules : Op Unit := do
  let o ← ask env
  let n ← node
  if n.cluster.hasQuorum o.nowMs then
    match due n (o.nowMs / 1000) VmSpec.backup (fun vm => vm.state != .running) with
    | [] => pure ()
    | id :: _ => do
      ignore (get env id)
      let done ← Proc.attempt (createVmBackup env id)
      match done with
      | .error _ => pure ()
      | .ok _ =>
        noteRun env (o.nowMs / 1000) (fun spec f => { spec with backup := spec.backup.map f }) id
  else pure ()

/-- A name is kept with the last time that a snapshot of it was taken. -/
def addName (names : List (String × Nat)) (snap : VolumeSnapshot) : List (String × Nat) :=
  if names.any (fun e => e.1 == snap.name) then
    names.map (fun e => if e.1 = snap.name then (e.1, max e.2 snap.createdUnix) else e)
  else names ++ [(snap.name, snap.createdUnix)]

/-- The names that the scheduler gave to snapshots of these volumes, the newest first. -/
def scheduledNames (records : List VolumeRecord) : List String :=
  let snaps := (records.flatMap VolumeRecord.snapshots).filter
    (fun snap => snap.name.startsWith "sched-")
  ((snaps.foldl addName []).mergeSort (fun a b =>
    decide (b.2 < a.2) || (a.2 == b.2 && decide (b.1 ≤ a.1)))).map Prod.fst

def diskRecords : List VolumeId → Op (List VolumeRecord)
  | [] => pure []
  | id :: rest => do
    let record ← getVolume id
    let others ← diskRecords rest
    pure (record :: others)

/-- The scheduler's snapshots beyond the newest `keep` are deleted; the others stay. -/
def pruneScheduledSnapshots (id : VmId) (keep : Nat) : Op Unit := do
  if keep = 0 then pure ()
  else do
    let vm ← get env id
    let records ← diskRecords (diskVolumes vm)
    each ((scheduledNames records).drop keep) (deleteNamedSnapshot env vm)

def snapshotOnce (name : String) (volumeId : VolumeId) : Op Unit := do
  let record ← getVolume volumeId
  if record.hasSnapshot name then pure ()
  else do
    let _ ← snapshotVolume env volumeId name none
    pure ()

def snapshotGuestScheduled (id : VmId) (now : Nat) : Op Unit := do
  let vm ← get env id
  let keep := (vm.spec.snapshot.map VmSchedule.keep).getD 0
  demand (diskVolumes vm ≠ []) (.other "guest has no disks to snapshot")
  each (diskVolumes vm) (snapshotOnce env s!"sched-{now}")
  noteRun env now (fun spec f => { spec with snapshot := spec.snapshot.map f }) id
  ignore (pruneScheduledSnapshots env id keep)

/-- After one more run the scheduler's snapshots of the guest are no more than are kept. -/
def keepsAll (n : Node) (vm : VmRecord) (now : Nat) : Bool :=
  let keep := (vm.spec.snapshot.map VmSchedule.keep).getD 0
  let names := scheduledNames ((diskVolumes vm).filterMap n.getVolume)
  keep == 0 || decide ((names.insert (trimmed s!"sched-{now}")).length ≤ keep)

section
variable {env : Env} {b b' : Noted Book.generation}

theorem still_createVmBackup (id : VmId) : Proc.Still (createVmBackup env id) := by
  refine (still_getVm id).bind (fun vm => (still_demand _ _).bind (fun _ => ?_))
  refine (still_demand _ _).bind (fun _ => Proc.Still.bind (.each (fun v => ?_)) (fun _ => ?_))
  · refine (still_getVolume v).bind (fun vol => (still_demand _ _).bind (fun _ => ?_))
    exact (still_ask env).bind (fun o => still_demand _ _)
  · exact (still_demand _ _).bind (fun _ => still_run env _)

theorem keeps_noteRun (hquiet : env.Quiet) (now : Nat)
    (note : VmSpec → (VmSchedule → VmSchedule) → VmSpec) (id : VmId) :
    Proc.Keeps (noteRun env now note id) := by
  refine (still_get hquiet id).attempt.keeps.bind (fun vm => ?_)
  split
  · exact (Proc.Still.pure _).keeps
  · exact (Proc.Settles.of_bind (fun _ => settles_bump)).keeps

theorem keeps_runDueBackupSchedules (hquiet : env.Quiet) :
    Proc.Keeps (runDueBackupSchedules env) := by
  refine (still_ask env).keeps.bind (fun o => still_node.keeps.bind (fun n => ?_))
  split
  · split
    · exact (Proc.Still.pure _).keeps
    · rename_i id _ _
      refine (still_ignore (still_get hquiet id)).keeps.bind (fun _ => ?_)
      refine (still_createVmBackup id).attempt.keeps.bind (fun done => ?_)
      split
      · exact (Proc.Still.pure _).keeps
      · exact keeps_noteRun hquiet _ _ id
  · exact (Proc.Still.pure _).keeps

theorem addName_fst (names : List (String × Nat)) (snap : VolumeSnapshot) :
    (addName names snap).map Prod.fst =
      if snap.name ∈ names.map Prod.fst then names.map Prod.fst
      else names.map Prod.fst ++ [snap.name] := by
  have hany : names.any (fun e => e.1 == snap.name) = true ↔ snap.name ∈ names.map Prod.fst := by
    simp only [List.any_eq_true, beq_iff_eq, List.mem_map]
  unfold addName
  by_cases h : snap.name ∈ names.map Prod.fst
  · rw [if_pos (hany.mpr h), if_pos h, List.map_map]
    refine List.map_congr_left (fun e _ => ?_)
    simp only [Function.comp_apply]
    split <;> rfl
  · rw [if_neg (fun hc => h (hany.mp hc)), if_neg h, List.map_append]
    rfl

theorem foldl_addName_nodup (snaps : List VolumeSnapshot) (names : List (String × Nat))
    (h : (names.map Prod.fst).Nodup) : ((snaps.foldl addName names).map Prod.fst).Nodup := by
  induction snaps generalizing names with
  | nil => exact h
  | cons snap snaps ih =>
    refine ih _ ?_
    rw [addName_fst]
    split
    · exact h
    · rename_i hnew
      refine List.nodup_append.mpr ⟨h, List.pairwise_singleton _ _, fun a ha c hc hac => ?_⟩
      rw [List.mem_singleton.mp hc] at hac
      exact hnew (hac ▸ ha)

theorem mem_foldl_addName {name : String} (snaps : List VolumeSnapshot)
    (names : List (String × Nat)) : name ∈ (snaps.foldl addName names).map Prod.fst ↔
      name ∈ names.map Prod.fst ∨ ∃ snap ∈ snaps, snap.name = name := by
  induction snaps generalizing names with
  | nil => simp
  | cons snap snaps ih =>
    have hstep : name ∈ (addName names snap).map Prod.fst ↔
        name ∈ names.map Prod.fst ∨ snap.name = name := by
      rw [addName_fst]
      split
      · rename_i hold
        exact ⟨.inl, fun h => h.elim id (fun h => h ▸ hold)⟩
      · rw [List.mem_append, List.mem_singleton, eq_comm (a := name)]
    rw [List.foldl_cons, ih, hstep, or_assoc, List.exists_mem_cons_iff]

theorem scheduledNames_nodup (records : List VolumeRecord) : (scheduledNames records).Nodup :=
  ((List.mergeSort_perm _ _).map _).nodup_iff.mpr (foldl_addName_nodup _ _ List.nodup_nil)

theorem mem_scheduledNames {records : List VolumeRecord} {name : String} :
    name ∈ scheduledNames records ↔ name.startsWith "sched-" = true ∧
      ∃ record ∈ records, ∃ snap ∈ record.snapshots, snap.name = name := by
  rw [scheduledNames, ((List.mergeSort_perm _ _).map _).mem_iff, mem_foldl_addName]
  simp only [List.map_nil, List.not_mem_nil, false_or, List.mem_filter, List.mem_flatMap]
  constructor
  · rintro ⟨snap, ⟨⟨record, hrecord, hsnap⟩, hsched⟩, rfl⟩
    exact ⟨hsched, record, hrecord, snap, hsnap, rfl⟩
  · rintro ⟨hsched, record, hrecord, snap, hsnap, rfl⟩
    exact ⟨snap, ⟨⟨record, hrecord, hsnap⟩, hsched⟩, rfl⟩

theorem keeps_snapshotOnce (name : String) (v : VolumeId) :
    Proc.Keeps (snapshotOnce env name v) := by
  refine (still_getVolume v).keeps.bind (fun record => ?_)
  split
  · exact (Proc.Still.pure _).keeps
  · exact (keeps_snapshotVolumeForward v _ none true).bind (fun _ => (Proc.Still.pure _).keeps)

theorem still_diskRecords (ids : List VolumeId) : Proc.Still (diskRecords ids) := by
  induction ids with
  | nil => exact .pure _
  | cons id ids ih => exact (still_getVolume id).bind (fun _ => ih.bind (fun _ => .pure _))

theorem silent_pruneScheduledSnapshots (id : VmId) (keep : Nat) :
    Proc.Silent (pruneScheduledSnapshots env id keep) := by
  unfold pruneScheduledSnapshots
  split
  · exact (Proc.Still.pure _).silent
  · refine (silent_get id).bind (fun vm => (still_diskRecords _).silent.bind (fun records => ?_))
    exact .each (fun name => silent_deleteNamedSnapshot vm name)

end

end Pertisk.Service
