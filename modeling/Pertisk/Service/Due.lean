import Pertisk.Service.Scheduled
import Pertisk.Storage.Copies

namespace Pertisk.Service
open Lib Op Volume Storage

/-- Guests are tried in turn until one succeeds, which is the answer. -/
def firstDone (attempt : VmId → Op Unit) : List VmId → Op (Option VmId)
  | [] => pure none
  | id :: rest => do
    let done ← Proc.attempt (attempt id)
    match done with
    | .ok _ => pure (some id)
    | .error _ => firstDone attempt rest

/-- One kind of schedule: whose turn it is, and how many get one in a run. -/
structure Timer where
  sched : VmSpec → Option VmSchedule
  fit : VmRecord → Bool
  tries : ℕ
  attempt : VmId → ℕ → Op Unit

variable (env : Env)

/-- The guest that was done is not told to anybody. -/
def Timer.run (t : Timer) : Op (Option VmId) := do
  let o ← ask env
  let n ← node
  if n.cluster.hasQuorum o.nowMs then
    firstDone (fun id => t.attempt id (o.nowMs / 1000))
      ((due n (o.nowMs / 1000) t.sched t.fit).take t.tries)
  else pure none

def snapshotTimer : Timer where
  sched := VmSpec.snapshot
  fit _ := true
  tries := 8
  attempt := snapshotGuestScheduled env

def backupScheduled (id : VmId) (now : ℕ) : Op Unit := do
  ignore (get env id)
  createVmBackup env id
  noteRun env now (fun spec f => { spec with backup := spec.backup.map f }) id

def backupTimer : Timer where
  sched := VmSpec.backup
  fit vm := vm.state != .running
  tries := 1
  attempt := backupScheduled env

def runDueSnapshotSchedules : Op Unit := do
  let _ ← (snapshotTimer env).run env
  pure ()

section turns

/-- The state once these guests have had their turn. -/
def afterTurns (attempt : VmId → Op Unit) :
    List VmId → Noted Book.generation → Noted Book.generation
  | [], b => b
  | id :: rest, b => afterTurns attempt rest (attempt id b).2

/-- The guest at this place would succeed when those before it have had their turn. -/
def Succeeds (attempt : VmId → Op Unit) (ids : List VmId) (i : ℕ) (b : Noted Book.generation) :
    Prop :=
  ∃ id, ids[i]? = some id ∧ (attempt id (afterTurns attempt (ids.take i) b)).1 = .ok ()

namespace Timer

variable (t : Timer) (b : Noted Book.generation)

def nowMs : ℕ := (env.answers b.state.asked).nowMs

/-- Whose schedules are due when the run looks. -/
def waiting : List VmId := due b.state.node (nowMs env b / 1000) t.sched t.fit

/-- The guest at this place of those due would succeed in this run. -/
def Would (i : ℕ) : Prop :=
  Succeeds (fun id => t.attempt id (nowMs env b / 1000)) (t.waiting env b) i (ask env b).2

/-- The run completes one. -/
def Completes : Prop := ∃ id, (t.run env b).1 = .ok (some id)

/-- One that gets a turn would succeed. -/
def InReach : Prop :=
  b.state.node.cluster.hasQuorum (nowMs env b) = true ∧ ∃ i < t.tries, t.Would env b i

end Timer

variable {attempt : VmId → Op Unit} {ids : List VmId} {b : Noted Book.generation} {env : Env}
  {t : Timer}

theorem succeeds_cons_zero {id : VmId} :
    Succeeds attempt (id :: ids) 0 b ↔ (attempt id b).1 = .ok () := by
  simp [Succeeds, afterTurns]

theorem succeeds_cons_succ {id : VmId} {i : ℕ} :
    Succeeds attempt (id :: ids) (i + 1) b ↔ Succeeds attempt ids i (attempt id b).2 := by
  simp [Succeeds, afterTurns]

theorem succeeds_take {i k : ℕ} :
    Succeeds attempt (ids.take k) i b ↔ i < k ∧ Succeeds attempt ids i b := by
  unfold Succeeds
  by_cases hi : i < k
  · rw [and_iff_right hi, List.getElem?_take_of_lt hi, List.take_take, Nat.min_eq_left hi.le]
  · refine iff_of_false ?_ (fun h => hi h.1)
    rintro ⟨id, hid, -⟩
    rw [List.getElem?_take_eq_none (Nat.le_of_not_lt hi)] at hid
    cases hid

/-- One is done exactly when one would succeed at its turn: those before it fail. -/
theorem firstDone_some_iff :
    (∃ id, (firstDone attempt ids b).1 = .ok (some id)) ↔ ∃ i, Succeeds attempt ids i b := by
  induction ids generalizing b with
  | nil =>
    refine iff_of_false ?_ ?_
    · rintro ⟨id, h⟩
      cases h
    · rintro ⟨i, id, h, -⟩
      cases h
  | cons id ids ih =>
    unfold firstDone
    rw [Proc.bind_run]
    show (∃ done, ((match (attempt id b).1 with
      | .ok _ => pure (some id)
      | .error _ => firstDone attempt ids : Op (Option VmId)) (attempt id b).2).1 =
        .ok (some done)) ↔ _
    cases hdone : (attempt id b).1 with
    | ok u => exact iff_of_true ⟨id, rfl⟩ ⟨0, succeeds_cons_zero.mpr hdone⟩
    | error e =>
      refine ih.trans ⟨fun ⟨i, h⟩ => ⟨i + 1, succeeds_cons_succ.mpr h⟩, ?_⟩
      rintro ⟨i, h⟩
      cases i with
      | zero =>
        rw [succeeds_cons_zero, hdone] at h
        cases h
      | succ i => exact ⟨i, succeeds_cons_succ.mp h⟩

theorem Timer.run_eq : t.run env b =
    (if b.state.node.cluster.hasQuorum (nowMs env b) then
      firstDone (fun id => t.attempt id (nowMs env b / 1000)) ((t.waiting env b).take t.tries)
    else pure none : Op (Option VmId)) (ask env b).2 := rfl

theorem Timer.completes_iff : t.Completes env b ↔ t.InReach env b := by
  unfold Completes InReach
  rw [Timer.run_eq]
  split
  · rename_i hquorum
    rw [and_iff_right hquorum, firstDone_some_iff]
    simp only [succeeds_take, Would]
  · rename_i hquorum
    refine iff_of_false ?_ (fun h => hquorum h.1)
    rintro ⟨id, h⟩
    cases h

/-- Noting a run cannot fail. -/
theorem noteRun_ok (now : ℕ) (note : VmSpec → (VmSchedule → VmSchedule) → VmSpec) (id : VmId) :
    (noteRun env now note id b).1 = .ok () := by
  unfold noteRun
  rw [Proc.bind_run, Proc.attempt]
  obtain ⟨e | vm, b'⟩ := get env id b
  · rfl
  · rfl

theorem firstDone_one (attempt : VmId → Op Unit) (id : VmId) (b : Noted Book.generation) :
    ∃ o, firstDone attempt [id] b = (.ok o, (attempt id b).2) := by
  rw [firstDone, Proc.bind_run, Proc.attempt]
  rcases attempt id b with ⟨r, m⟩
  cases r with
  | ok u => exact ⟨some id, rfl⟩
  | error e => exact ⟨none, rfl⟩

/-- A backup of one guest, with its failure kept to itself. -/
theorem backupScheduled_state (now : ℕ) (id : VmId) :
    (do
      ignore (get env id)
      let done ← Proc.attempt (createVmBackup env id)
      match done with
      | .error _ => pure ()
      | .ok _ =>
        noteRun env now (fun spec f => { spec with backup := spec.backup.map f }) id : Op Unit) b =
      (.ok (), (backupScheduled env id now b).2) := by
  have hleft : ∀ m, (do
      let done ← Proc.attempt (createVmBackup env id)
      match done with
      | .error _ => pure ()
      | .ok _ =>
        noteRun env now (fun spec f => { spec with backup := spec.backup.map f }) id : Op Unit) m =
      (.ok (), ((do
        createVmBackup env id
        noteRun env now (fun spec f => { spec with backup := spec.backup.map f }) id) m).2) := by
    intro m
    rw [Proc.bind_run, Proc.bind_run, Proc.attempt]
    rcases createVmBackup env id m with ⟨r, m'⟩
    cases r with
    | error e => rfl
    | ok u => exact Prod.ext (noteRun_ok now _ id) rfl
  exact hleft (get env id b).2

/-- The scheduled backups are the timer's with one try. -/
theorem runDueBackupSchedules_eq (env : Env) :
    runDueBackupSchedules env = (do
      let _ ← (backupTimer env).run env
      pure ()) := by
  funext b
  have hleft : runDueBackupSchedules env b =
      (if b.state.node.cluster.hasQuorum (Timer.nowMs env b) then
        match (backupTimer env).waiting env b with
        | [] => pure ()
        | id :: _ => do
          ignore (get env id)
          let done ← Proc.attempt (createVmBackup env id)
          match done with
          | .error _ => pure ()
          | .ok _ =>
            noteRun env (Timer.nowMs env b / 1000)
              (fun spec f => { spec with backup := spec.backup.map f }) id
      else pure () : Op Unit) (ask env b).2 := rfl
  rw [hleft, Proc.bind_run, Timer.run_eq]
  split
  · cases hwaiting : (backupTimer env).waiting env b with
    | nil => rfl
    | cons id rest =>
      obtain ⟨o, hdone⟩ := firstDone_one
        (fun id => backupScheduled env id (Timer.nowMs env b / 1000)) id (ask env b).2
      have hone : firstDone (fun id => (backupTimer env).attempt id (Timer.nowMs env b / 1000))
          ((id :: rest).take (backupTimer env).tries) (ask env b).2 = _ := hdone
      rw [hone]
      exact backupScheduled_state _ id
  · rfl

/-- One of the guests due is done, where one would succeed, exactly when one that gets a turn
would. -/
theorem not_starved_iff (env : Env) (b : Noted Book.generation) :
    (((∃ i, (snapshotTimer env).Would env b i) → (snapshotTimer env).Completes env b) ∧
      ((∃ i, (backupTimer env).Would env b i) → (backupTimer env).Completes env b)) ↔
    (((∃ i, (snapshotTimer env).Would env b i) → (snapshotTimer env).InReach env b) ∧
      ((∃ i, (backupTimer env).Would env b i) → (backupTimer env).InReach env b)) := by
  rw [Timer.completes_iff, Timer.completes_iff]

/-- A stopped guest of node 1 whose backup is due. -/
def dueGuest (id : VmId) (disks : List DiskSpec) : VmRecord where
  id := id
  spec := { name := "vm", disks := disks, backup := some { enabled := true } }
  state := .stopped
  nodeId := some 1

/-- Guest 100 has no disks to back up, and guest 101 has. -/
def twoDue : Noted Book.generation :=
  .ofState { node := (((Node.fresh 1).putRecord twoBytes).upsertVm
    (dueGuest (.numeric 100) [])).upsertVm (dueGuest (.numeric 101) twoBytesSpec.disks) }

def readyEnv : Env where
  answers _ := { yes := true }

theorem twoDue_waiting :
    (backupTimer readyEnv).waiting readyEnv twoDue = [.numeric 100, .numeric 101] := by
  have hsorted : [(VmId.numeric 100, 0), (VmId.numeric 101, 0)].Pairwise (fun a b =>
      decide (b.2 < a.2) || (a.2 == b.2 && decide (a.1 ≤ b.1))) := by
    have hle : VmId.numeric 100 ≤ VmId.numeric 101 := by decide
    simp [hle]
  exact congrArg (List.map Prod.fst) (List.mergeSort_of_pairwise hsorted)

/-- Guest 101 never gets a turn. -/
theorem first_due_blocks :
    ¬ ∀ (env : Env) (b : Noted Book.generation),
      ((∃ i, (snapshotTimer env).Would env b i) → (snapshotTimer env).Completes env b) ∧
        ((∃ i, (backupTimer env).Would env b i) → (backupTimer env).Completes env b) := by
  intro h
  have hwould : (backupTimer readyEnv).Would readyEnv twoDue 1 := by
    rw [Timer.Would, twoDue_waiting]
    exact ⟨.numeric 101, rfl, rfl⟩
  obtain ⟨id, hid⟩ := (h readyEnv twoDue).2 ⟨1, hwould⟩
  rw [Timer.run_eq, twoDue_waiting] at hid
  cases hid

end turns

end Pertisk.Service
