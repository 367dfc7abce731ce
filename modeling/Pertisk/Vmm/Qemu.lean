import Mathlib.Logic.Function.Basic
import Pertisk.Types

namespace Pertisk.Vmm

/-- A process of this host: the QEMU of a guest, as its command line tells, or any other. -/
structure Proc where
  guest : Option VmId
  /-- The QMP socket it listens on. -/
  qmp : Option PathBuf := none
  deriving DecidableEq

inductive Signal
  | term
  | kill
  deriving DecidableEq

/-- A signal on its way to a pid, with the process that has the pid then; `late` when the guest
has had its whole timeout. -/
structure Sent where
  signal : Signal
  pid : Nat
  target : Option Proc
  late : Bool
  deriving DecidableEq

inductive IoError
  | notFound
  | other (text : String)
  deriving DecidableEq

/-- The driver's child table with the host's processes and files. A child that was not waited for
keeps its pid to itself. -/
structure QemuDriver where
  runDir : String
  children : VmId → Option Nat
  proc : Nat → Option Proc
  files : PathBuf → Bool
  own : ∀ id pid p, children id = some pid → proc pid = some p → p.guest = some id

/-- What a call meets: processes that end when they are told over QMP, the child that ends within
a number of seconds, errors of the wait and of the kill, and processes that are gone when
`kill -TERM` comes back. -/
structure Reaction where
  obeys : String → Nat → Bool
  exits : Nat → Bool
  wait : Option IoError
  kill : Option IoError
  terms : Nat → Bool

namespace QemuDriver

variable (e : Reaction) (d : QemuDriver) (record : VmRecord)

/-- Some processes are gone. -/
def without (gone : Nat → Bool) : QemuDriver :=
  { d with
    proc := fun pid => if gone pid then none else d.proc pid
    own := by
      intro id pid p hchild hp
      split at hp
      · cases hp
      · exact d.own id pid p hchild hp }

def dropChild (id : VmId) : QemuDriver :=
  { d with
    children := Function.update d.children id none
    own := by
      intro j pid p hchild hp
      by_cases hj : j = id
      · subst hj
        rw [Function.update_self] at hchild
        cases hchild
      · rw [Function.update_of_ne hj] at hchild
        exact d.own j pid p hchild hp }

def removeFiles (paths : List PathBuf) : QemuDriver :=
  { d with files := fun path => d.files path && !paths.contains path }

/-- The process that listens on the record's QMP socket, and does as it is told. -/
def told (command : String) (pid : Nat) : Bool :=
  match record.apiSocket with
  | none => false
  | some qmp => d.files qmp && (d.proc pid).any (fun p => p.qmp == some qmp) && e.obeys command pid

def qmpExecute (command : String) : QemuDriver := d.without (d.told e record command)

def waitOrKill (timeout : Nat) : QemuDriver × List Sent × Except IoError Unit :=
  match d.children record.id with
  | some pid =>
    let ended := (d.dropChild record.id).without (· == pid)
    match e.wait with
    | some .notFound => (d.dropChild record.id, [], .ok ())
    | some err => (d.dropChild record.id, [], .error err)
    | none =>
      if (d.proc pid).isNone || e.exits timeout then (ended, [], .ok ())
      else
        match e.kill with
        | none => (ended, [⟨.kill, pid, d.proc pid, true⟩], .ok ())
        | some .notFound => (ended, [], .ok ())
        | some err => (d.dropChild record.id, [], .error err)
  | none =>
    match record.pid.filter (0 < ·) with
    | some pid =>
      (d.without (fun q => q == pid && e.terms q), [⟨.term, pid, d.proc pid, false⟩], .ok ())
    | none => (d, [], .ok ())

/-- Tell the guest over QMP, and wait for it or kill it. -/
def halt (command : String) (timeout : Nat) : QemuDriver × List Sent × Except IoError Unit :=
  (d.qmpExecute e record command).waitOrKill e record timeout

def stop : QemuDriver × List Sent × Except IoError Unit := d.halt e record "quit" 3

def shutdown : QemuDriver × List Sent × Except IoError Unit :=
  d.halt e record "system_powerdown" 120

def destroy : QemuDriver × List Sent × Except IoError Unit :=
  let (d, sent, _) := d.stop e record
  let vars := PathBuf.text s!"{d.runDir}/{record.id.text}.OVMF_VARS.fd"
  (d.removeFiles ([record.apiSocket, record.consoleSocket, record.graphicsSocket].filterMap id ++
    [vars]), sent, .ok ())

/-- No QEMU process of the guest is alive. -/
def Gone (id : VmId) : Prop := ∀ pid p, d.proc pid = some p → p.guest ≠ some id

/-- What ends a process that is alive: it obeys over the record's socket; or it is the driver's
child, and waiting for it or killing it works; or the driver has no child, and it is the
record's pid and is gone at once when it is sent SIGTERM. -/
def ends (command : String) (timeout pid : Nat) : Bool :=
  d.told e record command pid ||
    match d.children record.id with
    | some child => pid == child && e.wait.isNone &&
        (e.exits timeout || e.kill.isNone || e.kill == some .notFound)
    | none => record.pid == some pid && decide (0 < pid) && e.terms pid

variable {e d record} {command : String} {timeout : Nat}

theorem without_proc (gone : Nat → Bool) (pid : Nat) :
    (d.without gone).proc pid = if gone pid then none else d.proc pid := rfl

theorem filter_pid (pid : Option Nat) {q : Nat} :
    pid.filter (0 < ·) = some q ↔ pid = some q ∧ 0 < q := by
  cases pid with
  | none => simp
  | some r =>
    by_cases hr : 0 < r
    · simp only [Option.filter, hr, decide_true, if_true, Option.some.injEq]
      constructor
      · rintro rfl
        exact ⟨rfl, hr⟩
      · exact And.left
    · simp only [Option.filter, hr, decide_false, Bool.false_eq_true, if_false, reduceCtorEq,
        Option.some.injEq, false_iff, not_and]
      rintro rfl
      exact hr

/-- The processes that a call leaves are those that nothing in it ends. -/
theorem halt_proc (pid : Nat) :
    (d.halt e record command timeout).1.proc pid =
      if d.ends e record command timeout pid then none else d.proc pid := by
  unfold halt waitOrKill ends
  have htold : (d.qmpExecute e record command).proc pid =
      if d.told e record command pid then none else d.proc pid := rfl
  have hchildren : (d.qmpExecute e record command).children = d.children := rfl
  rw [hchildren]
  cases hchild : d.children record.id with
  | some child =>
    dsimp only
    cases hwait : e.wait with
    | some err =>
      have hkeep : ((d.qmpExecute e record command).dropChild record.id).proc pid =
          (d.qmpExecute e record command).proc pid := rfl
      cases err <;> simp [hkeep, htold]
    | none =>
      have hended : (((d.qmpExecute e record command).dropChild record.id).without
          (· == child)).proc pid = if d.told e record command pid || pid == child then none
            else d.proc pid := by
        rw [without_proc]
        have hdrop : ((d.qmpExecute e record command).dropChild record.id).proc pid =
          (d.qmpExecute e record command).proc pid := rfl
        rw [hdrop, htold]
        cases d.told e record command pid <;> cases pid == child <;> rfl
      dsimp only
      split
      · rename_i hgone
        rw [hended]
        cases hexits : e.exits timeout with
        | true => simp
        | false =>
          have hnone : (d.qmpExecute e record command).proc child = none := by
            simpa [hexits] using hgone
          by_cases hpid : pid = child
          · subst hpid
            rw [htold] at hnone
            cases ht : d.told e record command pid with
            | true => simp
            | false =>
              rw [ht] at hnone
              simp only [Bool.false_eq_true, if_false] at hnone
              simp [hnone]
          · simp [hpid]
      · rename_i halive
        simp only [Bool.or_eq_true, not_or, Bool.not_eq_true] at halive
        cases hkill : e.kill with
        | none => simp [hended]
        | some err =>
          cases err with
          | notFound => simp [hended]
          | other text =>
            have hkeep : ((d.qmpExecute e record command).dropChild record.id).proc pid =
              (d.qmpExecute e record command).proc pid := rfl
            simp [hkeep, htold, halive.2]
  | none =>
    dsimp only
    cases hpid : record.pid.filter (0 < ·) with
    | some q =>
      obtain ⟨hrecord, hpos⟩ := (filter_pid record.pid).mp hpid
      dsimp only
      rw [without_proc, htold, hrecord]
      by_cases hq : pid = q
      · subst hq
        cases d.told e record command pid <;> simp [hpos]
      · have hne : ¬ q = pid := fun h => hq h.symm
        simp [hq, hne]
    | none =>
      dsimp only
      rw [htold]
      have hno : (record.pid == some pid && decide (0 < pid)) = false := by
        by_contra h
        simp only [Bool.not_eq_false, Bool.and_eq_true, beq_iff_eq, decide_eq_true_eq] at h
        rw [(filter_pid record.pid).mpr h] at hpid
        cases hpid
      simp [hno]

theorem halt_gone_iff :
    (d.halt e record command timeout).1.Gone record.id ↔
      ∀ pid p, d.proc pid = some p → p.guest = some record.id →
        d.ends e record command timeout pid = true := by
  constructor
  · intro hgone pid p hp hguest
    by_contra hno
    have hproc : (d.halt e record command timeout).1.proc pid = some p := by
      rw [halt_proc, if_neg hno, hp]
    exact hgone pid p hproc hguest
  · intro hends pid p hp hguest
    rw [halt_proc] at hp
    split at hp
    · cases hp
    · rename_i hno
      exact hno (hends pid p hp hguest)

end QemuDriver

end Pertisk.Vmm
