import Pertisk.Installer.Kickstart
import Pertisk.Lib.Run

namespace Pertisk.Installer
open Lib

inductive Status
  | idle
  | running
  | done
  | error
  deriving DecidableEq, Repr

/-- What `STATE` holds; `proc` is the number of the process that it names. -/
structure State where
  status : Status
  proc : Option ℕ
  error : String
  stage : ℕ
  deriving DecidableEq, Repr

/-- The ends of the installer's logs, as a call of `progress` finds them. -/
structure Logs where
  pack : List Char
  program : List Char
  storage : List Char
  ana : List Char

/-- What `progress` answers; `proc` is the process that it has looked at. -/
structure Report where
  proc : Option ℕ
  status : Status
  pct : ℕ
  stage : ℕ
  lines : List (List Char)
  error : String
  deriving DecidableEq, Repr

/-- How far a call of `progress` is: it has read `STATE`, then the logs, then the process's exit
code, and has then written `STATE` and answered. -/
inductive Poll
  | seen (proc : Option ℕ) (error : String) (stage : ℕ)
  | scanned (proc : Option ℕ) (error : String) (stage pct : ℕ) (lines : List (List Char))
  | ready (r : Report)
  | over (r : Report)
  deriving DecidableEq, Repr

/-- The server: `STATE`, the exit codes of the processes that it started, the calls of `progress`
and what they answered. -/
structure Server where
  state : State
  children : List (Option ℤ)
  polls : List Poll
  answers : List Report
  deriving DecidableEq, Repr

def Server.new : Server :=
  { state := { status := .idle, proc := none, error := "", stage := 0 }
    children := [], polls := [], answers := [] }

def contains (word s : List Char) : Bool := s.tails.any (word.isPrefixOf ·)

/-- `lower` is `str.lower`. -/
def detectStage (lower : List Char → List Char) (l : Logs) : ℕ :=
  if contains "post-installation".toList (lower (l.program ++ '\n' :: l.ana)) then 3
  else if contains "pertisk-vms".toList (lower l.pack) then 2
  else if ["Downloading", "Installing", "RPM"].any (fun w => contains w.toList l.pack) then 1
  else if ["partition", "disklabel", "format"].any
      (fun w => contains w.toList (lower l.storage)) then 0
  else 0

def lastOf {α : Type} (n : ℕ) (l : List α) : List α := l.drop (l.length - n)

/-- `_tail`, of the packages', the program's and Anaconda's logs. -/
def tailLines (l : Logs) : List (List Char) :=
  lastOf 12 ([l.pack, l.program, l.ana].flatMap (fun blob =>
    ((splitlines blob).map strip).filter (· != [])))

def percents : List ℕ := [8, 36, 68, 88, 100]

def percent (stage : ℕ) : ℕ := percents.getD stage 0

/-- The process's exit code, while it has none. -/
def Server.poll (w : Server) (proc : Option ℕ) : Option ℤ :=
  (proc.bind (fun k => w.children[k]?)).join

def exitText (code : ℤ) : String := s!"Anaconda exited with status {code}."

/-- What `progress` makes of the exit code. -/
def judge (proc : Option ℕ) (error : String) (stage pct : ℕ) (lines : List (List Char)) :
    Option ℤ → Report
  | none => { proc, status := .running, pct, stage, lines := lastOf 12 lines, error }
  | some 0 =>
    { proc, status := .done, pct := 100, stage := 4, error
      lines := lastOf 12 (lines ++ ["Installation finished.".toList]) }
  | some code =>
    { proc, status := .error, pct, stage, lines := lastOf 12 lines
      error := if error = "" then exitText code else error }

/-- `begin_install`, which holds the lock throughout; `prepared` says what its checks and the files
that it writes came to. -/
def Server.beginInstall (w : Server) (prepared : Except String Unit) : Except String Server :=
  if w.state.proc.isSome && (w.poll w.state.proc).isNone then
    .error "Installation is already running."
  else do
    prepared
    return { w with
      children := w.children ++ [none]
      state := { status := .running, proc := some w.children.length, error := "", stage := 0 } }

inductive Event
  | install (prepared : Except String Unit)
  | exits (k : ℕ) (code : ℤ)
  | asked
  | scans (i : ℕ) (logs : Logs)
  | looks (i : ℕ)
  | answers (i : ℕ)

def Server.put (w : Server) (i : ℕ) (p : Poll) : Server := { w with polls := w.polls.set i p }

section
variable (lower : List Char → List Char)

def Server.step (w : Server) : Event → Option Server
  | .install prepared => some ((w.beginInstall prepared).toOption.getD w)
  | .exits k code =>
    if w.children[k]? = some none then some { w with children := w.children.set k (some code) }
    else none
  | .asked =>
    if w.state.status = .idle then
      some { w with answers := w.answers ++
        [{ proc := none, status := .idle, pct := 0, stage := 0, lines := [], error := "" }] }
    else some { w with polls := w.polls ++ [.seen w.state.proc w.state.error w.state.stage] }
  | .scans i logs =>
    match w.polls[i]? with
    | some (.seen proc error stage) =>
      let stage := max stage (detectStage lower logs)
      some (w.put i (.scanned proc error stage (percent stage) (tailLines logs)))
    | _ => none
  | .looks i =>
    match w.polls[i]? with
    | some (.scanned proc error stage pct lines) =>
      some (w.put i (.ready (judge proc error stage pct lines (w.poll proc))))
    | _ => none
  | .answers i =>
    match w.polls[i]? with
    | some (.ready r) => some { w.put i (.over r) with
        state := { w.state with status := r.status, error := r.error, stage := r.stage }
        answers := w.answers ++ [r] }
    | _ => none

/-- What a step does to the server, one case for each thing that can happen. -/
inductive Stepped (w : Server) : Event → Server → Prop
  | refused (prepared : Except String Unit) : Stepped w (.install prepared) w
  | begun (prepared : Except String Unit)
      (hended : ∀ k, w.state.proc = some k → ∃ code, w.poll (some k) = some code)
      (hbegun : (w.beginInstall prepared).toOption.isSome) :
      Stepped w (.install prepared) { w with
        children := w.children ++ [none]
        state := { status := .running, proc := some w.children.length, error := "", stage := 0 } }
  | exits {k : ℕ} (code : ℤ) (hk : w.children[k]? = some none) :
      Stepped w (.exits k code) { w with children := w.children.set k (some code) }
  | idle (hidle : w.state.status = .idle) : Stepped w .asked { w with answers := w.answers ++
      [{ proc := none, status := .idle, pct := 0, stage := 0, lines := [], error := "" }] }
  | asked (hbusy : w.state.status ≠ .idle) : Stepped w .asked
      { w with polls := w.polls ++ [.seen w.state.proc w.state.error w.state.stage] }
  | scans {i : ℕ} (logs : Logs) {proc : Option ℕ} {error : String} {stage : ℕ}
      (hi : w.polls[i]? = some (.seen proc error stage)) :
      Stepped w (.scans i logs) (w.put i (.scanned proc error (max stage (detectStage lower logs))
        (percent (max stage (detectStage lower logs))) (tailLines logs)))
  | looks {i : ℕ} {proc : Option ℕ} {error : String} {stage pct : ℕ} {lines : List (List Char)}
      (hi : w.polls[i]? = some (.scanned proc error stage pct lines)) :
      Stepped w (.looks i) (w.put i (.ready (judge proc error stage pct lines (w.poll proc))))
  | answers {i : ℕ} {r : Report} (hi : w.polls[i]? = some (.ready r)) :
      Stepped w (.answers i) { w.put i (.over r) with
        state := { w.state with status := r.status, error := r.error, stage := r.stage }
        answers := w.answers ++ [r] }

variable {lower} {w w' : Server} {e : Event} {es : List Event} {i j k : ℕ} {p : Poll} {r : Report}
  {code : ℤ}

theorem Server.beginInstall_ok {prepared : Except String Unit}
    (h : w.beginInstall prepared = .ok w') :
    (∀ k, w.state.proc = some k → ∃ code, w.poll (some k) = some code) ∧
      w' = { w with
        children := w.children ++ [none]
        state :=
          { status := .running, proc := some w.children.length, error := "", stage := 0 } } := by
  unfold Server.beginInstall at h
  split at h
  · cases h
  · next hfree =>
    cases prepared with
    | error text => cases h
    | ok _ =>
      refine ⟨fun k hk => ?_, (Except.ok.inj h).symm⟩
      rw [hk, Option.isSome_some, Bool.true_and, Option.isNone_iff_eq_none] at hfree
      exact Option.ne_none_iff_exists'.mp hfree

theorem Server.step_cases (h : w.step lower e = some w') : Stepped lower w e w' := by
  cases e with
  | install prepared =>
    cases hbegin : w.beginInstall prepared with
    | error text =>
      simp only [Server.step, hbegin] at h
      cases h
      exact .refused prepared
    | ok t =>
      simp only [Server.step, hbegin] at h
      cases h
      obtain ⟨hended, heq⟩ := beginInstall_ok hbegin
      have hbegun : (w.beginInstall prepared).toOption.isSome := by rw [hbegin]; rfl
      have hstepped : Stepped lower w (.install prepared) _ := .begun prepared hended hbegun
      rw [← heq] at hstepped
      exact hstepped
  | exits k code =>
    simp only [Server.step] at h
    split at h
    · next hk =>
      cases h
      exact .exits code hk
    · cases h
  | asked =>
    simp only [Server.step] at h
    split at h
    · next hidle =>
      cases h
      exact .idle hidle
    · next hbusy =>
      cases h
      exact .asked hbusy
  | scans i logs =>
    simp only [Server.step] at h
    split at h
    · next hi =>
      cases h
      exact .scans logs hi
    · cases h
  | looks i =>
    simp only [Server.step] at h
    split at h
    · next hi =>
      cases h
      exact .looks hi
    · cases h
  | answers i =>
    simp only [Server.step] at h
    split at h
    · next hi =>
      cases h
      exact .answers hi
    · cases h

/-! ### One installation at a time -/

/-- What a process's exit code is does not change once it has one. -/
theorem Stepped.keeps (h : Stepped lower w e w') (hk : w.children[k]? = some (some code)) :
    w'.children[k]? = some (some code) := by
  cases h with
  | begun =>
    obtain ⟨hlt, -⟩ := List.getElem?_eq_some_iff.mp hk
    exact (List.getElem?_append_left hlt).trans hk
  | @exits j code' hj =>
    have hne : j ≠ k := by
      rintro rfl
      rw [hj] at hk
      cases hk
    exact (List.getElem?_set_ne hne).trans hk
  | refused | idle | asked | scans | looks | answers => exact hk

/-- Any process that runs is the one that `STATE` names, and that was started. -/
structure Server.Sole (w : Server) : Prop where
  running : ∀ k, w.children[k]? = some none → w.state.proc = some k
  named : ∀ k, w.state.proc = some k → k < w.children.length

theorem Server.Sole.step (hs : w.Sole) (h : Stepped lower w e w') : w'.Sole := by
  cases h with
  | refused | idle | asked | scans | looks | answers => exact ⟨hs.running, hs.named⟩
  | begun prepared hended hbegun =>
    constructor
    · intro k hk
      rcases Nat.lt_trichotomy k w.children.length with hlt | rfl | hgt
      · have hk : w.children[k]? = some none := (List.getElem?_append_left hlt).symm.trans hk
        obtain ⟨code, hcode⟩ := hended k (hs.running k hk)
        simp [Server.poll, hk] at hcode
      · rfl
      · have hnone : (w.children ++ [none])[k]? = none := by
          rw [List.getElem?_eq_none_iff, List.length_append, List.length_singleton]
          exact hgt
        rw [hnone] at hk
        cases hk
    · intro k hk
      cases hk
      show w.children.length < (w.children ++ [none]).length
      rw [List.length_append, List.length_singleton]
      exact Nat.lt_succ_self _
  | @exits j code hj =>
    constructor
    · intro k hk
      have hk : (w.children.set j (some code))[k]? = some none := hk
      rw [List.getElem?_set] at hk
      by_cases hjk : j = k
      · subst hjk
        obtain ⟨hlt, -⟩ := List.getElem?_eq_some_iff.mp hj
        rw [if_pos rfl, if_pos hlt] at hk
        cases hk
      · rw [if_neg hjk] at hk
        exact hs.running k hk
    · intro k hk
      show k < (w.children.set j (some code)).length
      rw [List.length_set]
      exact hs.named k hk

theorem sole_new : Server.new.Sole where
  running := by intro k hk; cases hk
  named := by intro k hk; cases hk

/-- In every run of the server two installations never run at once, and one whose answers pass the
checks is begun exactly when none is running. -/
theorem one_installation (r : Run (Steps (Server.step lower)) Server.new es w) :
    (∀ j k : ℕ, w.children[j]? = some none → w.children[k]? = some none → j = k) ∧
      ((w.beginInstall (.ok ())).toOption.isSome ↔ ∀ k : ℕ, w.children[k]? ≠ some none) := by
  have hs : w.Sole := r.invariant (fun _ _ _ hi hs => hi.step (Server.step_cases hs)) sole_new
  refine ⟨fun j k hj hk => ?_, ?_⟩
  · have hjk := (hs.running j hj).symm.trans (hs.running k hk)
    exact Option.some.inj hjk
  · cases hbegin : w.beginInstall (.ok ()) with
    | ok t =>
      refine iff_of_true rfl (fun k hk => ?_)
      obtain ⟨hended, -⟩ := Server.beginInstall_ok hbegin
      obtain ⟨code, hcode⟩ := hended k (hs.running k hk)
      simp [Server.poll, hk] at hcode
    | error text =>
      refine iff_of_false (fun h => by cases h) (fun hall => ?_)
      unfold Server.beginInstall at hbegin
      split at hbegin
      · next hbusy =>
        rw [Bool.and_eq_true, Option.isSome_iff_exists, Option.isNone_iff_eq_none] at hbusy
        obtain ⟨⟨k, hk⟩, hnone⟩ := hbusy
        have hlt := hs.named k hk
        rw [hk] at hnone
        refine hall k ?_
        rw [List.getElem?_eq_getElem hlt]
        simpa [Server.poll, List.getElem?_eq_getElem hlt] using hnone
      · cases hbegin

/-- An installation fails, is begun again, and is asked for once more while it runs. -/
def retried : List Event :=
  [.install (.ok ()), .asked, .exits 0 1, .install (.ok ()), .install (.ok ()), .asked]

theorem one_installation_retried :
    (∀ j k : ℕ, (exec (Server.step id) Server.new retried).children[j]? = some none →
        (exec (Server.step id) Server.new retried).children[k]? = some none → j = k) ∧
      (((exec (Server.step id) Server.new retried).beginInstall (.ok ())).toOption.isSome ↔
        ∀ k : ℕ, (exec (Server.step id) Server.new retried).children[k]? ≠ some none) :=
  one_installation (Run.of_exec (by decide +kernel))

end

end Pertisk.Installer
