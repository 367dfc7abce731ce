import Pertisk.Lib.Run
import Pertisk.Types

namespace Pertisk.Vmm
open Lib

inductive Hypervisor
  | qemu
  | cloudHypervisor
  deriving DecidableEq

/-- What a hypervisor says of its guest; a new one has it in prelaunch. -/
inductive Status
  | prelaunch
  | running
  | paused
  | shutdown
  deriving DecidableEq

/-- A live hypervisor process of the guest, which may not answer on its socket. -/
structure Process where
  pid : Nat
  status : Status
  answers : Bool
  deriving DecidableEq

/-- Where the start of a guest stops. -/
inductive Fault
  | none
  /-- No room for the guest. -/
  | refused
  | spawn
  /-- Its socket is not ready in time. -/
  | ready
  | create
  | boot
  deriving DecidableEq

/-- One guest on a node: its processes, the driver's child, the maker of the socket file, and what
the record says. -/
structure Guest where
  driver : Hypervisor
  procs : List Process
  child : Option Nat
  socket : Option Nat
  pid : Option Nat
  apiSocket : Bool
  state : VmState

namespace Guest

variable (g : Guest)

/-- The process that answers on the socket. -/
def serving : Option Process :=
  g.socket.bind (fun pid => g.procs.find? (fun p => p.pid == pid && p.answers))

def isRunning : Bool :=
  match g.driver with
  | .qemu => g.serving.any (fun p => p.status != .shutdown)
  | .cloudHypervisor => g.apiSocket && g.serving.any (fun p => p.status == .running)

def without (pid : Nat) : Guest := { g with procs := g.procs.filter (fun p => p.pid != pid) }

def spawned (pid : Nat) (answers : Bool) : Guest :=
  { g with
    procs := g.procs ++ [⟨pid, .prelaunch, answers⟩]
    child := some pid
    socket := some pid }

/-- A QEMU that answers is used again, and leftovers are stopped first. -/
def createQemu (pid : Nat) (fault : Fault) : Guest × Bool :=
  if !g.procs.isEmpty && g.serving.isSome then
    ({ g with pid := g.procs.head?.map Process.pid, apiSocket := true }, true)
  else
    let g := if g.procs.isEmpty then g else { g with procs := [], child := none }
    let g := { g with socket := none }
    match fault with
    | .spawn => (g, false)
    -- the new process is killed again
    | .ready => ({ g with child := none }, false)
    | _ => ({ g.spawned pid true with pid := some pid, apiSocket := true }, true)

/-- A leftover socket file is removed, and a new process makes its own. -/
def createCloudHypervisor (pid : Nat) (fault : Fault) : Guest × Bool :=
  let g := { g with socket := none }
  match fault with
  | .spawn => (g, false)
  | .ready => (g.spawned pid false, false)
  | .create => (g.spawned pid true, false)
  | _ => ({ g.spawned pid true with pid := some pid, apiSocket := true }, true)

def create (pid : Nat) (fault : Fault) : Guest × Bool :=
  match g.driver with
  | .qemu => g.createQemu pid fault
  | .cloudHypervisor => g.createCloudHypervisor pid fault

/-- `cont`, or `vm.boot`. -/
def start (fault : Fault) : Guest :=
  match g.serving with
  | none => { g with state := .failed }
  | some p =>
    if fault = .boot then { g with state := .failed }
    else
      { g with
        procs := g.procs.map (fun q => if q.pid = p.pid then { q with status := .running } else q)
        state := .running }

def startLocal (pid : Nat) (fault : Fault) : Guest :=
  if g.state = .running || fault = .refused then g
  else
    let socketMissing := !(g.apiSocket && g.socket.isSome)
    if !g.isRunning || socketMissing then
      match g.create pid fault with
      | (g, false) => { g with state := .failed }
      | (g, true) => g.start fault
    else g.start fault

/-- Tell the process on the record's socket to end, then wait for the child and kill it, or send
SIGTERM to the pid of the record. -/
def stop (obeys terms : Bool) : Guest :=
  let g := match g.serving with
    | some p => if g.apiSocket && obeys then g.without p.pid else g
    | none => g
  match g.child with
  | some pid => { g.without pid with child := none }
  | none =>
    match g.pid.filter (0 < ·) with
    | some pid => if terms then g.without pid else g
    | none => g

def stopLocal (obeys terms : Bool) : Guest :=
  let g := if g.isRunning then g.stop obeys terms else g
  { g with state := .stopped, pid := none }

def destroy (obeys terms : Bool) : Guest :=
  let g := g.stop obeys terms
  { g with socket := if g.apiSocket then none else g.socket }

/-- `apply_run` up to its start: the record forgets the process first. -/
def applyRun (obeys terms : Bool) : Guest :=
  if g.isRunning then { g with state := .running }
  else
    let state := if g.state = .running then .created else g.state
    destroy { g with pid := none, apiSocket := false, state := state } obeys terms

def onGuestExited (obeys terms : Bool) : Guest :=
  if g.state = .running && !g.isRunning then
    { g.stop obeys terms with state := .stopped, pid := none }
  else g

inductive Action
  | start (pid : Nat) (fault : Fault)
  | stop (obeys terms : Bool)
  | destroy (obeys terms : Bool)
  | applyRun (obeys terms : Bool)
  | onGuestExited (obeys terms : Bool)
  /-- A process ends, its guest powers off, or it begins or ceases to answer. -/
  | exit (pid : Nat)
  | powerOff (pid : Nat)
  | answer (pid : Nat) (answers : Bool)
  | daemonRestart

def change (pid : Nat) (f : Process → Process) : Guest :=
  { g with procs := g.procs.map (fun p => if p.pid = pid then f p else p) }

def step (g : Guest) : Action → Option Guest
  | .start pid fault =>
    if g.procs.any (fun p => p.pid == pid) then none else some (g.startLocal pid fault)
  | .stop obeys terms => some (g.stopLocal obeys terms)
  | .destroy obeys terms => some (g.destroy obeys terms)
  | .applyRun obeys terms => some (g.applyRun obeys terms)
  | .onGuestExited obeys terms => some (g.onGuestExited obeys terms)
  | .exit pid => some (g.without pid)
  | .powerOff pid => some (g.change pid (fun p => { p with status := .shutdown }))
  | .answer pid answers => some (g.change pid (fun p => { p with answers := answers }))
  | .daemonRestart => some { g with child := none }

/-- Cloud Hypervisor guests are started while no process of theirs is alive, or while it is found
running. -/
def Careful (g : Guest) : Action → Prop
  | .start _ _ => g.driver = .cloudHypervisor → g.procs ≠ [] → g.isRunning = true
  | _ => True

variable {g} {g₀ t : Guest} {action : Action} {pid : Nat} {fault : Fault}

theorem length_without (g : Guest) (pid : Nat) : (g.without pid).procs.length ≤ g.procs.length :=
  List.length_filter_le _ _

theorem length_start (g : Guest) (fault : Fault) :
    (g.start fault).procs.length = g.procs.length := by
  unfold start
  split
  · rfl
  · split
    · rfl
    · exact List.length_map ..

theorem length_stop (g : Guest) (obeys terms : Bool) :
    (g.stop obeys terms).procs.length ≤ g.procs.length := by
  have htold : (match g.serving with
      | some p => if g.apiSocket && obeys then g.without p.pid else g
      | none => g).procs.length ≤ g.procs.length := by
    split
    · split
      · exact length_without ..
      · exact Nat.le_refl _
    · exact Nat.le_refl _
  unfold stop
  dsimp only
  generalize (match g.serving with
      | some p => if g.apiSocket && obeys then g.without p.pid else g
      | none => g) = told at htold
  split
  · exact Nat.le_trans (length_without told _) htold
  · split
    · split
      · exact Nat.le_trans (length_without told _) htold
      · exact htold
    · exact htold

theorem length_destroy (g : Guest) (obeys terms : Bool) :
    (g.destroy obeys terms).procs.length ≤ g.procs.length := length_stop g obeys terms

/-- What QEMU's create leaves is what was there, or at most the new process. -/
theorem length_createQemu (h : g.procs.length ≤ 1) :
    (g.createQemu pid fault).1.procs.length ≤ 1 := by
  unfold createQemu
  split
  · exact h
  · dsimp only
    have hnone : (if g.procs.isEmpty then g
        else { g with procs := [], child := Option.none }).procs = [] := by
      split
      · rename_i hempty
        exact List.isEmpty_iff.mp hempty
      · rfl
    split
    · rw [hnone]
      exact Nat.zero_le 1
    · rw [hnone]
      exact Nat.zero_le 1
    · simp only [spawned, hnone]
      exact Nat.le_refl 1

theorem length_createCloudHypervisor (h : g.procs = []) :
    (g.createCloudHypervisor pid fault).1.procs.length ≤ 1 := by
  unfold createCloudHypervisor
  dsimp only
  split <;> simp [spawned, h]

theorem length_startLocal (h : g.procs.length ≤ 1) (hok : g.Careful (.start pid fault)) :
    (g.startLocal pid fault).procs.length ≤ 1 := by
  unfold startLocal
  split
  · exact h
  · dsimp only
    split
    · rename_i hmissing
      have hcreate : (g.create pid fault).1.procs.length ≤ 1 := by
        unfold create
        cases hd : g.driver with
        | qemu => exact length_createQemu h
        | cloudHypervisor =>
          refine length_createCloudHypervisor ?_
          by_contra hne
          have hrun := hok hd hne
          have hsocket : (g.apiSocket && g.socket.isSome) = true := by
            simp only [isRunning, hd, Bool.and_eq_true] at hrun
            obtain ⟨hapi, hserve⟩ := hrun
            cases hs : g.socket with
            | none => simp [serving, hs] at hserve
            | some maker => simp [hapi]
          simp [hrun, hsocket] at hmissing
      split
      · rename_i made hmade
        rw [hmade] at hcreate
        exact hcreate
      · rename_i made hmade
        rw [hmade] at hcreate
        rw [length_start]
        exact hcreate
    · rw [length_start]
      exact h

theorem step_length (h : g.procs.length ≤ 1) (hok : g.Careful action)
    (hstep : g.step action = some t) : t.procs.length ≤ 1 := by
  cases action with
  | start pid fault =>
    simp only [step, Option.ite_none_left_eq_some, Option.some.injEq] at hstep
    obtain ⟨-, rfl⟩ := hstep
    exact length_startLocal h hok
  | stop obeys terms =>
    cases hstep
    unfold stopLocal
    dsimp only
    split
    · exact Nat.le_trans (length_stop ..) h
    · exact h
  | destroy obeys terms =>
    cases hstep
    exact Nat.le_trans (length_destroy ..) h
  | applyRun obeys terms =>
    cases hstep
    unfold applyRun
    split
    · exact h
    · exact Nat.le_trans (length_destroy _ obeys terms) h
  | onGuestExited obeys terms =>
    cases hstep
    unfold onGuestExited
    split
    · exact Nat.le_trans (length_stop ..) h
    · exact h
  | exit pid =>
    cases hstep
    exact Nat.le_trans (length_without ..) h
  | powerOff pid =>
    cases hstep
    simpa [change] using h
  | answer pid answers =>
    cases hstep
    simpa [change] using h
  | daemonRestart =>
    cases hstep
    exact h

/-- A guest never has two processes: under QEMU whatever happens, and under Cloud Hypervisor while
it is not started over a process that is not found running. -/
theorem one_process (h0 : g₀.procs = []) {actions : List Action}
    (r : Run (Guarded Careful (Steps step)) g₀ actions g) : g.procs.length ≤ 1 := by
  refine r.invariant (I := fun g => g.procs.length ≤ 1)
    (fun _ _ _ h hs => step_length h hs.1 hs.2) ?_
  rw [h0]
  exact Nat.zero_le 1

/-- A guest that has not been started. -/
def cold (driver : Hypervisor) : Guest where
  driver := driver
  procs := []
  child := none
  socket := none
  pid := none
  apiSocket := false
  state := .created

/-- Started, stopped and started again. -/
theorem one_process_restarted :
    (exec step (cold .cloudHypervisor)
      [.start 1 .none, .stop false false, .start 2 .none]).procs.length ≤ 1 := by
  have hrun : Run (Guarded Careful (Steps step)) (cold .cloudHypervisor)
      [.start 1 .none, .stop false false, .start 2 .none] (exec step (cold .cloudHypervisor)
        [.start 1 .none, .stop false false, .start 2 .none]) := by
    refine .cons_exec (fun _ hne => absurd rfl hne) rfl (.cons_exec trivial rfl ?_)
    exact .cons_exec (fun _ hne => absurd rfl hne) rfl (.nil _)
  exact one_process rfl hrun

/-- The socket of the first process is not ready in time, and the guest is started again. -/
theorem two_processes :
    ¬ ∀ (g₀ g : Guest) (actions : List Action), g₀.procs = [] →
      Run (Steps step) g₀ actions g → g.procs.length ≤ 1 := by
  intro h
  have hone := h (cold .cloudHypervisor)
    (exec step (cold .cloudHypervisor) [.start 1 .ready, .start 2 .none])
    [.start 1 .ready, .start 2 .none] rfl (.of_exec rfl)
  revert hone
  decide

end Guest

end Pertisk.Vmm
