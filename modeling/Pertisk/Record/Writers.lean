import Pertisk.Record.Changes
import Pertisk.Tasks.World

namespace Pertisk.Record
open Lib Tasks

/-- The guest's process, which is on once it has been told to run the guest. -/
structure Process where
  pid : Option Nat
  apiSocket : Option PathBuf
  on : Bool := false
  deriving DecidableEq

/-- Who called `start_local`: a request, or `recover_ha` for a guest of a lost node. -/
inductive Caller
  | request
  | recovery (vm : VmRecord)

/-- How an operation goes on behind a write. -/
inductive Next
  | done
  | waiting (caller : Caller)
  | checking (caller : Caller)
  | starting (caller : Caller)
  | running (caller : Caller)
  | failed (text : String) (caller : Caller)
  | clearing (vm : VmRecord)
  | returned

/-- Where an operation is. Between two phases any other operation may take its steps. -/
inductive Phase
  /-- The change has been made on the record as it was read, and is written next. -/
  | writing (base : VmRecord) (c : Change) (next : Next)
  | start (caller : Caller)
  | waiting (caller : Caller)
  /-- The gate is held. -/
  | checking (r : VmRecord) (caller : Caller)
  | starting (r : VmRecord) (caller : Caller)
  | stopping (r : VmRecord)
  | exited
  | exiting (r : VmRecord)
  | recovering (vm : VmRecord)
  /-- `apply_run` on this node: it looks for the guest, clears what is left of it, and pulls. -/
  | taking (vm : VmRecord)
  | clearing (vm : VmRecord)
  | pulling (vm : VmRecord)

/-- What the operations on one guest's record share on its node. -/
structure Host where
  self : NodeId
  runDir : String
  book : Ledger VmRecord Change
  process : Option Process := none
  gate : Gate := .free

abbrev Daemon := Crew Host Phase

/-- What the pools, the hypervisor, the scheduler and the peers answer. -/
inductive Answer
  | ok
  /-- No room, or no links. -/
  | refused (text : String)
  | error (text : String)
  | inventory (inv : Inventory)
  | created (created : Created)
  | started (pid : Option Nat)
  | here
  | there (node : NodeId) (runDir : String) (inv : Inventory) (created : Created) (pid : Option Nat)
  | foundThere (node : NodeId)

/-- `start_local` returns. -/
def Caller.ok (c : Caller) (h : Host) (r : VmRecord) : Move Host Phase :=
  match c with
  | .request => { shared := h }
  | .recovery _ => { shared := h, next := some (.writing r .again .done) }

def Caller.err (c : Caller) (h : Host) (text : String) : Move Host Phase :=
  match c with
  | .request => { shared := h }
  | .recovery vm => { shared := h, next := some (.writing vm (.giveUp vm text) .done) }

namespace Host

variable (h : Host)

def current : VmRecord := h.book.current

/-- What `is_running` finds. -/
def on : Bool := h.process.any Process.on

def kill : Host := { h with process := none }

def write (base : VmRecord) (c : Change) : Host :=
  { h with book := h.book.write Change.apply base c }

/-- A record is written, and the operation goes on with it. -/
def writeTurn (base : VmRecord) (c : Change) (next : Next) : Move Host Phase :=
  let h := h.write base c
  let r := c.apply base
  match next with
  | .done => { shared := h }
  | .waiting caller =>
    if r.state = .running then caller.err h "invalid vm state running for start"
    else { shared := h, next := some (.waiting caller) }
  | .checking caller =>
    if r.state = .running then caller.ok { h with gate := .free } r
    else { shared := h, next := some (.checking r caller) }
  | .starting caller => { shared := h, next := some (.starting r caller) }
  | .running caller => caller.ok { h with gate := .cooling } r
  | .failed text caller => caller.err { h with gate := .free } text
  | .clearing vm => { shared := h, next := some (.clearing vm) }
  | .returned => { shared := h, next := some (.writing r .again .done) }

/-- `start_local` between its writes. -/
def startTurn (i : ℕ) (answer : Answer) : Phase → Option (Move Host Phase)
  | .start caller =>
    match answer with
    | .inventory inv =>
      some (if h.current.template then
          caller.err h s!"vm {h.current.id.text} is a template; cannot start"
        else { shared := h, next := some (.writing h.current (.prepare inv) (.waiting caller)) })
    | _ => none
  | .waiting caller =>
    match answer with
    | .inventory inv =>
      if h.gate = .free then
        some { shared := { h with gate := .held i },
               next := some (.writing h.current (.prepare inv) (.checking caller)) }
      else none
    | _ => none
  | .checking r caller =>
    match answer with
    | .refused text => some (caller.err { h with gate := .free } text)
    -- the process answers on its socket, and is not made again
    | .ok => if h.on then some { shared := h, next := some (.starting r caller) } else none
    | .created created =>
      some { shared := { h with process := some ⟨created.pid, created.apiSocket, false⟩ },
             next := some (.writing r (.create created) (.starting caller)) }
    | .error text => some { shared := h, next := some (.writing r (.fail text) (.failed text caller)) }
    | _ => none
  | .starting r caller =>
    match answer with
    | .started pid =>
      match h.process with
      | some p =>
        some { shared := { h with process := some ⟨pid.or p.pid, p.apiSocket, true⟩ },
               next := some (.writing r (.start h.self pid) (.running caller)) }
      | none => none
    | .error text => some { shared := h, next := some (.writing r (.fail text) (.failed text caller)) }
    | _ => none
  | _ => none

/-- `stop_local` and `shutdown_local` behind their read, and `on_guest_exited`. -/
def stopTurn (answer : Answer) : Phase → Option (Move Host Phase)
  | .stopping r =>
    if h.on then
      match answer with
      | .ok => some { shared := h.kill, next := some (.writing r .stop .done) }
      | .error _ => some { shared := h }
      | _ => none
    else some { shared := h, next := some (.writing r .stop .done) }
  | .exited =>
    some (if h.current.state = .running ∧ h.current.nodeId = some h.self then
        { shared := h, next := some (.exiting h.current) }
      else { shared := h })
  | .exiting r => some { shared := h.kill, next := some (.writing r .stop .done) }
  | _ => none

/-- `recover_ha` for one guest, and `apply_run` on this node. -/
def recoverTurn (answer : Answer) : Phase → Option (Move Host Phase)
  | .recovering vm =>
    match answer with
    | .error text => some { shared := h, next := some (.writing vm (.fail text) .done) }
    | .here => some { shared := h, next := some (.taking vm) }
    | .there node runDir inv created pid =>
      some { shared := h, next := some (.writing vm (.runThere node runDir inv created pid) .done) }
    | .foundThere node => some { shared := h, next := some (.writing vm (.adopt node) .done) }
    | _ => none
  | .taking vm =>
    some { shared := h, next := some (if h.on then .writing vm (.adopt h.self) .returned
        else .writing vm (.move h.self h.runDir) (.clearing vm)) }
  | .clearing vm => some { shared := h.kill, next := some (.pulling vm) }
  | .pulling vm =>
    match answer with
    | .ok => some { shared := h, next := some (.start (.recovery vm)) }
    | .error text => some { shared := h, next := some (.writing vm (.giveUp vm text) .done) }
    | _ => none
  | _ => none

def turn (i : ℕ) (answer : Answer) (p : Phase) : Option (Move Host Phase) :=
  match p with
  | .writing base c next => some (h.writeTurn base c next)
  | .start .. | .waiting .. | .checking .. | .starting .. => h.startTurn i answer p
  | .stopping .. | .exited | .exiting .. => h.stopTurn answer p
  | .recovering .. | .taking .. | .clearing .. | .pulling .. => h.recoverTurn answer p

end Host

inductive Action
  | request (q : Request)
  /-- Patches under the store's lock: the login of an SSH tab, and addresses that are seen. -/
  | login (user : String)
  | observed (nets : List NetSpec)
  | start
  | stop (hard : Bool)
  /-- A watch finds that the guest does not run. -/
  | gone
  | recover
  | turn (task : ℕ) (answer : Answer)
  | cooled
  /-- The guest's system powers off, or its process ends. -/
  | exits

namespace Daemon

variable (d : Daemon)

def spawn (p : Phase) : Daemon := ⟨d.shared, d.pool.spawn p⟩

def become (h : Host) : Daemon := ⟨h, d.pool⟩

def step (d : Daemon) (a : Action) : Option Daemon :=
  let h := d.shared
  match a with
  | .request q =>
    match q.change h.current with
    | .ok (some c) => some (d.spawn (.writing h.current c .done))
    | _ => some d
  | .login user => some (d.become (h.write h.current (.sshUser user)))
  | .observed nets => some (d.become (h.write h.current (.nicAddrs nets)))
  | .start => some (d.spawn (.start .request))
  | .stop hard =>
    some (if hard ∨ h.current.state = .running then d.spawn (.stopping h.current) else d)
  | .gone => if h.on then none else some (d.spawn .exited)
  | .recover =>
    let vm := h.current
    some (if !vm.template && vm.spec.ha && vm.state = .running && vm.nodeId.isSome &&
        vm.nodeId ≠ some h.self then d.spawn (.recovering vm) else d)
  | .turn i answer => do
    let p ← d.pool.get i
    let m ← h.turn i answer p
    return d.take i m
  | .cooled => if h.gate = .cooling then some (d.become { h with gate := .free }) else none
  | .exits => if h.on then some (d.become h.kill) else none

end Daemon

/-- A daemon with nothing under way on the guest. -/
def opened (self : NodeId) (runDir : String) (r : VmRecord) (process : Option Process) : Daemon where
  shared := { self := self, runDir := runDir, book := { first := r, current := r }, process := process }
  pool := {}

end Pertisk.Record
