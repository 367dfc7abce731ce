import Pertisk.Lib.Pool
import Pertisk.Lib.Run
import Pertisk.Service.Guests
import Pertisk.Volume.Linked

namespace Pertisk.Tasks
open Lib

/-- The start gate lets one start through at a time. -/
inductive Gate
  | free
  | held (task : ℕ)
  /-- The guest runs; the permit is kept for a while. -/
  | cooling
  deriving DecidableEq

/-- Who called `start_local`: a request, or an autostart pass that goes on with the rest. -/
inductive Caller
  | request
  | autostart (elapsed : Nat) (rest : List VmRecord)

/-- Who found that a guest is gone: its exit watch, or a reconcile pass that goes on with the rest. -/
inductive Finder
  | watch
  | reconcile (rest : List VmRecord) (tick : Bool)

/-- Where a task is. Between two phases any other task may take its steps. -/
inductive Phase
  | start (id : VmId) (caller : Caller)
  /-- The record has been read, and is written back. -/
  | prepared (record : VmRecord) (caller : Caller)
  | waiting (id : VmId) (caller : Caller)
  /-- The gate is held; the record has been read once more. -/
  | reread (record : VmRecord) (caller : Caller)
  | checking (record : VmRecord) (caller : Caller)
  /-- There is room. -/
  | starting (record : VmRecord) (caller : Caller)
  | created (record : VmRecord) (caller : Caller)
  | launched (record : VmRecord) (caller : Caller)
  | stop (id : VmId) (hard again : Bool)
  | stopping (record : VmRecord) (again : Bool)
  | stopped (record : VmRecord) (again : Bool)
  /-- A record that is written as it is, by an update or for a guest that runs already. -/
  | writing (record : VmRecord)
  | finishing (record : VmRecord)
  | watch (record : VmRecord)
  | exited (id : VmId) (finder : Finder)
  | marking (record : VmRecord) (finder : Finder)
  | marked (record : VmRecord) (finder : Finder)
  | reconcile (todo : List VmRecord) (tick : Bool)
  | autostart (elapsed : Nat) (todo : List VmRecord)
  /-- The guest has been put down as started. -/
  | taken (record : VmRecord) (elapsed : Nat) (rest : List VmRecord)
  | shutdown (todo : List VmRecord)

/-- What the tasks of one daemon share. -/
structure Host where
  node : Node
  /-- The guests that `is_running` finds. -/
  alive : List VmId := []
  hostMib : Option UInt64 := none
  gate : Gate := .free
  elapsed : Nat := 0
  autostarted : List VmId := []
  createdThisBoot : List VmId := []
  restoreOnBoot : List VmId := []
  incoming : Table VmRecord VmRecord.id := Table.empty
  /-- Guests that ended by themselves and that nobody asked to start since. No task reads it. -/
  off : List VmId := []

abbrev Daemon := Crew Host Phase

/-- What the hypervisor, the disks and the peers answer. -/
abbrev Answer := Except String (Option Created)

/-- True when a guest of `need_mib` can start given host RAM and already-running guests. -/
def guestStartFits (hostMib runningMib needMib : Nat) : Bool :=
  decide (saturatingAdd runningMib needMib ≤ hostMib - hostMemoryReserveMib (min hostMib u32Max))

namespace Host

variable (h : Host)

def self : NodeId := h.node.cluster.selfId

def get (id : VmId) : Option VmRecord := h.node.store.get id

def mine (r : VmRecord) : Bool := r.nodeId == some h.self

def upsert (r : VmRecord) : Host := { h with node := h.node.upsertVm r }

def lives (id : VmId) : Bool := h.alive.contains id

def kill (id : VmId) : Host := { h with alive := h.alive.filter (· != id) }

/-- The request clears what is known of the guest's own end. -/
def asked (id : VmId) : Host := { h with off := h.off.filter (· != id) }

def runsHere (r : VmRecord) : Bool := r.state == .running && h.mine r

def runningMib (except : VmId) : Nat :=
  ((h.node.store.rows.filter (fun r => r.id != except && h.runsHere r)).map
    (fun r => r.spec.memoryMib)).sum

/-- Refuse to start when the free disk or RAM is too low; the answer is about the disk. -/
def startCapacity (r : VmRecord) (disk : Answer) : Bool :=
  disk.toBool && (match h.hostMib with
    | some host => guestStartFits host.toNat (h.runningMib r.id) r.spec.memoryMib
    | none => true)

end Host

/-- A start call returns. -/
def Caller.goOn (c : Caller) (h : Host) : Move Host Phase :=
  match c with
  | .request => { shared := h }
  | .autostart elapsed rest => { shared := h, next := some (.autostart elapsed rest) }

def Finder.goOn (f : Finder) (h : Host) : Move Host Phase :=
  match f with
  | .watch => { shared := h }
  | .reconcile rest tick => { shared := h, next := some (.reconcile rest tick) }

/-- A request's start ends the guest's own stop. -/
def Caller.asks (c : Caller) (h : Host) (id : VmId) : Host :=
  match c with
  | .request => h.asked id
  | .autostart _ _ => h

namespace Host

variable (h : Host)

/-- `spawn_exit_watch`. -/
def watchOf (r : VmRecord) : Option Phase := if h.runsHere r then some (.watch r) else none

/-- `start_local`, one step. -/
def startTurn (i : ℕ) (answer : Answer) : Phase → Option (Move Host Phase)
  | .start id c =>
    let h := c.asks h id
    match h.get id with
    | none => some (c.goOn h)
    | some r => some (if r.template then c.goOn h else { shared := h, next := some (.prepared r c) })
  | .prepared r c =>
    let h := (c.asks h r.id).upsert r
    some (if r.state = .running then c.goOn h else { shared := h, next := some (.waiting r.id c) })
  | .waiting id c =>
    if h.gate = .free then
      let h := c.asks h id
      match h.get id with
      | none => some (c.goOn h)
      | some r => some { shared := { h with gate := .held i }, next := some (.reread r c) }
    else none
  | .reread r c =>
    let h := (c.asks h r.id).upsert r
    some (if r.state = .running then c.goOn { h with gate := .free }
      else { shared := h, next := some (.checking r c) })
  | .checking r c =>
    let h := c.asks h r.id
    some (if h.startCapacity r answer then { shared := h, next := some (.starting r c) }
      else c.goOn { h with gate := .free })
  | .starting r c =>
    let h := c.asks h r.id
    match answer with
    | .ok process =>
      let r := r.withCreated process
      some { shared := { h.upsert r with alive := r.id :: h.alive }, next := some (.created r c) }
    | .error text => some (c.goOn { h.upsert (r.failed text) with gate := .free })
  | .created r c =>
    match answer with
    | .ok process =>
      if h.lives r.id then
        some { shared := h, next := some (.launched (r.started h.self none (process.bind Created.pid)) c) }
      else none
    | .error text => some (c.goOn { h.upsert (r.failed text) with gate := .free })
  | .launched r c =>
    some { c.goOn { h.upsert r with gate := .cooling } with spawned := h.watchOf r }
  | _ => none

/-- `stop_local`, `shutdown_local` and, with `again`, a restart; an incoming guest; an update. -/
def stopTurn (answer : Answer) : Phase → Option (Move Host Phase)
  | .stop id hard again =>
    match h.get id with
    | none => some { shared := h }
    | some r =>
      some (if !hard && r.state != .running then { shared := h }
        else { shared := h, next := some (.stopping r again) })
  | .stopping r again =>
    if h.lives r.id then
      match answer with
      | .ok _ => some { shared := h.kill r.id, next := some (.stopped r again) }
      | .error _ => some { shared := h }
    else some { shared := h, next := some (.stopped r again) }
  | .stopped r again =>
    some { shared := h.upsert r.stopped, next := if again then some (.start r.id .request) else none }
  | .writing r => some { shared := h.upsert r }
  | .finishing r => some { shared := h.upsert r, spawned := h.watchOf r }
  | _ => none

/-- The exit watch, and `on_guest_exited`. -/
def exitTurn : Phase → Option (Move Host Phase)
  | .watch r =>
    match h.get r.id with
    | none => some { shared := h }
    | some now =>
      some (if now.state ≠ .running then { shared := h }
        else { shared := h, next := some (if h.lives r.id then .watch r else .exited r.id .watch) })
  | .exited id f =>
    match h.get id with
    | none => some (f.goOn h)
    | some r => some (if h.runsHere r then { shared := h, next := some (.marking r f) } else f.goOn h)
  | .marking r f => some { shared := h.kill r.id, next := some (.marked r f) }
  | .marked r f => some (f.goOn (h.upsert r.stopped))
  | _ => none

/-- The guests that `autostart_local` looks at, the first ones first. -/
def candidates : List VmRecord :=
  (h.node.store.rows.filter (fun r => !r.template && h.mine r && !h.createdThisBoot.contains r.id &&
    (r.spec.autostart || h.restoreOnBoot.contains r.id))).mergeSort (fun a b =>
      decide (toLex (a.spec.autostartOrder, toLex (a.spec.autostartDelay, a.id)) ≤
        toLex (b.spec.autostartOrder, toLex (b.spec.autostartDelay, b.id))))

/-- `reconcile_local_vms`, `autostart_local` behind it in a tick, and `shutdown_all_local_vms`. -/
def passTurn (answer : Answer) : Phase → Option (Move Host Phase)
  | .reconcile [] tick =>
    some { shared := h, next := if tick then some (.autostart h.elapsed h.candidates) else none }
  | .reconcile (r :: todo) tick =>
    let rest := Phase.reconcile todo tick
    if h.lives r.id && !h.mine r then
      some { shared := if answer.toBool then h.kill r.id else h, next := some rest }
    else if h.runsHere r && !h.lives r.id then
      let h := if r.template then h else { h with restoreOnBoot := r.id :: h.restoreOnBoot }
      some { shared := h, next := some (.exited r.id (.reconcile todo tick)) }
    else some { shared := h, next := some rest }
  | .autostart _ [] => some { shared := h }
  | .autostart elapsed (r :: todo) =>
    let rest := Phase.autostart elapsed todo
    if elapsed < r.spec.autostartDelay then some { shared := h, next := some rest }
    else if h.autostarted.contains r.id then some { shared := h, next := some rest }
    else
      some { shared := { h with autostarted := r.id :: h.autostarted }
             next := some (if r.state = .running then rest else .taken r elapsed todo) }
  | .taken r elapsed todo =>
    some (if h.startCapacity r answer then
        { shared := h, next := some (.start r.id (.autostart elapsed todo)) }
      else { shared := { h with autostarted := h.autostarted.filter (· != r.id) } })
  | .shutdown [] => some { shared := h }
  | .shutdown (r :: todo) =>
    some { shared := if h.runsHere r && answer.toBool then h.kill r.id else h
           next := some (.shutdown todo) }
  | _ => none

def turn (i : ℕ) (answer : Answer) (p : Phase) : Option (Move Host Phase) :=
  match p with
  | .start .. | .prepared .. | .waiting .. | .reread .. | .checking .. | .starting .. | .created ..
  | .launched .. => h.startTurn i answer p
  | .stop .. | .stopping .. | .stopped .. | .writing .. | .finishing .. => h.stopTurn answer p
  | .watch .. | .exited .. | .marking .. | .marked .. => h.exitTurn p
  | .reconcile .. | .autostart .. | .taken .. | .shutdown .. => h.passTurn answer p

end Host

def updatedNotes (req : Service.UpdateVmRequest) (r : VmRecord) : Except String (Option String) :=
  match req.notes with
  | some notes => (Service.cleanNotes notes).mapError Service.DaemonError.text
  | none => .ok r.spec.notes

def updatedName (n : Node) (r : VmRecord) : Option String → Except String Unit
  | none => .ok ()
  | some name =>
    if Service.nameTaken n name (some r.id) then .error s!"name already exists: {name}" else .ok ()

/-- The record that an update writes back, when it refuses nothing. -/
def updated (n : Node) (req : Service.UpdateVmRequest) (r : VmRecord) : Except String VmRecord := do
  (if req.vcpus.isSome || req.memoryMib.isSome then requireStopped r "resize cpu or memory"
    else .ok ())
  (if req.consoleType.isSome then requireStopped r "change console" else .ok ())
  updatedName n r (req.name.map Volume.trimmed)
  let notes ← updatedNotes req r
  let spec := req.apply r.spec notes
  (Service.validate spec).mapError Service.DaemonError.text
  return { r with
    spec := spec
    graphicsSocket := if req.consoleType = some .serial then none else r.graphicsSocket }

inductive Action
  | start (id : VmId)
  | stop (id : VmId) (hard : Bool)
  | restart (id : VmId) (recreate : Bool)
  | update (id : VmId) (req : Service.UpdateVmRequest)
  | create (id : VmId) (spec : VmSpec) (runDir : String)
  /-- `apply_run`, on a peer's request. -/
  | run (record : VmRecord) (runDir : String) (pulled : Bool)
  /-- `apply_stop`, `apply_shutdown` and, with `again`, `apply_restart`. -/
  | apply (record : VmRecord) (hard again : Bool)
  /-- A process that a live migration fills, and the end of the migration. -/
  | listen (record : VmRecord)
  | finish (id : VmId) (answer : Answer)
  | tick (quorum : Bool)
  | reconcile
  | shutdownAll
  | turn (task : ℕ) (answer : Answer)
  | cooled
  | wait (seconds : Nat)
  /-- The guest's system powers off, or its process ends. -/
  | exits (id : VmId)
  /-- The daemon ends and starts again; of the guests' processes, these are left. -/
  | restartDaemon (left : List VmId)

/-- A daemon that has just started. -/
def Host.booted (h : Host) (left : List VmId) : Host where
  node := h.node
  alive := h.alive.filter (left.contains ·)
  hostMib := h.hostMib

namespace Daemon

variable (d : Daemon)

def spawn (h : Host) (p : Phase) : Daemon := ⟨h, d.pool.spawn p⟩

def become (h : Host) : Daemon := ⟨h, d.pool⟩

def step (d : Daemon) (a : Action) : Option Daemon :=
  let h := d.shared
  match a with
  | .start id => some (d.spawn (h.asked id) (.start id .request))
  | .stop id hard =>
    match h.get id with
    | none => some d
    | some r => some (if r.template then d else d.spawn h (.stop id hard false))
  | .restart id recreate =>
    match h.get id with
    | none => some d
    | some r =>
      some (if r.template || r.state ≠ .running then d
        else if recreate then d.spawn (h.asked id) (.stop id false true)
        else d.become (h.asked id))
  | .update id req =>
    match h.get id with
    | none => some d
    | some r =>
      match updated h.node req r with
      | .error _ => some d
      | .ok r => some (d.spawn h (.writing r))
  | .create id spec runDir =>
    if (h.get id).isSome then some d
    else
      some (d.become { h.upsert (Service.defined runDir id spec h.self) with
        createdThisBoot := id :: h.createdThisBoot })
  | .run record runDir pulled =>
    let h := h.asked record.id
    if h.lives record.id then
      some (d.spawn h (.writing { record with nodeId := some h.self, state := .running }))
    else
      let h := h.upsert (record.toRun h.self runDir)
      some (if pulled then d.spawn h (.start record.id .request) else d.become h)
  | .apply record hard again =>
    let h := if again then h.asked record.id else h
    some (d.spawn (h.upsert record) (.stop record.id hard again))
  | .listen record =>
    some (d.become { h with incoming := h.incoming.insert { record with nodeId := some h.self } })
  | .finish id answer =>
    match h.incoming.get id with
    | none => some d
    | some r =>
      let h := { h.asked id with incoming := h.incoming.erase id }
      match answer with
      | .ok _ =>
        some (d.spawn { h with alive := id :: h.alive }
          (.finishing { r with state := .running, nodeId := some h.self, lastError := none }))
      | .error _ => some (d.become (h.kill id))
  | .tick quorum => some (d.spawn h (.reconcile h.node.store.rows quorum))
  | .reconcile => some (d.spawn h (.reconcile h.node.store.rows false))
  | .shutdownAll => some (d.spawn h (.shutdown h.node.store.rows))
  | .turn i answer => do
    let p ← d.pool.get i
    let m ← h.turn i answer p
    return d.take i m
  | .cooled => if h.gate = .cooling then some (d.become { h with gate := .free }) else none
  | .wait seconds => some (d.become { h with elapsed := h.elapsed + seconds })
  | .exits id =>
    if h.lives id then some (d.become { h.kill id with off := id :: h.off }) else none
  | .restartDaemon left => some ⟨h.booted left, {}⟩

end Daemon

def guest (id : Nat) (name : String) (memoryMib : Nat) : VmRecord :=
  { id := .numeric id, spec := { name := name, memoryMib := memoryMib }, state := .stopped,
    nodeId := some 1 }

/-- A node with 2 GiB and two guests, with nothing under way. -/
def smallNode : Daemon where
  shared :=
    { node := ((Node.fresh 1).upsertVm (guest 100 "web" 1024)).upsertVm (guest 101 "mail" 1024)
      hostMib := some 2048 }
  pool := {}

/-- The steps of a start call that goes through. -/
def goesThrough (task : ℕ) : List Action := List.replicate 8 (.turn task (.ok none))

end Pertisk.Tasks
