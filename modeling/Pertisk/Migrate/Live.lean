import Mathlib.Logic.Function.Basic
import Pertisk.Lib.Run
import Pertisk.Migrate.Call

namespace Pertisk.Migrate
open Lib

/-- What QMP `query-status` says of a QEMU. -/
inductive QemuStatus
  | prelaunch
  | inmigrate
  | paused
  | running
  | postmigrate
  deriving DecidableEq

def guestQmpRunning : QemuStatus → Bool
  | .running | .paused | .prelaunch => true
  | _ => false

/-- How far `live_migrate` is. -/
inductive Stage
  | listening
  | mirroring
  | migrating
  | finishing
  | dropping (started : VmRecord)
  | returned (result : Except String VmRecord)

/-- The nodes while one guest is moved live, with its QEMU on each. `destroyed` and `restarted` note
what background tasks have done to it; no daemon reads them. -/
structure Live where
  call : Call
  now : Nat
  node : NodeId → Node
  qemu : NodeId → Option QemuStatus
  incoming : NodeId → Option VmRecord
  stage : Stage
  /-- QEMU is sending the guest's state. -/
  moving : Bool
  /-- The finish request and its answer on their way, and the destination between them. -/
  request : Bool
  resuming : Option VmRecord
  reply : Option (Except String VmRecord)
  /-- The guest as a reconcile pass has read it. -/
  listed : NodeId → Option VmRecord
  restoreOnBoot : NodeId → Bool
  autostarted : NodeId → Bool
  net : List (NodeId × ClusterSnapshot)
  destroyed : Bool
  restarted : Bool

inductive LiveAction
  | listen
  /-- The destination listens, but its answer is lost. -/
  | listenLost (text : String)
  /-- The caller's step fails, and the destination hears of it or not. -/
  | fail (text : String) (heard : Bool)
  | migrate
  | land
  | migrated
  /-- The destination handles the finish request: QEMU goes on, or not. -/
  | resume (goesOn : Bool)
  | settle
  | answer
  | giveUp (text : String)
  | drop
  | finish
  | advance (ms : Nat)
  | push (n m : NodeId)
  | deliver (i : Nat)
  | lose (i : Nat)
  | exitWatch (n : NodeId)
  | list (n : NodeId)
  | reconcile (n : NodeId)
  | autostart (n : NodeId)

namespace Live

variable (s : Live)

def id : VmId := s.call.record.id

def record (n : NodeId) : Option VmRecord := (s.node n).store.get s.id

def isRunning (n : NodeId) : Bool := (s.qemu n).any guestQmpRunning

def setQemu (n : NodeId) (status : Option QemuStatus) : Live :=
  { s with qemu := Function.update s.qemu n status }

def setIncoming (n : NodeId) (record : Option VmRecord) : Live :=
  { s with incoming := Function.update s.incoming n record }

def setNode (n : NodeId) (node : Node) : Live := { s with node := Function.update s.node n node }

def upsertVm (n : NodeId) (record : VmRecord) : Live :=
  s.setNode n ((s.node n).upsertVm record).bump

/-- The record that names the node, with the guest running there. -/
def runningOn (record : VmRecord) (n : NodeId) : VmRecord :=
  { record with state := .running, nodeId := some n, lastError := none }

def applyIncoming : Live :=
  (s.setQemu s.call.dest (some .inmigrate)).setIncoming s.call.dest
    (some { s.call.record with nodeId := some s.call.dest })

def abortIncoming (n : NodeId) : Live :=
  if (s.incoming n).isSome then (s.setIncoming n none).setQemu n none else s

/-- The first half of `finish_incoming`, up to where QEMU goes on. -/
def resume (n : NodeId) (goesOn : Bool) : Live :=
  match s.incoming n with
  | none => { s with reply := some (.error s!"no incoming migration for {s.id.text}") }
  | some record =>
    if goesOn && s.qemu n = some .paused then
      { s.setQemu n (some .running) with resuming := some record }
    else
      { (s.setIncoming n none).setQemu n none with
        reply := some (.error "qemu does not continue") }

/-- And the rest of it. -/
def settle (n : NodeId) (record : VmRecord) : Live :=
  { (s.setIncoming n none).upsertVm n (runningOn record n) with
    resuming := none
    reply := some (.ok (runningOn record n)) }

def onGuestExited (n : NodeId) : Live :=
  match s.record n with
  | none => s
  | some record =>
    if record.state = .running ∧ record.nodeId = some n then
      { (s.setQemu n none).upsertVm n record.stopped with
        destroyed := s.destroyed || (n == s.call.dest && (s.qemu n).isSome) }
    else s

/-- A guest that another node owns is destroyed; one that is gone is to start again here. -/
def reconcile (n : NodeId) (vm : VmRecord) : Live :=
  let s := { s with listed := Function.update s.listed n none }
  let mine := vm.nodeId == some n
  if s.isRunning n && !mine then
    { s.setQemu n none with destroyed := s.destroyed || n == s.call.dest }
  else if mine && vm.state == .running && !s.isRunning n then
    let s := if vm.template then s
      else { s with restoreOnBoot := Function.update s.restoreOnBoot n true }
    s.onGuestExited n
  else s

def autostart (n : NodeId) : Live :=
  match s.record n with
  | none => s
  | some record =>
    if !record.template && record.nodeId == some n &&
        (record.spec.autostart || s.restoreOnBoot n) && !s.autostarted n then
      let s := { s with autostarted := Function.update s.autostarted n true }
      if record.state = .running then s
      else
        { (s.setQemu n (some .running)).upsertVm n (runningOn record n) with restarted := true }
    else s

def step (s : Live) : LiveAction → Option Live
  | .advance ms => some { s with now := s.now + ms }
  | .listen =>
    match s.stage with
    | .listening => some { s.applyIncoming with stage := .mirroring }
    | _ => none
  | .listenLost text =>
    match s.stage with
    | .listening => some { s.applyIncoming with stage := .returned (.error text) }
    | _ => none
  | .fail text heard =>
    match s.stage with
    | .listening => some { s with stage := .returned (.error text) }
    | .mirroring | .migrating =>
      let s := if heard then s.abortIncoming s.call.dest else s
      some { s with
        stage := .returned (.error text)
        -- a source whose destination is gone keeps its guest
        moving := s.moving && !heard }
    | _ => none
  | .migrate =>
    match s.stage with
    | .mirroring =>
      if s.call.caller = s.call.src then some { s with stage := .migrating, moving := true }
      else none
    | _ => none
  | .land =>
    if s.moving && s.qemu s.call.src = some .running && s.qemu s.call.dest = some .inmigrate then
      some { (s.setQemu s.call.src (some .postmigrate)).setQemu s.call.dest (some .paused) with
        moving := false }
    else none
  | .migrated =>
    match s.stage with
    | .migrating =>
      if s.qemu s.call.src = some .postmigrate then
        some { s with stage := .finishing, request := true }
      else none
    | _ => none
  | .resume goesOn =>
    if s.request then some ({ s with request := false }.resume s.call.dest goesOn) else none
  | .settle => s.resuming.map (s.settle s.call.dest)
  | .answer =>
    match s.stage, s.reply with
    | .finishing, some (.error text) => some { s with stage := .returned (.error text) }
    | .finishing, some (.ok started) => some { s with stage := .dropping started }
    | _, _ => none
  | .giveUp text =>
    match s.stage with
    | .finishing => some { s with stage := .returned (.error text) }
    | _ => none
  | .drop =>
    match s.stage with
    | .dropping _ => some (s.setQemu s.call.src none)
    | _ => none
  | .finish =>
    match s.stage with
    | .dropping started =>
      let started := { started with nodeId := some s.call.dest, state := .running }
      some { s.upsertVm s.call.caller started with stage := .returned (.ok started) }
    | _ => none
  | .push n m => some { s with net := s.net ++ [(m, (s.node n).snapshot)] }
  | .deliver i =>
    match s.net[i]? with
    | none => none
    | some (m, snap) =>
      some (setNode { s with net := s.net.eraseIdx i } m ((s.node m).applySnapshot s.now snap))
  | .lose i => some { s with net := s.net.eraseIdx i }
  | .exitWatch n => if s.isRunning n then none else some (s.onGuestExited n)
  | .list n => some { s with listed := Function.update s.listed n (s.record n) }
  | .reconcile n => (s.listed n).map (s.reconcile n)
  | .autostart n => some (s.autostart n)

end Live

end Pertisk.Migrate
