import Mathlib.Data.List.Sort
import Pertisk.Types
import Pertisk.Replication.World
import Pertisk.Schedule
import Pertisk.Storage.Ensure
import Pertisk.Storage.Replica

namespace Pertisk.Ha
open Lib

/-- What a run of `recover_ha` waits for: nothing, the answer to its run request of a guest, or
that the lost owner drops the guest that `started` stands for. -/
inductive Waiting
  | nothing
  | run (owner dest : NodeId)
  | drop (started : VmRecord)

/-- A run of `recover_ha`: the loads it has read, and the guests it has still to look at. -/
structure Pass where
  loads : List NodeLoad
  rest : List VmRecord
  waiting : Waiting := .nothing

/-- One daemon, and the guests that its hypervisors run. -/
structure Daemon where
  node : Node
  alive : VmId → Bool
  /-- What the tick found when it looked. -/
  quorum : Bool := false
  startedMs : Nat := 0
  createdThisBoot : List VmId := []
  restoreOnBoot : List VmId := []
  autostarted : List VmId := []
  /-- What is left of the tick's loops, as the inventory was when each began. -/
  fencing : List VmRecord := []
  reconciling : List VmRecord := []
  candidates : List VmRecord := []
  pass : Option Pass := none
  /-- Guests that wait at the start gate, with the node that gets the answer. -/
  starting : List (VmId × Option NodeId) := []

inductive Message
  | inventory (body : Replication.Body)
  | run (sender : NodeId) (record : VmRecord)
  | ran (sender : NodeId) (id : VmId) (result : Except String VmRecord)
  | drop (record : VmRecord)

structure Packet where
  dest : NodeId
  message : Message

/-- All daemons and the messages between them. `assigned` is the node that was asked last to run a
guest; no daemon reads it. -/
structure World where
  now : Nat
  runDir : String
  daemon : NodeId → Daemon
  net : List Packet
  assigned : VmId → Option NodeId

/-- The stages of `cluster_tick` are steps of their own, and so are the turns of their loops. -/
inductive Action
  | advance (ms : Nat)
  | sendHeartbeats (n : NodeId)
  | judge (n : NodeId)
  | fenceNext (n : NodeId)
  | reconcile (n : NodeId)
  | reconcileNext (n : NodeId)
  | recover (n : NodeId)
  | recoverNext (n : NodeId)
  /-- The run request fails, or nothing comes back. -/
  | giveUp (n : NodeId) (text : String)
  /-- The drop request is over, whatever came of it. -/
  | dropped (n : NodeId)
  | autostart (n : NodeId)
  | autostartNext (n : NodeId) (fits : Bool)
  | finishStart (n : NodeId) (i : Nat) (outcome : Outcome)
  /-- A guest ends by itself. -/
  | exit (n : NodeId) (id : VmId)
  | exitWatch (n : NodeId) (id : VmId)
  | deliver (i : Nat)
  | lose (i : Nat)

/-- What `recover_ha` does about a guest. -/
inductive Recovery
  | skip
  | fail (record : VmRecord)
  | run (owner dest : NodeId) (moving : VmRecord)

def haLocalDisks : String := "HA restart needs Ceph RBD disks; local files stay on the lost node"

def recovery (node : Node) (loads : List NodeLoad) (vm : VmRecord) : Recovery :=
  if vm.template || !vm.spec.ha || vm.state != .running then .skip
  else
    match vm.nodeId with
    | none => .skip
    | some owner =>
      if loads.any (fun l => l.id == owner && l.online) then .skip
      else if !node.guestCanHaRestart vm then
        .fail (vm.failed haLocalDisks)
      else
        let affinity := (node.volumeAffinity vm.spec).filter
          (fun id => loads.any (fun l => l.id == id && l.online))
        match scheduleSpread loads vm.spec affinity.head? affinity
          (node.groupNodes vm.spec (some vm.id)) with
        | none => .skip
        | some dest =>
          -- disks on RBD need no copy, so the guest is ready to go
          if dest = owner then .skip
          else .run owner dest { vm with nodeId := some dest, state := .created }

section
open Storage

variable {β : Type} [Contents β] {env : Env} {s d : Host β} {dest self : NodeId}
variable {disks : List DiskSpec} {online : List NodeId} {w : Fleet β}

theorem durable_cons {lookup : VolumeId → Option StorageBackend} {disk : DiskSpec}
    (h : disksAreHaDurable (disk :: disks) lookup = true) :
    disk.volumeId.bind lookup = some .rbd ∧ disksAreHaDurable disks lookup = true := by
  unfold disksAreHaDurable at h ⊢
  simp only [List.isEmpty_cons, List.all_cons, Bool.false_or, Bool.and_eq_true] at h
  refine ⟨?_, by simp [h.2]⟩
  cases hb : disk.volumeId.bind lookup with
  | none => simp [hb] at h
  | some backend => cases backend <;> simp_all [StorageBackend.haDurable]

/-- A guest that may be restarted elsewhere has no disk to copy. -/
theorem ensureVolumes_durable
    (h : disksAreHaDurable disks (fun id => (s.getVolume id).map (·.backend)) = true) :
    ensureVolumes env dest disks s d = (s, d, .ok ()) := by
  induction disks with
  | nil => rfl
  | cons disk disks ih =>
    obtain ⟨hb, hrest⟩ := durable_cons h
    obtain ⟨id, hid, hvol⟩ := Option.bind_eq_some_iff.mp hb
    obtain ⟨vol, hget, hrbd⟩ := Option.map_eq_some_iff.mp hvol
    unfold ensureVolumes
    simp only [hid, Option.bind_some, hget, hrbd]
    exact ih hrest

/-- Nor does it miss one. -/
theorem pullMissing_durable
    (h : disksAreHaDurable disks (fun id => (s.getVolume id).map (·.backend)) = true) :
    pullMissing env online self w disks s = (s, .ok ()) := by
  induction disks with
  | nil => rfl
  | cons disk disks ih =>
    obtain ⟨hb, hrest⟩ := durable_cons h
    obtain ⟨id, hid, hvol⟩ := Option.bind_eq_some_iff.mp hb
    obtain ⟨vol, hget, hrbd⟩ := Option.map_eq_some_iff.mp hvol
    have hext : vol.backend.external = true := by rw [hrbd]; rfl
    unfold pullMissing
    simp only [hid, Option.bind_some, hget, hext, if_true]
    exact ih hrest

end

namespace Daemon

variable (d : Daemon)

def upsertVm (record : VmRecord) : Daemon := { d with node := d.node.upsertVm record }

def bump : Daemon := { d with node := d.node.bump }

def setAlive (id : VmId) (on : Bool) : Daemon :=
  { d with alive := Function.update d.alive id on }

def setFenced (fenced : Bool) : Daemon :=
  { d with node := { d.node with cluster := d.node.cluster.setFenced fenced } }

/-- Without quorum a node stops its own guests. -/
def fenceNext (vm : VmRecord) (rest : List VmRecord) : Daemon :=
  let stopped := { vm with state := .stopped }
  { d.upsertVm stopped with alive := Function.update d.alive vm.id false, fencing := rest }

/-- Look for quorum, and begin to fence when it has just been lost. -/
def judge (selfId : NodeId) (now : Nat) : Daemon :=
  let quorum := d.node.cluster.hasQuorum now
  let d := { d with quorum := quorum }
  if d.node.cluster.haArmed then
    let entered := !quorum && !d.node.cluster.fenced
    let d := d.setFenced (!quorum)
    let mine (vm : VmRecord) := vm.nodeId == some selfId && vm.state == .running
    if entered then { d with fencing := d.node.store.rows.filter mine } else d
  else if quorum then d.setFenced false
  else d

def autostartCandidates (selfId : NodeId) (now : Nat) : List VmRecord :=
  let elapsed := (now - d.startedMs) / 1000
  let key (vm : VmRecord) : ℕ ×ₗ ℕ ×ₗ VmId :=
    toLex (vm.spec.autostartOrder, toLex (vm.spec.autostartDelay, vm.id))
  ((d.node.store.rows.filter (fun vm => !vm.template && vm.nodeId == some selfId &&
    !d.createdThisBoot.contains vm.id &&
    (vm.spec.autostart || d.restoreOnBoot.contains vm.id) &&
    decide (vm.spec.autostartDelay ≤ elapsed))).insertionSort (fun a b => key a ≤ key b))

/-- The first half of `start_local`, up to the start gate. -/
def beginStart (id : VmId) (answerTo : Option NodeId) : Except String Daemon :=
  match d.node.store.get id with
  | none => .error s!"vm not found: {id.text}"
  | some record =>
    match record.startable with
    | .error text => .error text
    | .ok () => .ok { d with starting := d.starting ++ [(id, answerTo)] }

end Daemon

namespace World

variable (s : World)

def setDaemon (n : NodeId) (d : Daemon) : World :=
  { s with daemon := Function.update s.daemon n d }

def send (packets : List Packet) : World := { s with net := s.net ++ packets }

def assign (id : VmId) (n : NodeId) : World :=
  { s with assigned := Function.update s.assigned id (some n) }

/-- The leader pushes its inventory. -/
def replicate (n : NodeId) : World :=
  let node := (s.daemon n).node
  s.send ((node.replicateTo s.now).map
    (fun dest => ⟨dest, .inventory (.push node.snapshot)⟩))

/-- The guest is marked stopped when the record, read again, still has it running here. -/
def onGuestExited (n : NodeId) (id : VmId) : World :=
  let d := s.daemon n
  match d.node.store.get id with
  | none => s
  | some record =>
    if record.state = .running ∧ record.nodeId = some n then
      (s.setDaemon n ((d.setAlive id false).upsertVm record.stopped).bump).replicate n
    else s

/-- A guest that another node owns is destroyed, and one that is gone is marked stopped. -/
def reconcileNext (n : NodeId) (vm : VmRecord) (rest : List VmRecord) : World :=
  let d := { s.daemon n with reconciling := rest }
  let mine := vm.nodeId == some n
  if d.alive vm.id && !mine then s.setDaemon n (d.setAlive vm.id false)
  else if mine && vm.state == .running && !d.alive vm.id then
    let d := if vm.template then d
      else { d with restoreOnBoot := d.restoreOnBoot ++ [vm.id] }
    (s.setDaemon n d).onGuestExited n vm.id
  else s.setDaemon n d

/-- The next guest of a pass, which is over when none is left. -/
def recoverNext (n : NodeId) (pass : Pass) : World :=
  let d := s.daemon n
  match pass.rest with
  | [] => (s.setDaemon n { d with pass := none }).replicate n
  | vm :: rest =>
    match recovery d.node pass.loads vm with
    | .skip => s.setDaemon n { d with pass := some { pass with rest := rest } }
    | .fail failed =>
      s.setDaemon n { d.upsertVm failed |>.bump with pass := some { pass with rest := rest } }
    | .run owner dest moving =>
      ((s.setDaemon n { d with pass := some { pass with waiting := .run owner dest } }).assign
        vm.id dest).send [⟨dest, .run n moving⟩]

/-- The pass turns to its next guest. -/
def recovered (n : NodeId) (pass : Pass) (record : VmRecord) : World :=
  s.setDaemon n { (s.daemon n).upsertVm record |>.bump with
    pass := some { pass with rest := pass.rest.tail, waiting := .nothing } }

/-- The run request that a pass waits for is answered, or fails. -/
def runAnswered (n : NodeId) (pass : Pass) (owner : NodeId) (vm : VmRecord) :
    Except String VmRecord → World
  | .error text => s.recovered n pass (vm.failed text)
  | .ok started =>
    (s.setDaemon n { s.daemon n with pass := some { pass with waiting := .drop started } }).send
      [⟨owner, .drop { vm with nodeId := some owner }⟩]

def answer (n : NodeId) (id : VmId) (answerTo : Option NodeId)
    (result : Except String VmRecord) : World :=
  match answerTo with
  | none => s
  | some dest => s.send [⟨dest, .ran n id result⟩]

/-- `apply_run`, up to the start gate. -/
def applyRun (n sender : NodeId) (record : VmRecord) : World :=
  let d := s.daemon n
  if d.alive record.id then
    let running := { record with nodeId := some n, state := .running }
    (s.setDaemon n (d.upsertVm running)).answer n record.id (some sender) (.ok running)
  else
    let d := (d.upsertVm (record.toRun n s.runDir)).setAlive record.id false
    match d.beginStart record.id (some sender) with
    | .ok d => s.setDaemon n d
    | .error text => (s.setDaemon n d).answer n record.id (some sender) (.error text)

/-- The second half of `start_local`: the record is read again behind the gate. -/
def finishStart (n : NodeId) (id : VmId) (answerTo : Option NodeId) (outcome : Outcome) : World :=
  let d := s.daemon n
  match d.node.store.get id with
  | none => s.answer n id answerTo (.error s!"vm not found: {id.text}")
  | some record =>
    if record.state = .running then s.answer n id answerTo (.ok record)
    else
      match outcome with
      | .refused text => s.answer n id answerTo (.error text)
      | .failed created text =>
        let failed := (record.withCreated created).failed text
        (s.setDaemon n (d.upsertVm failed)).answer n id answerTo (.error text)
      | .started created pid =>
        let started := record.started n created pid
        ((s.setDaemon n ((d.setAlive id true).upsertVm started).bump).replicate n).answer n id
          answerTo (.ok started)

def receive (p : Packet) : World :=
  let d := s.daemon p.dest
  match p.message with
  | .inventory body =>
    let (node, reply) := body.receive d.node s.now p.dest
    (s.setDaemon p.dest { d with node := node }).send
      (reply.toList.map (fun r => ⟨r.1, .inventory r.2⟩))
  | .run sender record => s.applyRun p.dest sender record
  | .ran sender id result =>
    match d.pass with
    | some { loads, rest := vm :: rest, waiting := .run owner dest } =>
      if dest = sender ∧ vm.id = id then
        s.runAnswered p.dest ⟨loads, vm :: rest, .run owner dest⟩ owner vm result
      else s
    | _ => s
  | .drop record => s.setDaemon p.dest (d.setAlive record.id false)

def autostartNext (n : NodeId) (vm : VmRecord) (rest : List VmRecord) (fits : Bool) : World :=
  let d := { s.daemon n with candidates := rest }
  if d.autostarted.contains vm.id then s.setDaemon n d
  else if vm.state = .running then
    s.setDaemon n { d with autostarted := d.autostarted ++ [vm.id] }
  else if !fits then s.setDaemon n { d with candidates := [] }
  else
    let d := { d with autostarted := d.autostarted ++ [vm.id] }
    match d.beginStart vm.id none with
    | .ok d => (s.setDaemon n d).assign vm.id n
    | .error _ => s.setDaemon n d

def step (s : World) : Action → Option World
  | .advance ms => some { s with now := s.now + ms }
  | .sendHeartbeats n =>
    let d := s.daemon n
    let node := { d.node with cluster := d.node.cluster.touchSelf s.now }
    some ((s.setDaemon n { d with node := node }).send (node.cluster.peersExceptSelf.map
      (fun dest => ⟨dest, .inventory (.heartbeat node.heartbeatOut)⟩)))
  | .judge n => some (s.setDaemon n ((s.daemon n).judge n s.now))
  | .fenceNext n =>
    match (s.daemon n).fencing with
    | [] => none
    | vm :: rest => some (s.setDaemon n ((s.daemon n).fenceNext vm rest))
  | .reconcile n =>
    let d := s.daemon n
    some (s.setDaemon n { d with reconciling := d.node.store.rows })
  | .reconcileNext n =>
    match (s.daemon n).reconciling with
    | [] => none
    | vm :: rest => some (s.reconcileNext n vm rest)
  | .recover n =>
    let d := s.daemon n
    if d.quorum && d.node.cluster.haArmed && d.pass.isNone then
      some (s.setDaemon n { d with
        pass := some { loads := d.node.loads s.now, rest := d.node.store.rows } })
    else none
  | .recoverNext n =>
    match (s.daemon n).pass with
    | some { loads, rest, waiting := .nothing } => some (s.recoverNext n { loads, rest })
    | _ => none
  | .giveUp n text =>
    match (s.daemon n).pass with
    | some { loads, rest := vm :: rest, waiting := .run owner dest } =>
      some (s.runAnswered n ⟨loads, vm :: rest, .run owner dest⟩ owner vm (.error text))
    | _ => none
  | .dropped n =>
    match (s.daemon n).pass with
    | some { loads, rest, waiting := .drop started } =>
      some (s.recovered n ⟨loads, rest, .drop started⟩ started)
    | _ => none
  | .autostart n =>
    let d := s.daemon n
    if d.quorum && !d.node.cluster.fenced then
      some (s.setDaemon n { d with candidates := d.autostartCandidates n s.now })
    else none
  | .autostartNext n fits =>
    match (s.daemon n).candidates with
    | [] => none
    | vm :: rest => some (s.autostartNext n vm rest fits)
  | .finishStart n i outcome =>
    match (s.daemon n).starting[i]? with
    | none => none
    | some (id, answerTo) =>
      let d := { s.daemon n with starting := (s.daemon n).starting.eraseIdx i }
      some ((s.setDaemon n d).finishStart n id answerTo outcome)
  | .exit n id => some (s.setDaemon n ((s.daemon n).setAlive id false))
  | .exitWatch n id =>
    if (s.daemon n).alive id then none else some (s.onGuestExited n id)
  | .deliver i =>
    match s.net[i]? with
    | none => none
    | some p => some ({ s with net := s.net.eraseIdx i }.receive p)
  | .lose i => some { s with net := s.net.eraseIdx i }

end World

end Pertisk.Ha
