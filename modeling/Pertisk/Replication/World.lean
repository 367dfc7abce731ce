import Mathlib.Logic.Function.Basic
import Pertisk.Lib.Run
import Pertisk.Node

namespace Pertisk.Replication
open Lib

/-- The two maps that a snapshot replaces. -/
structure Inventory where
  store : Table VmRecord VmRecord.id
  volumes : Table StoredVolume StoredVolume.id

/-- One record of the inventory. -/
inductive Key
  | vm (id : VmId)
  | volume (id : VolumeId)
  deriving DecidableEq

inductive Entry
  | vm (record : VmRecord)
  | volume (record : VolumeRecord)
  deriving DecidableEq

def Inventory.entry (v : Inventory) : Key → Option Entry
  | .vm id => (v.store.get id).map .vm
  | .volume id => (v.volumes.get id).map (fun x => .volume x.record)

def ofNode (n : Node) : Inventory := ⟨n.store, n.volumes⟩

/-- The inventory that a receiver of the snapshot builds from it. -/
def ofSnapshot (snap : ClusterSnapshot) : Inventory :=
  ⟨Table.ofList snap.vms, Table.ofList (snap.volumes.map StoredVolume.ofRecord)⟩

@[simp] theorem ofSnapshot_snapshot (n : Node) : ofSnapshot n.snapshot = ofNode n := by
  simp [ofSnapshot, ofNode, Node.snapshot]

/-- The store and volume map writes that the operations are made of. -/
inductive Write
  | upsertVm (record : VmRecord)
  | removeVm (id : VmId)
  | putRecord (record : VolumeRecord)
  | removeVolume (id : VolumeId)

namespace Write

def key : Write → Key
  | upsertVm record => .vm record.id
  | removeVm id => .vm id
  | putRecord record => .volume record.id
  | removeVolume id => .volume id

def value : Write → Option Entry
  | upsertVm record => some (.vm record)
  | putRecord record => some (.volume record.localize)
  | removeVm _ | removeVolume _ => none

def apply (n : Node) : Write → Node
  | upsertVm record => n.upsertVm record
  | removeVm id => n.removeVm id
  | putRecord record => n.putRecord record
  | removeVolume id => n.removeVolume id

@[simp] theorem apply_cluster (n : Node) (x : Write) : (x.apply n).cluster = n.cluster := by
  cases x <;> rfl

/-- A write changes its own record and no other one. -/
theorem apply_entry (n : Node) (x : Write) (k : Key) :
    (ofNode (x.apply n)).entry k = if k = x.key then x.value else (ofNode n).entry k := by
  cases x with
  | upsertVm record =>
    cases k with
    | volume id => simp [apply, ofNode, Inventory.entry, key, Node.upsertVm]
    | vm id =>
      simp only [apply, ofNode, Inventory.entry, Node.upsertVm, Table.get_insert, key, value]
      rcases eq_or_ne record.id id with rfl | h
      · simp
      · simp [h, h.symm]
  | removeVm id =>
    cases k with
    | volume j => simp [apply, ofNode, Inventory.entry, key, Node.removeVm]
    | vm j =>
      simp only [apply, ofNode, Inventory.entry, Node.removeVm, Table.get_erase, key, value]
      rcases eq_or_ne j id with rfl | h
      · simp
      · simp [h]
  | putRecord record =>
    cases k with
    | vm id => simp [apply, ofNode, Inventory.entry, key, Node.putRecord]
    | volume id =>
      simp only [apply, ofNode, Inventory.entry, Node.putRecord, Table.get_insert, key, value,
        StoredVolume.ofRecord_id]
      rcases eq_or_ne record.id id with rfl | h
      · simp [StoredVolume.ofRecord]
      · simp [h, h.symm]
  | removeVolume id =>
    cases k with
    | vm j => simp [apply, ofNode, Inventory.entry, key, Node.removeVolume]
    | volume j =>
      simp only [apply, ofNode, Inventory.entry, Node.removeVolume, Table.get_erase, key, value]
      rcases eq_or_ne j id with rfl | h
      · simp
      · simp [h]

end Write

/-- What nodes send each other about the inventory. -/
inductive Body
  | push (snap : ClusterSnapshot)
  | heartbeat (msg : HeartbeatMessage)
  | reply (peer : NodeId) (snap : Option ClusterSnapshot)

namespace Body

def snapshot : Body → Option ClusterSnapshot
  | push snap => some snap
  | heartbeat msg => msg.snapshot
  | reply _ snap => snap

/-- The receiver's handler, and its answer with the node it goes to. -/
def receive (n : Node) (now : Nat) (dest : NodeId) : Body → Node × Option (NodeId × Body)
  | push snap => (n.applySnapshot now snap, none)
  | heartbeat msg =>
    let (n, snap) := n.onHeartbeat now msg
    (n, some (msg.sender, .reply dest snap))
  | reply peer snap => (n.onHeartbeatReply now peer snap, none)

/-- The receiver takes the inventory of the snapshot that came in. -/
def adopted (n : Node) (b : Body) : Bool :=
  match b.snapshot with
  | some snap => n.cluster.generation < snap.generation
  | none => false

/-- The snapshot that the answer carries back. -/
def answer (n : Node) (now : Nat) (dest : NodeId) (b : Body) : Option ClusterSnapshot :=
  (b.receive n now dest).2.bind (fun r => r.2.snapshot)

end Body

/-- A message on its way, and (as bookkeeping only) which change each of its records is from. -/
structure Packet where
  dest : NodeId
  body : Body
  stamp : Key → Nat

structure Change where
  key : Key
  value : Option Entry

/-- All nodes and the messages between them. `log` numbers the changes that operations made,
and `stamp` says for each node and record the number of the change it is from; neither is read
by a node. -/
structure World where
  now : Nat
  node : NodeId → Node
  pending : NodeId → Nat
  net : List Packet
  log : List Change
  stamp : NodeId → Key → Nat

/-- An operation is a quorum check, its writes, and then its bump, if it makes one. -/
inductive Action
  | advance (ms : Nat)
  | begin (n : NodeId)
  | write (n : NodeId) (x : Write)
  | finish (n : NodeId) (bumps : Bool)
  | replicate (n : NodeId)
  | sendHeartbeats (n : NodeId)
  | deliver (i : Nat)
  | lose (i : Nat)

namespace World

def setNode (w : World) (id : NodeId) (n : Node) : World :=
  { w with node := Function.update w.node id n }

def setPending (w : World) (id : NodeId) (k : Nat) : World :=
  { w with pending := Function.update w.pending id k }

def record (w : World) (id : NodeId) (x : Write) : World :=
  { w with
    log := w.log ++ [⟨x.key, x.value⟩]
    stamp := Function.update w.stamp id (Function.update (w.stamp id) x.key (w.log.length + 1)) }

def send (w : World) (sender : NodeId) (dests : List NodeId) (body : Body) : World :=
  { w with net := w.net ++ dests.map (fun d => ⟨d, body, w.stamp sender⟩) }

def receive (w : World) (p : Packet) : World :=
  let n := w.node p.dest
  let (n', reply) := p.body.receive n w.now p.dest
  let w := { w.setNode p.dest n' with
    stamp := if p.body.adopted n then Function.update w.stamp p.dest p.stamp else w.stamp }
  match reply with
  | some (dest, body) => w.send p.dest [dest] body
  | none => w

def step (w : World) : Action → Option World
  | .advance ms => some { w with now := w.now + ms }
  | .begin id =>
    if (w.node id).cluster.requireQuorum w.now then
      some (w.setPending id (w.pending id + 1))
    else none
  | .write id x =>
    if w.pending id = 0 then none
    else some ((w.setNode id (x.apply (w.node id))).record id x)
  | .finish id bumps =>
    if w.pending id = 0 then none
    else
      let n := if bumps then (w.node id).bump else w.node id
      some ((w.setNode id n).setPending id (w.pending id - 1))
  | .replicate id =>
    let n := w.node id
    some (w.send id (n.replicateTo w.now) (.push n.snapshot))
  | .sendHeartbeats id =>
    let n := w.node id
    some (w.send id n.cluster.peersExceptSelf (.heartbeat n.heartbeatOut))
  | .deliver i =>
    match w.net[i]? with
    | some p => some ({ w with net := w.net.eraseIdx i }.receive p)
    | none => none
  | .lose i => some { w with net := w.net.eraseIdx i }

def inventory (w : World) (id : NodeId) : Inventory := ofNode (w.node id)

def entry (w : World) (id : NodeId) (k : Key) : Option Entry := (w.inventory id).entry k

def generation (w : World) (id : NodeId) : Nat := (w.node id).cluster.generation

/-- Every node has the same inventory, nothing is in flight and no operation is open. -/
structure Start (w : World) (origin : Inventory) : Prop where
  shared : ∀ id, w.inventory id = origin
  idle : ∀ id, w.pending id = 0
  silent : w.net = []
  unlogged : w.log = []
  unstamped : ∀ id k, w.stamp id k = 0

end World

end Pertisk.Replication
