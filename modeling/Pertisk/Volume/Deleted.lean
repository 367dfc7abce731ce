import Pertisk.Replication.World
import Pertisk.Storage.Ensure
import Pertisk.Storage.Replica
import Pertisk.Volume.Users

namespace Pertisk.Volume.Deleted
open Lib Storage

variable {β : Type} [Contents β]

/-- A call that one node has under way to another, or to its own storage. -/
inductive Body (β : Type)
  | inventory (body : Replication.Body)
  | ensure (record : VolumeRecord)
  | delete (id : VolumeId)
  | blob (id : VolumeId) (bytes : β)

structure Parcel (β : Type) where
  dest : NodeId
  body : Body β

/-- What a rebuild pass found when it began: the nodes online and the records it has still to come
to. -/
structure Pass where
  online : List NodeId := []
  vols : List VolumeRecord := []

/-- The nodes with what is under way between them. `deleted` has the acknowledged deletes with the
generation that each was published as, and `seen` the latest generation that a node has received a
snapshot of; neither is read by a node. -/
structure World (β : Type) [Contents β] where
  now : Nat
  fleet : Fleet β
  passes : NodeId → Pass
  net : List (Parcel β)
  deleted : List (VolumeId × Nat)
  seen : NodeId → Nat

inductive Action (β : Type)
  | advance (ms : Nat)
  | create (n : NodeId) (record : VolumeRecord) (file : β)
  | delete (n : NodeId) (id : VolumeId)
  /-- Any other operation that publishes, on guests. -/
  | guests (n : NodeId) (store : Table VmRecord VmRecord.id)
  | replicate (n : NodeId)
  | heartbeats (n : NodeId)
  | beginPass (n : NodeId)
  /-- The pass of the node comes to its next volume. -/
  | place (n : NodeId)
  | ensureOn (n dest : NodeId) (id : VolumeId)
  | push (n dest : NodeId) (id : VolumeId)
  | pull (n src : NodeId) (id : VolumeId)
  | deliver (i : Nat)
  | lose (i : Nat)
  /-- The daemon ends and starts again, and finds these files in its directory. -/
  | restart (n : NodeId) (entries : List (VolumeId × VolumeFormat))

section storage

/-- The record that an image file without one is registered with. -/
def recovered (id : VolumeId) (format : VolumeFormat) (sizeBytes : Nat) : VolumeRecord where
  id := id
  name := s!"recovered-{uuidText id}"
  format := format
  sizeBytes := sizeBytes
  path := .disk id format
  replicas := []
  replicaCount := 1

def recoverOrphanDisk (h : Host β) (entry : VolumeId × VolumeFormat) : Host β :=
  match h.getVolume entry.1, h.files (.disk entry.1 entry.2) with
  | none, some file =>
    if len file = 0 then h else h.putRecord (recovered entry.1 entry.2 (len file))
  | _, _ => h

def recoverOrphanDisks (h : Host β) (entries : List (VolumeId × VolumeFormat)) : Host β :=
  entries.foldl recoverOrphanDisk h

/-- The record goes with the file that it names. -/
def deleteVolume (h : Host β) (id : VolumeId) : Option (Host β) :=
  (h.getVolume id).map (fun record =>
    { h with
      node := h.node.removeVolume id
      files := Function.update h.files record.path none })

/-- A daemon comes up with its saved view, and takes every member for online. -/
def reopened (now : Nat) (c : Cluster) : Cluster :=
  { c with
    members := c.members.mapRows (fun m => { m with lastSeenMs := now }) (fun _ => rfl)
    fenced := false
    witnessHolder := none
    witnessUntilMs := 0 }

def reopen (now : Nat) (h : Host β) (entries : List (VolumeId × VolumeFormat)) : Host β :=
  recoverOrphanDisks { h with node := { h.node with cluster := reopened now h.node.cluster } }
    entries

/-- The listing is that of the node's `disks` directory. -/
def ListsDisks (h : Host β) (entries : List (VolumeId × VolumeFormat)) : Prop :=
  ∀ id format, (id, format) ∈ entries ↔ (h.files (.disk id format)).isSome = true

/-- The ensure calls of a record, the one to the node's own storage among them. -/
def ensures (record : VolumeRecord) : List (Parcel β) :=
  record.replicas.map (fun m => ⟨m, .ensure record⟩)

end storage

namespace World

variable (env : Env) (w : World β)

def setHost (n : NodeId) (h : Host β) : World β :=
  { w with fleet := Function.update w.fleet n h }

def setPass (n : NodeId) (pass : Pass) : World β :=
  { w with passes := Function.update w.passes n pass }

def send (parcels : List (Parcel β)) : World β := { w with net := w.net ++ parcels }

def generation (n : NodeId) : Nat := (w.fleet n).node.cluster.generation

def see (n : NodeId) (generation : Nat) : World β :=
  { w with seen := Function.update w.seen n (max (w.seen n) generation) }

/-- One volume of a rebuild pass. -/
def placeVolume (n : NodeId) (online : List NodeId) (vol : VolumeRecord) : World β :=
  if vol.backend.external || !(w.fleet n).attached vol.id then w
  else
    let vol := rebuiltRecord online n vol
    let w := (w.setHost n ((w.fleet n).putRecord vol)).send (ensures vol)
    -- the node that is no replica itself makes a file to pull into
    if (w.fleet n).hasLocal vol.id vol.format then w else w.send [⟨n, .ensure vol⟩]

def receive (p : Parcel β) : World β :=
  let h := w.fleet p.dest
  match p.body with
  | .inventory body =>
    let (node, reply) := body.receive h.node w.now p.dest
    let w := w.setHost p.dest { h with node := node }
    let w := match body.snapshot with
      | some snap => w.see p.dest snap.generation
      | none => w
    match reply with
    | some (dest, body) => w.send [⟨dest, .inventory body⟩]
    | none => w
  | .ensure record => w.setHost p.dest (h.ensureLocal env p.dest record).1
  | .delete id =>
    match deleteVolume h id with
    | some h => w.setHost p.dest h
    | none => w
  | .blob id bytes =>
    match h.writeBlobFromPath id bytes with
    | .ok (h, _) => w.setHost p.dest h
    | .error _ => w

def step (w : World β) : Action β → Option (World β)
  | .advance ms => some { w with now := w.now + ms }
  | .create n record file =>
    -- a new id is a random one
    if record.id ∈ w.deleted.map Prod.fst then none
    else
      let h := (w.fleet n).putRecord record
      let h := if record.backend.external then h
        else h.writeFile (.disk record.id record.format) file
      some ((w.setHost n h.bump).send (ensures record.localize))
  | .delete n id =>
    match (w.fleet n).volumeUsers id, (w.fleet n).getVolume id, deleteVolume (w.fleet n) id with
    | [], some record, some h =>
      let generation := h.bump.node.cluster.generation
      let w := (w.setHost n h.bump).send
        ((record.replicas.filter (fun m => m ≠ n)).map (fun m => ⟨m, .delete id⟩))
      some { w with deleted := w.deleted ++ [(id, generation)] }
    | _, _, _ => none
  | .guests n store =>
    let h := w.fleet n
    some (w.setHost n { h with node := { h.node with store := store }.bump })
  | .replicate n =>
    let node := (w.fleet n).node
    some (w.send ((node.replicateTo w.now).map (fun m => ⟨m, .inventory (.push node.snapshot)⟩)))
  | .heartbeats n =>
    let node := (w.fleet n).node
    some (w.send (node.cluster.peersExceptSelf.map (fun m =>
      ⟨m, .inventory (.heartbeat node.heartbeatOut)⟩)))
  | .beginPass n =>
    let node := (w.fleet n).node
    if (w.passes n).vols.isEmpty && node.cluster.hasQuorum w.now && node.cluster.isLeader w.now then
      some (w.setPass n ⟨node.cluster.onlineIds w.now, node.listVolumes⟩)
    else none
  | .place n =>
    match w.passes n with
    | ⟨_, []⟩ => none
    | ⟨online, vol :: vols⟩ => some ((w.setPass n ⟨online, vols⟩).placeVolume n online vol)
  | .ensureOn n dest id =>
    match (w.fleet n).getVolume id with
    | none => none
    | some vol =>
      if vol.backend.external then none
      else
        let (h, vol) := addReplica (w.fleet n) vol dest
        some ((w.setHost n h).send [⟨dest, .ensure vol⟩])
  | .push n dest id =>
    match (w.fleet n).getVolume id, (w.fleet n).volumeFile id with
    | some record, some file =>
      if record.backend.external then none else some (w.send [⟨dest, .blob id file⟩])
    | _, _ => none
  | .pull n src id =>
    match (w.fleet src).peerVolumeBlobGet id with
    | .error _ => none
    | .ok bytes =>
      match (w.fleet n).writeBlobFromPath id bytes with
      | .error _ => none
      | .ok (h, record) =>
        let replicas := record.replicas ++ [n]
        let h := if record.replicas.contains n then h
          else h.putRecord { record with
            replicas := replicas
            replicaCount := max (replicas.length % 256) record.replicaCount }
        some (w.setHost n h)
  | .deliver i =>
    match w.net[i]? with
    | some p => some ({ w with net := w.net.eraseIdx i }.receive env p)
    | none => none
  | .lose i => some { w with net := w.net.eraseIdx i }
  | .restart n entries =>
    -- the calls to the daemon fail, and those of its own pass end with it
    let w := { w.setPass n {} with net := w.net.filter (fun p => p.dest ≠ n) }
    some (w.setHost n (reopen w.now (w.fleet n) entries))

end World

end Pertisk.Volume.Deleted
