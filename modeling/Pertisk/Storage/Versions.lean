import Pertisk.Lib.Run
import Pertisk.Lib.Versions
import Pertisk.Storage.Holders

namespace Pertisk.Storage
open Lib

/-- A file with the number of the last guest write in it; an image made blank has none. -/
structure Tagged (β : Type) where
  version : Nat
  bytes : β
  deriving DecidableEq

instance {β : Type} [Contents β] : Contents (Tagged β) where
  len f := len f.bytes
  allocated f := allocated f.bytes
  createRaw size := ⟨0, createRaw size⟩
  createQcow2 size := ⟨0, createQcow2 size⟩

variable {β : Type} [Contents β]

/-- The nodes with their files, where guests that use a volume run and where one was started
last, and the number of guest writes so far. A volume keeps its format and backend for good. -/
structure World (β : Type) [Contents β] where
  fleet : Fleet (Tagged β)
  running : NodeId → VolumeId → Bool
  owner : VolumeId → Option NodeId
  writes : Nat
  format : VolumeId → VolumeFormat
  backend : VolumeId → StorageBackend

inductive Action (β : Type)
  | start (n : NodeId) (id : VolumeId)
  | stop (n : NodeId) (id : VolumeId)
  /-- The guest writes to its disk. -/
  | write (n : NodeId) (id : VolumeId) (bytes : β)
  /-- The service changes its own file: resize, snapshot, restore. -/
  | edit (n : NodeId) (id : VolumeId) (bytes : β)
  | sync (env : Env) (now : Nat) (n : NodeId) (id : VolumeId)
  | rebuild (env : Env) (now : Nat) (n : NodeId)
  | ensure (env : Env) (n : NodeId) (spec : VmSpec) (dest : NodeId)
  | pullMissing (env : Env) (now : Nat) (n : NodeId) (spec : VmSpec)
  /-- Anything that changes what a node knows, and no files. -/
  | inventory (n : NodeId) (node : Node)

/-- The node's own changes of its file. -/
def Action.changes {β : Type} : Action β → NodeId → VolumeId → Bool
  | .write m j _, n, id | .edit m j _, n, id => m = n && j = id
  | _, _, _ => false

namespace World

variable (s : World β)

def path (id : VolumeId) : PathBuf := .disk id (s.format id)

def file (n : NodeId) (id : VolumeId) : Option (Tagged β) := (s.fleet n).files (s.path id)

def putFile (n : NodeId) (id : VolumeId) (file : Tagged β) : World β :=
  { s with fleet := Function.update s.fleet n ((s.fleet n).writeFile (s.path id) file) }

def setRunning (n : NodeId) (id : VolumeId) (on : Bool) : World β :=
  { s with running := Function.update s.running n (Function.update (s.running n) id on) }

def putNode (n : NodeId) (node : Node) : World β :=
  { s with fleet := Function.update s.fleet n { s.fleet n with node := node } }

/-- The record has the volume's format and backend. -/
def Fits (record : VolumeRecord) : Prop :=
  record.format = s.format record.id ∧ record.backend = s.backend record.id

instance (record : VolumeRecord) : Decidable (s.Fits record) :=
  inferInstanceAs (Decidable (_ ∧ _))

def step (s : World β) : Action β → Option (World β)
  | .start n id =>
    match s.file n id with
    | none => none
    | some _ =>
      some { s.setRunning n id true with owner := Function.update s.owner id (some n) }
  | .stop n id => some (s.setRunning n id false)
  | .write n id bytes =>
    match s.file n id with
    | none => none
    | some old =>
      -- a guest does not shrink its image
      if s.running n id && decide (len old ≤ len bytes) then
        some { s.putFile n id ⟨s.writes + 1, bytes⟩ with writes := s.writes + 1 }
      else none
  | .edit n id bytes =>
    match s.file n id with
    | none => none
    | some old =>
      if 0 < len old → 0 < len bytes then some (s.putFile n id ⟨old.version, bytes⟩) else none
  | .sync env now n id =>
    match (s.fleet n).getVolume id with
    | none => none
    | some record =>
      let online := (s.fleet n).node.cluster.onlineIds now
      some { s with fleet := syncVolumeReplicas env online n s.fleet record }
  | .rebuild env now n =>
    if (s.fleet n).node.cluster.hasQuorum now && (s.fleet n).node.cluster.isLeader now then
      some { s with fleet := rebuildVolumes env now n s.fleet }
    else none
  | .ensure env n spec dest =>
    some { s with fleet := (ensureVolumesOnNode env s.fleet n spec dest).1 }
  | .pullMissing env now n spec =>
    some { s with fleet := (pullMissingVolumes env now s.fleet n spec).1 }
  | .inventory n node =>
    if ∀ record ∈ node.listVolumes, s.Fits record then some (s.putNode n node) else none

/-- No guest has been started yet, and nothing been written. -/
structure Start : Prop where
  idle : ∀ n id, s.running n id = false
  unowned : ∀ id, s.owner id = none
  blank : ∀ n id f, s.file n id = some f → f.version = 0
  fits : ∀ n id record, (s.fleet n).getVolume id = some record → s.Fits record

/-- The files of one volume. -/
def copies (id : VolumeId) : Copies NodeId (Tagged β) where
  copy n := s.file n id
  inUse n := s.running n id
  owner := s.owner id

/-- There are bytes in the file. -/
def Full (f : Tagged β) : Prop := 0 < len f

structure Valid : Prop where
  newest : ∀ id, (s.copies id).Newest Tagged.version Full s.writes
  fits : ∀ n id record, (s.fleet n).getVolume id = some record → s.Fits record

/-- What a host of a later fleet may have of a volume. -/
def Held (id : VolumeId) (n : NodeId) (c : Copy (Tagged β)) : Prop :=
  (s.copies id).Moved Tagged.version Full n (c.file (s.format id)) ∧
    ∀ record, c.record = some record → s.Fits record

/-- The node is the one that a guest with the volume was started on last, and no other node runs
one. -/
def MayPush (n : NodeId) (id : VolumeId) : Prop :=
  (∀ o, s.owner id = some o → o = n) ∧ ∀ m, m ≠ n → s.running m id = false

end World

end Pertisk.Storage
