import Pertisk.Lib.Ledger
import Pertisk.Lib.Run
import Pertisk.Storage.Replica
import Pertisk.Volume.Users
import Pertisk.Volume.Zfs

namespace Pertisk

def VolumeRecord.hasSnapshot (r : VolumeRecord) (name : String) : Bool :=
  r.snapshots.any (fun snap => snap.name == name)

namespace Volume
open Lib

def trimmed (s : String) : String := String.ofList (PeerUrl.trim s.toList)

theorem not_space_dropWhile {s : List Char} {c : Char}
    (h : c ∈ (s.dropWhile PeerUrl.isWhiteSpace).head?) : PeerUrl.isWhiteSpace c = false := by
  have hhead := List.head?_dropWhile_not PeerUrl.isWhiteSpace s
  rw [Option.mem_def] at h
  rw [h] at hhead
  exact hhead

theorem trimmed_trimmed (s : String) : trimmed (trimmed s) = trimmed s := by
  have hprefix : PeerUrl.trim s.toList <+: s.toList.dropWhile PeerUrl.isWhiteSpace := by
    have hsuffix := List.dropWhile_suffix (l := (s.toList.dropWhile PeerUrl.isWhiteSpace).reverse)
      PeerUrl.isWhiteSpace
    have hrev := List.reverse_prefix.mpr hsuffix
    rwa [List.reverse_reverse] at hrev
  unfold trimmed
  rw [String.toList_ofList]
  refine congrArg String.ofList (PeerUrl.trim_eq_self (fun c hc => ?_) (fun c hc => ?_))
  · obtain ⟨rest, hrest⟩ := hprefix
    refine not_space_dropWhile (s := s.toList) ?_
    rw [← hrest]
    cases htrim : PeerUrl.trim s.toList with
    | nil =>
      rw [htrim] at hc
      cases hc
    | cons d ds =>
      rw [htrim] at hc
      exact hc
  · rw [PeerUrl.trim, PeerUrl.trimEnd, List.getLast?_reverse] at hc
    exact not_space_dropWhile hc

/-- A cleaned note, for one that passed its check. -/
def cleaned (notes : Option String) : Option String := (cleanVolumeNotes notes).toOption.join

/-- What a daemon has to work on volumes with. -/
structure Tools where
  self : NodeId
  qemuImg : Bool
  zfs : Zfs
  rbd : Rbd

/-- The operations that read a volume's record, work, and put the whole record back. `live` ones
were carried out by the QEMU that has the image open. -/
inductive Edit
  | snapshot (name : String) (notes : Option String) (now : Nat) (live : Bool)
  | setSnapshotNotes (name : String) (notes : String)
  | deleteSnapshot (name : String) (live : Bool)
  | resize (sizeBytes : Nat)
  | rename (name : String)
  | setNotes (notes : String)
  | rebuild (online : List NodeId)
  /-- A rebuild puts its record back once more when this node has no file of the volume. -/
  | ensureLocal
  | ensureOn (dest : NodeId)
  | pullMissing
  | writeBlob (len : Nat)

/-- What an edit made of the record, for whoever asked for it. -/
inductive Change
  | snapshot (snap : VolumeSnapshot)
  | noSnapshot (name : String)
  | snapshotNotes (name : String) (notes : Option String)
  | size (sizeBytes : Nat)
  | named (name : String)
  | noted (notes : Option String)
  deriving DecidableEq

/-- The record has the change. A snapshot's note is a change of its own. -/
def Change.Shows (r : VolumeRecord) : Change → Prop
  | .snapshot snap => ∃ s ∈ r.snapshots,
      s.name = snap.name ∧ s.createdUnix = snap.createdUnix ∧ s.path = snap.path
  | .noSnapshot name => ∀ s ∈ r.snapshots, s.name ≠ name
  | .snapshotNotes name notes => ∃ s ∈ r.snapshots, s.name = name ∧ s.notes = notes
  | .size sizeBytes => r.sizeBytes = sizeBytes
  | .named name => r.name = name
  | .noted notes => r.notes = notes

/-- A later change that takes the place of an earlier one. -/
def Change.Replaces : Change → Change → Prop
  | .noSnapshot name, .snapshot snap => snap.name = name
  | .noSnapshot name, .snapshotNotes other _ => other = name
  | .snapshot snap, .noSnapshot name => snap.name = name
  | .snapshotNotes name _, .snapshotNotes other _ => name = other
  | .size _, .size _ => True
  | .named _, .named _ => True
  | .noted _, .noted _ => True
  | _, _ => False

/-- `iter_mut().find(..)`. -/
def noteSnapshot (name : String) (notes : Option String) : List VolumeSnapshot → List VolumeSnapshot
  | [] => []
  | snap :: snaps =>
    if snap.name = name then { snap with notes := notes } :: snaps
    else snap :: noteSnapshot name notes snaps

/-- `id` gets a replica. -/
def joined (id : NodeId) (r : VolumeRecord) : VolumeRecord :=
  if r.replicas.contains id then r
  else
    let replicas := r.replicas ++ [id]
    { r with replicas := replicas, replicaCount := max (replicas.length % 256) r.replicaCount }

namespace Edit

variable (t : Tools) (n : Node) (r : VolumeRecord)

/-- What the daemon asks of its maps before it works. -/
def accept (now : Nat) : Edit → Except String Unit
  | .setSnapshotNotes .. | .deleteSnapshot .. | .setNotes _ =>
    match n.cluster.quorumError now with
    | some text => .error text
    | none => .ok ()
  | .resize _ => n.requireVolumeIdle r.id
  | .rename name =>
    match n.cluster.quorumError now with
    | some text => .error text
    | none =>
      if r.backend.external then n.requireVolumeIdle r.id
      else if n.listVolumes.any (fun vol => vol.id != r.id && vol.name == trimmed name) then
        .error s!"volume name already exists: {trimmed name}"
      else .ok ()
  | .rebuild _ =>
    if (n.volumeUsers r.id).isEmpty && !n.volumeIsBacking r.id then .error "detached" else .ok ()
  | _ => .ok ()

/-- What it asks of the record that it read. -/
def check : Edit → Except String Unit
  | .snapshot name notes .. =>
    if (trimmed name).isEmpty then .error "snapshot name is required"
    else if r.hasSnapshot (trimmed name) then .error s!"snapshot already exists: {trimmed name}"
    else (cleanVolumeNotes notes).map (fun _ => ())
  | .setSnapshotNotes name notes =>
    if (trimmed name).isEmpty then .error "snapshot name is required"
    else if !r.hasSnapshot (trimmed name) then .error s!"snapshot not found: {trimmed name}"
    else (cleanVolumeNotes (some notes)).map (fun _ => ())
  | .deleteSnapshot name _ =>
    if (trimmed name).isEmpty then .error "snapshot name is required"
    else if !r.hasSnapshot (trimmed name) then .error s!"snapshot not found: {trimmed name}"
    else .ok ()
  | .resize sizeBytes =>
    if sizeBytes < r.sizeBytes then
      .error s!"cannot shrink volume from {r.sizeBytes} to {sizeBytes} bytes"
    else .ok ()
  | .rename name => if (trimmed name).isEmpty then .error "volume name is required" else .ok ()
  | .setNotes notes => (cleanVolumeNotes (some notes)).map (fun _ => ())
  | .ensureOn _ =>
    if r.backend = .zfs then
      .error s!"cluster peer: volume {r.name} is a ZFS zvol on this node and cannot move"
    else .ok ()
  | .writeBlob _ =>
    if r.backend.external then
      .error s!"cannot write a blob to a {Storage.Host.backendText r.backend} volume"
    else .ok ()
  | _ => .ok ()

/-- There is nothing to put back. -/
def settled : Edit → Bool
  | .resize sizeBytes => sizeBytes == r.sizeBytes && !r.backend.external
  | .rename name => r.name == trimmed name
  | .rebuild _ => r.backend.external
  | .ensureOn dest => dest == t.self || r.backend.external || r.replicas.contains dest
  | .pullMissing => r.backend.external || r.replicas.contains t.self
  | _ => false

/-- A snapshot inside the image or the backend has no file of its own. -/
def entry (name : String) (notes : Option String) (now : Nat) (live : Bool) : VolumeSnapshot where
  name := trimmed name
  createdUnix := now
  notes := cleaned notes
  path :=
    if live || r.backend.external || (r.format == .qcow2 && t.qemuImg) then none
    else some (.text s!"snapshots/{uuidText r.id}/{trimmed name}")

/-- The record as the operation puts it back. -/
def write : Edit → VolumeRecord
  | .snapshot name notes now live =>
    { r with snapshots := r.snapshots ++ [entry t r name notes now live] }
  | .setSnapshotNotes name notes =>
    { r with snapshots := noteSnapshot (trimmed name) (cleaned (some notes)) r.snapshots }
  | .deleteSnapshot name live =>
    { r with snapshots :=
        if live then r.snapshots.filter (fun snap => snap.name != trimmed name)
        else r.snapshots.eraseP (fun snap => snap.name == trimmed name) }
  | .resize sizeBytes => { r with sizeBytes := sizeBytes }
  | .rename name =>
    { r with
      name := trimmed name
      path := match r.backend with
        | .replica => r.path
        | .rbd => t.rbd.imagePath (trimmed name)
        | .zfs => t.zfs.imagePath (trimmed name) }
  | .setNotes notes => { r with notes := cleaned (some notes) }
  | .rebuild online => Storage.rebuiltRecord online t.self r
  | .ensureLocal => r
  | .ensureOn dest => joined dest r
  | .pullMissing => joined t.self r
  | .writeBlob len => { r with sizeBytes := max r.sizeBytes len }

def changes : Edit → List Change
  | .snapshot name notes now live =>
    let snap := entry t r name notes now live
    [.snapshot snap, .snapshotNotes snap.name snap.notes]
  | .setSnapshotNotes name notes => [.snapshotNotes (trimmed name) (cleaned (some notes))]
  | .deleteSnapshot name _ => [.noSnapshot (trimmed name)]
  | .resize sizeBytes => [.size sizeBytes]
  | .rename name => [.named (trimmed name)]
  | .setNotes notes => [.noted (cleaned (some notes))]
  | .writeBlob len => if r.sizeBytes ≤ len then [.size len] else []
  | _ => []

/-- The writers that copy images do not tell the peers. -/
def bumps : Edit → Bool
  | .rebuild _ | .ensureLocal | .pullMissing | .writeBlob _ => false
  | _ => true

/-- The record without what the edit sets itself. -/
def rest : Edit → VolumeRecord
  | .setSnapshotNotes name _ =>
    { r with snapshots := r.snapshots.map (fun snap =>
        if snap.name = trimmed name then { snap with notes := none } else snap) }
  | .deleteSnapshot name _ =>
    { r with snapshots := r.snapshots.filter (fun snap => snap.name != trimmed name) }
  | .resize _ => { r with sizeBytes := 0 }
  | .rename _ => { r with name := "" }
  | .setNotes _ => { r with notes := none }
  | .writeBlob len => { r with sizeBytes := max r.sizeBytes len }
  | _ => r

end Edit

/-- An operation at work, with the record that it read and found fit. -/
structure Job where
  edit : Edit
  copy : VolumeRecord
  checked : edit.check copy = .ok ()

/-- A daemon's volume map with the operations at work on it. `done` and `removed` are what was
carried out so far; no daemon keeps them. -/
structure Editing where
  node : Node
  jobs : List Job
  deleting : List VolumeId
  done : VolumeId → List Change
  removed : VolumeId → Bool

inductive EditAction
  | begin (edit : Edit) (id : VolumeId) (now : Nat)
  | finish (i : Nat)
  | fail (i : Nat)
  | delete (id : VolumeId)
  | remove (id : VolumeId)
  /-- A guest's record changes. -/
  | guest (vm : VmRecord)

namespace Editing

variable (t : Tools) (w : Editing)

def begin (edit : Edit) (id : VolumeId) (now : Nat) : Editing :=
  match w.node.getVolume id with
  | none => w
  | some copy =>
    match edit.accept w.node copy now with
    | .error _ => w
    | .ok () =>
      match h : edit.check copy with
      | .error _ => w
      | .ok () =>
        if edit.settled t copy then w else { w with jobs := w.jobs ++ [⟨edit, copy, h⟩] }

/-- What an operation still has to put back after its first time. -/
def followUp (job : Job) : List Job :=
  match job.edit with
  | .rebuild _ => [⟨.ensureLocal, job.edit.write t job.copy, rfl⟩]
  | _ => []

def finish (i : Nat) (job : Job) : Editing :=
  let record := job.edit.write t job.copy
  let node := w.node.putRecord record
  let node := match job.edit with
    | .rename _ => if record.backend.external then node.repath record else node
    | _ => node
  { w with
    node := if job.edit.bumps then node.bump else node
    jobs := w.jobs.eraseIdx i ++ followUp t job
    done := Function.update w.done record.id (w.done record.id ++ job.edit.changes t job.copy) }

/-- The record goes after the images on the peers and in the backend have gone. -/
def delete (id : VolumeId) : Editing :=
  if !(w.node.volumeUsers id).isEmpty || (w.node.getVolume id).isNone then w
  else { w with deleting := id :: w.deleting }

def remove (id : VolumeId) : Editing :=
  let w := { w with deleting := w.deleting.erase id }
  if (w.node.getVolume id).isNone then w
  else { w with
    node := (w.node.removeVolume id).bump
    removed := Function.update w.removed id true }

def step (w : Editing) : EditAction → Option Editing
  | .begin edit id now => some (w.begin t edit id now)
  | .finish i => (w.jobs[i]?).map (w.finish t i)
  | .fail i => if i < w.jobs.length then some { w with jobs := w.jobs.eraseIdx i } else none
  | .delete id => some (w.delete id)
  | .remove id => if id ∈ w.deleting then some (w.remove id) else none
  | .guest vm => some { w with node := w.node.upsertVm vm }

end Editing

/-- Two records say the same of what edits are for. -/
def Agree (a b : VolumeRecord) : Prop :=
  a.name = b.name ∧ a.notes = b.notes ∧ a.sizeBytes = b.sizeBytes ∧
    (∀ s ∈ a.snapshots, s ∈ b.snapshots) ∧ ∀ s ∈ b.snapshots, s ∈ a.snapshots

instance (a b : VolumeRecord) : Decidable (Agree a b) :=
  inferInstanceAs (Decidable (_ ∧ _ ∧ _ ∧ _ ∧ _))

/-- The record is there, and what the operation read of it is still true, but for what the
operation sets itself. -/
def Job.Current (n : Node) (job : Job) : Prop :=
  ∃ record ∈ n.getVolume job.copy.id, Agree (job.edit.rest job.copy) (job.edit.rest record)

/-- No operation puts back a record that has changed since it read it. -/
def Editing.Timely (w : Editing) : EditAction → Prop
  | .finish i => ∀ job ∈ w.jobs[i]?, job.Current w.node
  | _ => True

end Volume

end Pertisk
