import Pertisk.Disks.Refused
import Pertisk.Volume.Restorable

namespace Pertisk.Disks
open Lib Storage Volume

namespace VolumePool

variable {β : Type} (p : VolumePool β)

/-- The inventory lists the snapshot. -/
def records (id : VolumeId) (name : String) : Bool :=
  match p.getVolume id with
  | .ok record => record.hasSnapshot name
  | .error _ => false

/-- What a volume reads as. -/
def contents (id : VolumeId) : Option β :=
  match p.getVolume id with
  | .ok record =>
    match p.spot record with
    | .ok s => (p.images s).map Image.active
    | .error _ => none
  | .error _ => none

/-- What is kept for a snapshot. -/
def held (r : VolumeRecord) (snap : VolumeSnapshot) : Option β :=
  match p.slot r snap with
  | .inside tag =>
    match p.spot r with
    | .ok s => (p.images s).bind (fun image => image.saved.lookup tag)
    | .error _ => none
  | .file name => (p.images (.file name)).map Image.active

/-- The image has every listed snapshot that is kept inside the present one. -/
def Keeps (r : VolumeRecord) (image : Image β) : Prop :=
  ∀ snap ∈ r.snapshots, ∀ tag, p.slot r snap = .inside tag →
    image.saved.lookup tag = p.held r snap

/-- A command that fails leaves an image that has them. -/
def LeavesKept (r : VolumeRecord) (luck : Luck β) : Prop :=
  ∀ text left, luck.command = some (text, some left) → p.Keeps r left

/-- A path below the directory of the volume's snapshots. -/
def Below (id : VolumeId) (file : FileName) : Prop :=
  p.snapDir id <+: file ∧ file ≠ p.snapDir id

instance (id : VolumeId) (file : FileName) : Decidable (p.Below id file) :=
  inferInstanceAs (Decidable (_ ∧ _))

end VolumePool

/-- What happens to the disks of stopped guests. -/
inductive SnapAction (β : Type)
  | write (id : VolumeId) (contents : β)
  | snapshot (now : Nat) (id : VolumeId) (name : String) (notes : Option String) (luck : Luck β)
  | delete (id : VolumeId) (name : String) (luck : Luck β)
  | restore (id : VolumeId) (name : String) (luck : Luck β)

def SnapAction.id {β : Type} : SnapAction β → VolumeId
  | .write id _ => id
  | .snapshot _ id .. => id
  | .delete id .. => id
  | .restore id .. => id

/-- A node's volumes. `captured` is what each listed snapshot's volume read as when it was taken;
no daemon keeps it. -/
structure Shelf (β : Type) where
  pool : VolumePool β
  captured : VolumeId → String → Option β

namespace Shelf

variable {β : Type}

def writeData (p : VolumePool β) (id : VolumeId) (contents : β) : VolumePool β :=
  match p.getVolume id with
  | .error _ => p
  | .ok record =>
    match p.spot record with
    | .error _ => p
    | .ok s => p.set s ((p.images s).map (fun image => { image with active := contents }))

def act (p : VolumePool β) : SnapAction β → VolumePool β
  | .write id contents => writeData p id contents
  | .snapshot now id name notes luck => (p.snapshot luck now id name notes).1
  | .delete id name luck => (p.deleteSnapshot luck id name).1
  | .restore id name luck => (p.restoreSnapshot luck id name).1

def after (w : Shelf β) (q : VolumePool β) : Shelf β where
  pool := q
  captured id name :=
    if q.records id name then
      if w.pool.records id name then w.captured id name else w.pool.contents id
    else none

def step (w : Shelf β) (a : SnapAction β) : Option (Shelf β) := some (w.after (act w.pool a))

/-- A snapshot's file is below its volume's directory and no other snapshot's, a tag is not in the
image yet, what is restored has the other snapshots of the volume, and so has what a command that
fails leaves. -/
def Careful (w : Shelf β) : SnapAction β → Prop
  | .write .. => True
  | .snapshot now id name notes luck =>
    ∀ record s image, w.pool.getVolume id = .ok record → w.pool.spot record = .ok s →
      w.pool.image s = .ok image →
      match w.pool.slot record (Edit.entry w.pool.tools record name notes now false) with
      | .file file => w.pool.Below record.id file ∧
          ∀ snap ∈ record.snapshots, w.pool.slot record snap ≠ .file file
      | .inside tag => (record.backend = .replica → image.saved.lookup tag = none) ∧
          w.pool.LeavesKept record luck
  | .delete id _ luck =>
    ∀ record, w.pool.getVolume id = .ok record → w.pool.LeavesKept record luck
  | .restore id name luck =>
    ∀ record s snap image, w.pool.getVolume id = .ok record → w.pool.spot record = .ok s →
      snap ∈ record.snapshots → snap.name = name → w.pool.restoredImage s record snap = .ok image →
      w.pool.Keeps record image ∧ w.pool.LeavesKept record luck

/-- Volumes that have no snapshots yet, each with an image of its own. -/
structure Fresh (p : VolumePool β) : Prop where
  ids : ∀ v ∈ p.volumes.rows, v.id < 2 ^ 128
  apart : ∀ v ∈ p.volumes.rows, ∀ u ∈ p.volumes.rows, ∀ s,
    p.spot v.record = .ok s → p.spot u.record = .ok s → v.id = u.id
  noSnapshots : ∀ v ∈ p.volumes.rows, v.record.snapshots = []

/-- Every listed snapshot has a place of its own that keeps what it captured. -/
structure Kept (w : Shelf β) : Prop where
  ids : ∀ v ∈ w.pool.volumes.rows, v.id < 2 ^ 128
  apart : ∀ v ∈ w.pool.volumes.rows, ∀ u ∈ w.pool.volumes.rows, ∀ s,
    w.pool.spot v.record = .ok s → w.pool.spot u.record = .ok s → v.id = u.id
  names : ∀ v ∈ w.pool.volumes.rows, (v.record.snapshots.map VolumeSnapshot.name).Nodup
  slots : ∀ v ∈ w.pool.volumes.rows, ∀ a ∈ v.record.snapshots, ∀ b ∈ v.record.snapshots,
    w.pool.slot v.record a = w.pool.slot v.record b → a.name = b.name
  below : ∀ v ∈ w.pool.volumes.rows, ∀ snap ∈ v.record.snapshots, ∀ file,
    w.pool.slot v.record snap = .file file → w.pool.Below v.id file
  able : ∀ v ∈ w.pool.volumes.rows, ∀ snap ∈ v.record.snapshots,
    (∃ s, w.pool.spot v.record = .ok s) ∧
      ∀ tag, w.pool.slot v.record snap = .inside tag → w.pool.tagTool v.record = .ok ()
  found : ∀ v ∈ w.pool.volumes.rows, ∀ snap ∈ v.record.snapshots, ∃ contents,
    w.captured v.id snap.name = some contents ∧ w.pool.held v.record snap = some contents

end Shelf

end Pertisk.Disks

namespace Pertisk.Disks
open Lib Storage Volume

namespace VolumePool

variable {β : Type} {p : VolumePool β} {r : VolumeRecord} {snap : VolumeSnapshot}
  {id other : VolumeId} {file : FileName} {s x : Spot} {y : Option (Image β)}

/-- A disk is not below a directory of snapshots. -/
theorem spot_ne_below (hs : p.spot r = .ok s) (hbelow : p.Below id file) : Spot.file file ≠ s := by
  rintro rfl
  unfold spot at hs
  split at hs
  · have hfile := Spot.file.inj (Except.ok.inj hs)
    have hdir := hbelow.1
    rw [← hfile] at hdir
    unfold snapDir localPath at hdir
    have hnames := (List.prefix_append_right_inj p.root).mp hdir
    have hdirs := (List.cons_prefix_cons.mp hnames).1
    revert hdirs
    decide
  · cases hs
  · split at hs <;> cases hs

/-- The directories of different volumes share no file. -/
theorem below_inj (hid : id < 2 ^ 128) (hother : other < 2 ^ 128) (h : p.Below id file)
    (h' : p.Below other file) : id = other := by
  have hlen : (p.snapDir id).length = (p.snapDir other).length := by
    unfold snapDir
    simp only [List.length_append, List.length_cons, List.length_nil]
  have hdir := (List.prefix_of_prefix_length_le h.1 h'.1 (le_of_eq hlen)).eq_of_length hlen
  unfold snapDir at hdir
  have hnames := List.append_cancel_left hdir
  simp only [List.cons.injEq, and_true, true_and] at hnames
  exact Store.uuidText_inj hid hother (String.toList_inj.mp hnames)

theorem set_images_ne (h : s ≠ x) : (p.set x y).images s = p.images s := by
  unfold set
  exact Function.update_of_ne h ..

theorem set_images_self : (p.set x y).images x = y := by
  unfold set
  exact Function.update_self ..

theorem held_set_ne (hs : ∀ s, p.spot r = .ok s → s ≠ x)
    (hfile : ∀ file, p.slot r snap = .file file → Spot.file file ≠ x) :
    (p.set x y).held r snap = p.held r snap := by
  have hslots : (p.set x y).slot r snap = p.slot r snap := rfl
  have hspots : (p.set x y).spot r = p.spot r := rfl
  unfold held
  rw [hslots, hspots]
  cases hslot : p.slot r snap with
  | inside tag =>
    cases hspot : p.spot r with
    | error text => rfl
    | ok s =>
      dsimp only
      rw [set_images_ne (hs s hspot)]
  | file name =>
    dsimp only
    rw [set_images_ne (hfile name hslot)]

/-- A new image that has the snapshots inside it, in the place of the present one. -/
theorem held_set {image : Image β} (hs : p.spot r = .ok s) (hkeeps : p.Keeps r image)
    (hsnap : snap ∈ r.snapshots)
    (hfile : ∀ file, p.slot r snap = .file file → p.Below id file) :
    (p.set s (some image)).held r snap = p.held r snap := by
  have hslots : (p.set s (some image)).slot r snap = p.slot r snap := rfl
  have hspots : (p.set s (some image)).spot r = p.spot r := rfl
  cases hslot : p.slot r snap with
  | inside tag =>
    rw [← hkeeps snap hsnap tag hslot]
    unfold held
    rw [hslots, hslot, hspots, hs]
    dsimp only
    rw [set_images_self]
    rfl
  | file name =>
    unfold held
    rw [hslots, hslot]
    dsimp only
    rw [set_images_ne (spot_ne_below hs (hfile name hslot))]

theorem getVolume_of_mem {v : StoredVolume} (h : v ∈ p.volumes.rows) :
    p.getVolume v.id = .ok v.record := by
  unfold getVolume
  rw [Table.get_of_mem h]

theorem records_iff (h : p.getVolume id = .ok r) {name : String} :
    p.records id name = true ↔ ∃ snap ∈ r.snapshots, snap.name = name := by
  unfold records VolumeRecord.hasSnapshot
  rw [h, List.any_eq_true]
  exact exists_congr fun snap => and_congr_right fun _ => beq_iff_eq

/-- The record of one volume gets these snapshots, and the images these contents. -/
def changed (p : VolumePool β) (r : VolumeRecord) (snaps : List VolumeSnapshot)
    (images : Spot → Option (Image β)) : VolumePool β :=
  { p with volumes := p.volumes.insert (.ofRecord { r with snapshots := snaps }), images := images }

theorem localize_of_get (h : p.getVolume id = .ok r) (snaps : List VolumeSnapshot) :
    ({ r with snapshots := snaps } : VolumeRecord).localize = { r with snapshots := snaps } := by
  obtain ⟨v, -, rfl, -⟩ := getVolume_ok h
  have hlocal := v.localPath
  unfold VolumeRecord.localize
  split
  · rfl
  · rename_i hexternal
    rw [← hlocal (by simpa using hexternal)]

theorem changed_same (h : p.getVolume id = .ok r) (images : Spot → Option (Image β)) :
    p.changed r r.snapshots images = { p with images := images } := by
  obtain ⟨v, hv, rfl, -⟩ := getVolume_ok h
  unfold changed
  have hget : p.volumes.get v.id = some v := Table.get_of_mem hv
  rw [Table.insert_eq_iff.mpr]
  rw [show ({ v.record with snapshots := v.record.snapshots } : VolumeRecord) = v.record from rfl,
    StoredVolume.ofRecord_record]
  exact hget

theorem mem_changed {snaps : List VolumeSnapshot} {images : Spot → Option (Image β)}
    {v : StoredVolume} (h : p.getVolume id = .ok r) (hv : v ∈ (p.changed r snaps images).volumes.rows) :
    v.id = id ∧ v.record = { r with snapshots := snaps } ∨ v ∈ p.volumes.rows ∧ v.id ≠ id := by
  obtain ⟨u, -, rfl, hid⟩ := getVolume_ok h
  rcases Table.mem_insert_ne hv with rfl | ⟨hv, hne⟩
  · exact .inl ⟨by rw [StoredVolume.ofRecord_id]; exact hid, localize_of_get h snaps⟩
  · rw [StoredVolume.ofRecord_id] at hne
    exact .inr ⟨hv, fun heq => hne (heq.trans hid.symm)⟩

end VolumePool

end Pertisk.Disks
