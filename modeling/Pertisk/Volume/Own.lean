import Pertisk.Storage.Copies
import Pertisk.Storage.Pass
import Pertisk.Volume.Local

namespace Pertisk.Volume.Local
open Lib Storage

variable {β : Type} [Contents (Image β)]

section
variable (s : Setting β) (w : Fleet (Image β)) (n last home : NodeId)

/-- What the node `home` has of a volume once this node has its image so and has sent it around. -/
def sent (record : VolumeRecord) (image : Option (Image β)) : Option (Image β) :=
  if home = n then image
  else
    match image with
    | none => (w home).files record.path
    | some image =>
      if home ∈ record.replicas ∧ (online s w n).contains home = true ∧
          ((w home).copy record.id).accepts s.env (w n) home record.id image = true then
        (((w home).copy record.id).write image).file record.format
      else (w home).files record.path

/-- The snapshot captured the last writes, which are in the image on the node `last`. -/
def SnapshotHas (r : Fleet (Image β) × Except String (Done β)) : Prop :=
  ∀ record captured, r.2 = .ok (.snapshot record captured) →
    ∀ own, (w last).files record.path = some own → captured = own.active

/-- The guest finds on its node what the snapshot is in the image with the last writes. -/
def RestoreSeen (name : String) (r : Fleet (Image β) × Except String (Done β)) : Prop :=
  ∀ record, r.2 = .ok (.record record) →
    ∀ snap, record.snapshots.find? (fun snap => snap.name == name) = some snap →
      ∀ own, (w last).files record.path = some own →
        ∃ wanted, restored (w n) (some own) snap = some wanted ∧
          ((r.1 home).files record.path).map Image.active = some wanted.active

/-- The guest finds on its node the last writes on a disk of the new size. -/
def ResizeSeen (id : VolumeId) (sizeBytes : Nat)
    (r : Fleet (Image β) × Except String (Done β)) : Prop :=
  ∀ record, r.2 = .ok (.record record) → ∀ before, (w n).getVolume id = some before →
    ∀ own, (w last).files record.path = some own →
      ((r.1 home).files record.path).map Image.active = some (resized s before sizeBytes own).active

/-- The clone has the last writes. -/
def CloneHas (id : VolumeId) (r : Fleet (Image β) × Except String (Done β)) : Prop :=
  ∀ record, r.2 = .ok (.record record) → ∀ source, (w n).getVolume id = some source →
    ∀ own, (w last).files source.path = some own →
      ((r.1 n).files record.path).map Image.active = some own.active

/-- Each image of the backup has the last writes. -/
def BackupHas (r : Except String (Done β)) : Prop :=
  ∀ disks, r = .ok (.backup disks) → ∀ disk ∈ disks,
    ∀ own, (w last).files disk.1.path = some own → disk.2.active = own.active

/-- The operation took and changed the image with the last writes of the guest, which starts next
on the node `home`. -/
def ActsOnOwn (op : StoppedOp) (r : Fleet (Image β) × Except String (Done β)) : Prop :=
  match op with
  | .snapshot .. => SnapshotHas w last r
  | .restore _ name => RestoreSeen w n last home name r
  | .resize id sizeBytes => ResizeSeen s w n last home id sizeBytes r
  | .clone id .. => CloneHas w n last id r
  | .backup .. => BackupHas w last r.2

/-- The image that the tool opens here reads as the last writes do. -/
def SnapshotReads (id : VolumeId) (name : String) (notes : Option String) : Prop :=
  ∀ record image, (w n).getVolume id = some record →
    Edit.check record (.snapshot name notes (s.now / 1000) false) = .ok () →
    (w n).files record.path = some image → s.ran id = .ok () →
    ∀ own, (w last).files record.path = some own → image.active = own.active

/-- The snapshot here is the one in the image with the last writes, and gets to the guest's node. -/
def RestoreReaches (id : VolumeId) (name : String) : Prop :=
  (w n).node.requireVolumeIdle id = .ok () → ∀ record, (w n).getVolume id = some record →
    ∀ snap, record.snapshots.find? (fun snap => snap.name == name) = some snap →
    ∀ image, restored (w n) ((w n).files record.path) snap = some image → s.ran id = .ok () →
    ∀ own, (w last).files record.path = some own →
      ∃ wanted, restored (w n) (some own) snap = some wanted ∧
        (sent s w n home record (some image)).map Image.active = some wanted.active

/-- The image here grows to what the one with the last writes would, and gets to the guest's
node. -/
def ResizeReaches (id : VolumeId) (sizeBytes : Nat) : Prop :=
  (w n).node.requireVolumeIdle id = .ok () → ∀ record, (w n).getVolume id = some record →
    record.sizeBytes ≤ sizeBytes →
    (sizeBytes ≠ record.sizeBytes → ((w n).files record.path).isSome ∧ s.ran id = .ok ()) →
    ∀ own, (w last).files record.path = some own →
      (sent s w n home record (((w n).files record.path).map (resized s record sizeBytes))).map
        Image.active = some (resized s record sizeBytes own).active

def CloneReads (id : VolumeId) (name : String) (linked : Bool) : Prop :=
  cloneAccepts s w n id = .ok () → cloneChecks s n (w n) name linked = .ok () →
    ∀ record image, (w n).getVolume id = some record → (w n).files record.path = some image →
    s.ran id = .ok () → ∀ own, (w last).files record.path = some own → image.active = own.active

def BackupReads (id : VmId) (notes : Option String) : Prop :=
  ∀ vm, (w n).node.store.get id = some vm → requireNotTemplate vm "backup" = .ok () →
    requireStopped vm "backup" = .ok () →
    ∀ sources, backupSources (w n) vm.spec.disks = .ok sources → sources ≠ [] →
    (cleanVolumeNotes notes).toBool = true → (∀ source ∈ sources, s.ran source.1.id = .ok ()) →
    ∀ source ∈ sources, ∀ own, (w last).files source.1.path = some own →
      source.2.active = own.active

/-- This node's images are as good as those with the guest's last writes, for what the operation
does with them. -/
def OnOwnCopy : StoppedOp → Prop
  | .snapshot id name notes => SnapshotReads s w n last id name notes
  | .restore id name => RestoreReaches s w n last home id name
  | .resize id sizeBytes => ResizeReaches s w n last home id sizeBytes
  | .clone id name linked => CloneReads s w n last id name linked
  | .backup vm notes => BackupReads s w n last vm notes

end

variable {s : Setting β} {w : Fleet (Image β)} {n last home : NodeId} {id : VolumeId}
  {h : Host (Image β)} {record : VolumeRecord} {image : Image β}

theorem stored_ok : stored h id = .ok record ↔ h.getVolume id = some record := by
  unfold stored
  cases h.getVolume id <;> simp

theorem orMissing_ok {α : Type} {found : Option α} {a : α} :
    orMissing found = .ok a ↔ found = some a := by
  unfold orMissing
  cases found <;> simp

theorem findSnapshot_ok {name : String} {snap : VolumeSnapshot} :
    findSnapshot record name = .ok snap ↔
      record.snapshots.find? (fun snap => snap.name == name) = some snap := by
  unfold findSnapshot
  cases record.snapshots.find? (fun snap => snap.name == name) <;> simp

section sending

/-- Files at each node are what an update of one node's host leaves. -/
theorem files_update {f : Host (Image β) → Host (Image β)} (hf : ∀ h, (f h).files = h.files)
    (w : Fleet (Image β)) (k m : NodeId) : (Function.update w k (f (w k)) m).files = (w m).files := by
  by_cases hm : m = k
  · subst hm
    rw [Function.update_self, hf]
  · rw [Function.update_of_ne hm]

@[simp] theorem bumpAndReplicate_files (m : NodeId) :
    (bumpAndReplicate s w n m).files = (w m).files := by
  unfold bumpAndReplicate
  dsimp only
  generalize (Function.update w n (w n).bump n).node.snapshot = snap
  generalize (Function.update w n (w n).bump n).node.replicateTo s.now = peers
  refine (?_ : _ = (Function.update w n (w n).bump m).files).trans
    (files_update (f := Host.bump) (fun _ => rfl) w n m)
  generalize Function.update w n (w n).bump = u
  induction peers generalizing u with
  | nil => rfl
  | cons peer peers ih =>
    refine (ih _).trans ?_
    exact files_update (f := fun h => { h with node := h.node.applySnapshot s.now snap })
      (fun _ => rfl) u peer m

variable (home) in
/-- A replica has the changed image where it takes the push, and this node has it anyway. -/
theorem published_files (h : Host (Image β)) (record : VolumeRecord)
    (hb : record.backend.external = false)
    (hpath : record.path = .disk record.id record.format)
    (hcluster : h.node.cluster = (w n).node.cluster)
    (hget : h.getVolume record.id = some record) :
    (published s (Function.update w n h) n record home).files record.path =
      sent s w n home record (h.files record.path) := by
  have honline : online s (Function.update w n h) n = online s w n := by
    unfold online
    rw [Function.update_self, hcluster]
  unfold published sent
  rw [bumpAndReplicate_files, honline]
  cases hfile : h.files record.path with
  | none =>
    have hlocal : ¬ ((Function.update w n h n).hasLocal record.id record.format) = true := by
      rw [Function.update_self, Host.hasLocal, ← hpath, hfile]
      exact Bool.false_ne_true
    unfold syncVolumeReplicas
    rw [if_pos (by rw [Bool.not_eq_true] at hlocal; rw [hlocal]; simp)]
    by_cases hhome : home = n
    · subst hhome
      rw [if_pos rfl, Function.update_self, hfile]
    · rw [if_neg hhome, Function.update_of_ne hhome]
  | some file =>
    have hself : Function.update w n h n = h := Function.update_self ..
    have hcopy := syncVolumeReplicas_copy s.env (online s w n) record hb (hself ▸ hget) hb hpath
      (by rw [hself, ← hpath]; exact hfile) home
    have hthere := congrFun (congrArg Copy.file hcopy) record.format
    refine (congrArg (Host.files _) hpath).trans (hthere.trans ?_)
    by_cases hhome : home = n
    · subst hhome
      simp only [ne_eq, not_true_eq_false, false_and, if_false, ite_self, if_true]
      rw [hself]
      show h.files (.disk record.id record.format) = _
      rw [← hpath, hfile]
    · rw [if_neg hhome, Function.update_of_ne hhome, hself, Copy.accepts_congr hcluster]
      dsimp only
      by_cases hin : home ∈ record.replicas
      · rw [if_pos hin]
        by_cases hreach : (online s w n).contains home = true ∧
            ((w home).copy record.id).accepts s.env (w n) home record.id file = true
        · rw [if_pos ⟨hhome, hreach⟩, if_pos ⟨hin, hreach⟩]
        · rw [if_neg (fun hcond => hreach hcond.2), if_neg (fun hcond => hreach hcond.2), hpath]
          rfl
      · rw [if_neg hin, if_neg (fun hcond => hin hcond.1), hpath]
        rfl

/-- This node's own files stay. -/
theorem published_self : (published s w n record n).files = (w n).files := by
  unfold published
  rw [bumpAndReplicate_files]
  unfold syncVolumeReplicas
  split
  · rfl
  · refine congrArg Host.files (foldl_preserves (P := fun u : Fleet (Image β) => u n = w n)
      (fun u m _ hu => ?_) rfl)
    rw [syncReplica_at_self, hu]

theorem ensured_self (env : Env) (nodes : List NodeId) (hb : record.backend.external = false)
    (hpath : record.path = .disk record.id record.format)
    (hfile : (w n).files record.path = some image) :
    (ensureReplicas env nodes n w record n).files record.path = some image := by
  have hcopy := congrFun (congrArg Copy.file (ensureReplicas_copy env nodes n w hb n)) record.format
  refine (congrArg (Host.files _) hpath).trans (hcopy.trans ?_)
  have hkeep : ((w n).copy record.id).file record.format = some image :=
    (congrArg (w n).files hpath).symm.trans hfile
  split
  · split
    · show Function.update _ _ _ record.format = _
      rw [Function.update_self, hkeep]
      rfl
    · exact hkeep
  · exact hkeep

end sending

section storage

omit [Contents (Image β)] in
theorem writeFile_files [Contents β] (h : Host β) (path : PathBuf) (bytes : β) :
    (h.writeFile path bytes).files path = some bytes := Function.update_self ..

variable {name : String} {notes : Option String} {linked : Bool} {sizeBytes : Nat}

theorem snapshot_ok_iff (n : NodeId) {r : Host (Image β) × VolumeRecord × β} :
    snapshot s n h id name notes = .ok r ↔ ∃ record image, h.getVolume id = some record ∧
      Edit.check record (.snapshot name notes (s.now / 1000) false) = .ok () ∧
      h.files record.path = some image ∧ s.ran id = .ok () ∧
      r = ((capture h record image (Edit.entry (s.tools n) record name notes (s.now / 1000)
          false)).putRecord (Edit.write (s.tools n) record (.snapshot name notes (s.now / 1000) false)),
        Edit.write (s.tools n) record (.snapshot name notes (s.now / 1000) false), image.active) := by
  unfold snapshot
  simp only [bind_ok_iff, stored_ok, orMissing_ok]
  constructor
  · rintro ⟨record, hrecord, _, hcheck, image, himage, _, hran, hr⟩
    exact ⟨record, image, hrecord, hcheck, himage, hran, (Except.ok.inj hr).symm⟩
  · rintro ⟨record, image, hrecord, hcheck, himage, hran, rfl⟩
    exact ⟨record, hrecord, (), hcheck, image, himage, (), hran, rfl⟩

theorem restoreSnapshot_ok_iff {r : Host (Image β) × VolumeRecord} :
    restoreSnapshot s h id name = .ok r ↔ ∃ record snap image, h.getVolume id = some record ∧
      record.snapshots.find? (fun snap => snap.name == name) = some snap ∧
      restored h (h.files record.path) snap = some image ∧ s.ran id = .ok () ∧
      r = (h.writeFile record.path image, record) := by
  unfold restoreSnapshot
  simp only [bind_ok_iff, stored_ok, orMissing_ok, findSnapshot_ok]
  constructor
  · rintro ⟨record, hrecord, snap, hsnap, image, himage, _, hran, hr⟩
    exact ⟨record, snap, image, hrecord, hsnap, himage, hran, (Except.ok.inj hr).symm⟩
  · rintro ⟨record, snap, image, hrecord, hsnap, himage, hran, rfl⟩
    exact ⟨record, hrecord, snap, hsnap, image, himage, (), hran, rfl⟩

theorem check_resize_ok :
    Edit.check record (.resize sizeBytes) = .ok () ↔ record.sizeBytes ≤ sizeBytes := by
  unfold Edit.check
  dsimp only
  split
  · rename_i hlt
    exact iff_of_false (fun h => by cases h) (Nat.not_le.mpr hlt)
  · rename_i hle
    exact iff_of_true rfl (Nat.not_lt.mp hle)

theorem resize_ok_iff {r : Host (Image β) × VolumeRecord} :
    resize s h id sizeBytes = .ok r ↔ ∃ record, h.getVolume id = some record ∧
      record.sizeBytes ≤ sizeBytes ∧
      (sizeBytes = record.sizeBytes ∧ r = (h, record) ∨
        sizeBytes ≠ record.sizeBytes ∧ ∃ image, h.files record.path = some image ∧
          s.ran id = .ok () ∧ r = ((h.writeFile record.path (resized s record sizeBytes
            image)).putRecord { record with sizeBytes := sizeBytes },
              { record with sizeBytes := sizeBytes })) := by
  unfold resize
  simp only [bind_ok_iff, stored_ok]
  constructor
  · rintro ⟨record, hrecord, _, hle, hok⟩
    refine ⟨record, hrecord, check_resize_ok.mp hle, ?_⟩
    split at hok
    · rename_i heq
      exact .inl ⟨heq, (Except.ok.inj hok).symm⟩
    · rename_i hne
      simp only [bind_ok_iff, orMissing_ok] at hok
      obtain ⟨image, himage, _, hran, hr⟩ := hok
      exact .inr ⟨hne, image, himage, hran, (Except.ok.inj hr).symm⟩
  · rintro ⟨record, hrecord, hle, hcase⟩
    refine ⟨record, hrecord, (), check_resize_ok.mpr hle, ?_⟩
    rcases hcase with ⟨heq, rfl⟩ | ⟨hne, image, himage, hran, rfl⟩
    · rw [if_pos heq]
      rfl
    · rw [if_neg hne]
      simp only [bind_ok_iff, orMissing_ok]
      exact ⟨image, himage, (), hran, rfl⟩

theorem exportImages_ok_iff {sources disks : List (VolumeRecord × Image β)} :
    exportImages s n sources = .ok disks ↔ (∀ source ∈ sources, s.ran source.1.id = .ok ()) ∧
      disks = sources.map (fun source => (source.1, Vault.exported (s.tools n) source.2)) := by
  induction sources generalizing disks with
  | nil =>
    refine ⟨fun h => ⟨fun _ hin => (List.not_mem_nil hin).elim, (Except.ok.inj h).symm⟩, ?_⟩
    rintro ⟨-, rfl⟩
    rfl
  | cons source sources ih =>
    obtain ⟨record, image⟩ := source
    unfold exportImages
    simp only [bind_ok_iff, ih]
    constructor
    · rintro ⟨_, hran, rest, ⟨hrest, rfl⟩, hdisks⟩
      refine ⟨fun source hin => ?_, (Except.ok.inj hdisks).symm⟩
      rcases List.mem_cons.mp hin with rfl | hin
      · exact hran
      · exact hrest source hin
    · rintro ⟨hran, rfl⟩
      exact ⟨(), hran _ List.mem_cons_self, _,
        ⟨fun source hin => hran source (List.mem_cons_of_mem _ hin), rfl⟩, rfl⟩

end storage

omit [Contents (Image β)] in
theorem exported_active (t : Tools) : (Vault.exported t image).active = image.active := by
  unfold Vault.exported
  split <;> rfl

section operations
variable {name : String} {notes : Option String} {linked : Bool} {sizeBytes : Nat}

theorem snapshotVolume_iff : SnapshotHas w last (snapshotVolume s w n id name notes) ↔
    SnapshotReads s w n last id name notes := by
  unfold snapshotVolume
  constructor
  · intro h record image hrecord hcheck himage hran own hown
    have hok := (snapshot_ok_iff n).mpr ⟨record, image, hrecord, hcheck, himage, hran, rfl⟩
    rw [hok] at h
    exact h _ _ rfl own hown
  · intro h record captured hr own hown
    rcases hok : snapshot s n (w n) id name notes with text | ⟨h', record', captured'⟩
    · rw [hok] at hr
      cases hr
    · rw [hok] at hr
      cases hr
      obtain ⟨record, image, hrecord, hcheck, himage, hran, heq⟩ := (snapshot_ok_iff n).mp hok
      cases heq
      exact h record image hrecord hcheck himage hran own hown

theorem changed_ok {r : Except String (Host (Image β) × VolumeRecord)}
    (hok : (changed s w n r).2 = .ok (.record record)) : ∃ h, r = .ok (h, record) := by
  unfold changed at hok
  split at hok
  · cases hok
  · cases hok
    exact ⟨_, rfl⟩

/-- The stored record of a volume of the files. -/
theorem stored_local (hrecord : (w n).getVolume id = some record)
    (hb : record.backend.external = false) :
    record.id = id ∧ record.path = .disk record.id record.format := by
  have hid := Host.id_of_getVolume hrecord
  refine ⟨hid, ?_⟩
  rw [hid]
  exact Host.path_of_getVolume hrecord hb

theorem local_of_any
    (hany : ((w n).getVolume id).any (fun record => record.backend.external) = false) :
    ∀ record, (w n).getVolume id = some record → record.backend.external = false := by
  intro record hrecord
  rw [hrecord] at hany
  exact hany

theorem restoreVolume_iff
    (hlocal : ∀ record, (w n).getVolume id = some record → record.backend.external = false) :
    RestoreSeen w n last home name (restoreVolume s w n id name) ↔
      RestoreReaches s w n last home id name := by
  have hhome : ∀ {record : VolumeRecord} {image : Image β}, (w n).getVolume id = some record →
      (published s (Function.update w n ((w n).writeFile record.path image)) n record home).files
        record.path = sent s w n home record (some image) := by
    intro record image hrecord
    obtain ⟨rfl, hpath⟩ := stored_local hrecord (hlocal record hrecord)
    have hfiles := published_files (s := s) home ((w n).writeFile record.path image) record
      (hlocal record hrecord) hpath rfl hrecord
    rw [writeFile_files] at hfiles
    exact hfiles
  unfold restoreVolume
  constructor
  · intro h hidle record hrecord snap hsnap image himage hran own hown
    have hok := restoreSnapshot_ok_iff.mpr
      ⟨record, snap, image, hrecord, hsnap, himage, hran, rfl⟩
    rw [bind_of_ok hidle, hok] at h
    obtain ⟨wanted, hwanted, hsees⟩ := h record rfl snap hsnap own hown
    refine ⟨wanted, hwanted, ?_⟩
    rw [← hhome hrecord]
    exact hsees
  · intro h record hr snap hsnap own hown
    obtain ⟨h', hok⟩ := changed_ok hr
    rw [hok]
    obtain ⟨_, hidle, hrestored⟩ := bind_ok hok
    obtain ⟨record', snap', image, hrecord, hsnap', himage, hran, heq⟩ :=
      restoreSnapshot_ok_iff.mp hrestored
    cases heq
    rw [hsnap] at hsnap'
    cases hsnap'
    obtain ⟨wanted, hwanted, hsees⟩ := h hidle record hrecord snap hsnap image himage hran own hown
    refine ⟨wanted, hwanted, ?_⟩
    rw [← hhome hrecord] at hsees
    exact hsees

/-- A record that only differs in its size is stored as it is. -/
theorem localize_resized (hpath : record.path = .disk record.id record.format) :
    ({ record with sizeBytes := sizeBytes } : VolumeRecord).localize =
      { record with sizeBytes := sizeBytes } := by
  unfold VolumeRecord.localize
  split
  · rfl
  · dsimp only
    rw [← hpath]

/-- What the guest's node has when the volume has been given a new size. -/
theorem resized_files (hrecord : (w n).getVolume id = some record)
    (hb : record.backend.external = false) (image : Image β) :
    (published s (Function.update w n (((w n).writeFile record.path image).putRecord
      { record with sizeBytes := sizeBytes })) n { record with sizeBytes := sizeBytes }
        home).files record.path = sent s w n home record (some image) := by
  obtain ⟨rfl, hpath⟩ := stored_local hrecord hb
  have hget : (((w n).writeFile record.path image).putRecord
      { record with sizeBytes := sizeBytes }).getVolume record.id =
        some { record with sizeBytes := sizeBytes } := by
    rw [Host.getVolume_putRecord, if_pos rfl, localize_resized hpath]
  have hfiles := published_files (s := s) home (((w n).writeFile record.path image).putRecord
    { record with sizeBytes := sizeBytes }) { record with sizeBytes := sizeBytes } hb hpath rfl hget
  exact hfiles.trans (congrArg (sent s w n home record) (writeFile_files ..))

theorem resized_same (heq : sizeBytes = record.sizeBytes) (image : Image β) :
    resized s record sizeBytes image = image := if_pos heq

theorem resizeVolume_iff
    (hlocal : ∀ record, (w n).getVolume id = some record → record.backend.external = false) :
    ResizeSeen s w n last home id sizeBytes (resizeVolume s w n id sizeBytes) ↔
      ResizeReaches s w n last home id sizeBytes := by
  have hsame : ∀ {record : VolumeRecord}, (w n).getVolume id = some record →
      (published s (Function.update w n (w n)) n record home).files record.path =
        sent s w n home record ((w n).files record.path) := by
    intro record hrecord
    obtain ⟨rfl, hpath⟩ := stored_local hrecord (hlocal record hrecord)
    exact published_files home (w n) record (hlocal record hrecord) hpath rfl hrecord
  unfold resizeVolume
  constructor
  · intro h hidle record hrecord hle hgrows own hown
    by_cases heq : sizeBytes = record.sizeBytes
    · have hok := (resize_ok_iff (s := s)).mpr ⟨record, hrecord, hle, .inl ⟨heq, rfl⟩⟩
      rw [bind_of_ok hidle, hok] at h
      have hsees := h record rfl record hrecord own hown
      have hfiles : ((w n).files record.path).map (resized s record sizeBytes) =
          (w n).files record.path := by
        rw [funext (resized_same (s := s) heq), Option.map_id']
      rw [hfiles, ← hsame hrecord]
      exact hsees
    · obtain ⟨hsome, hran⟩ := hgrows heq
      obtain ⟨image, himage⟩ := Option.isSome_iff_exists.mp hsome
      have hok := resize_ok_iff.mpr ⟨record, hrecord, hle, .inr ⟨heq, image, himage, hran, rfl⟩⟩
      rw [bind_of_ok hidle, hok] at h
      have hsees := h _ rfl record hrecord own hown
      rw [himage, Option.map_some, ← resized_files hrecord (hlocal record hrecord)]
      exact hsees
  · intro h record hr before hbefore own hown
    obtain ⟨h', hok⟩ := changed_ok hr
    rw [hok]
    obtain ⟨_, hidle, hresized⟩ := bind_ok hok
    obtain ⟨record', hrecord, hle, ⟨heq, hdone⟩ | ⟨hne, image, himage, hran, hdone⟩⟩ :=
      resize_ok_iff.mp hresized
    · cases hdone
      cases hbefore.symm.trans hrecord
      have hsees := h hidle record hrecord hle (fun hne => absurd heq hne) own hown
      have hfiles : ((w n).files record.path).map (resized s record sizeBytes) =
          (w n).files record.path := by
        rw [funext (resized_same (s := s) heq), Option.map_id']
      rw [hfiles, ← hsame hrecord] at hsees
      exact hsees
    · cases hdone
      cases hbefore.symm.trans hrecord
      have hsees := h hidle before hrecord hle (fun _ => ⟨himage ▸ rfl, hran⟩) own hown
      rw [himage, Option.map_some, ← resized_files hrecord (hlocal before hrecord)] at hsees
      exact hsees

theorem cloneImage_active : (cloneImage s linked image).active = image.active := by
  unfold cloneImage
  split <;> rfl

/-- What the storage makes of a volume to clone. -/
theorem cloneVolume_ok_iff {r : Host (Image β) × VolumeRecord} :
    cloneVolume s n (w n) id name linked = .ok r ↔ ∃ source image,
      (w n).getVolume id = some source ∧ cloneChecks s n (w n) name linked = .ok () ∧
      (w n).files source.path = some image ∧ s.ran id = .ok () ∧
      r = (((w n).writeFile (cloneRecord s source name linked).path
        (cloneImage s linked image)).putRecord (cloneRecord s source name linked),
          cloneRecord s source name linked) := by
  unfold cloneVolume
  simp only [bind_ok_iff, stored_ok, orMissing_ok]
  constructor
  · rintro ⟨source, hsource, _, hchecks, image, himage, _, hran, hr⟩
    exact ⟨source, image, hsource, hchecks, himage, hran, (Except.ok.inj hr).symm⟩
  · rintro ⟨source, image, hsource, hchecks, himage, hran, rfl⟩
    exact ⟨source, hsource, (), hchecks, image, himage, (), hran, rfl⟩

/-- The node that makes a clone has the clone's image, whatever the peers do. -/
theorem cloned_files (nodes : List NodeId) (hb : record.backend.external = false)
    (hpath : record.path = .disk record.id record.format) (hfile : h.files record.path = some image) :
    (published s (ensureReplicas s.env nodes n (Function.update w n h) record) n record n).files
      record.path = some image := by
  rw [published_self]
  refine ensured_self s.env nodes hb hpath ?_
  rw [Function.update_self]
  exact hfile

theorem cloneOf_files {source : VolumeRecord} (nodes : List NodeId)
    (hb : source.backend.external = false) :
    (published s (ensureReplicas s.env nodes n (Function.update w n
      ((((w n).writeFile (cloneRecord s source name linked).path (cloneImage s linked image)).putRecord
        (cloneRecord s source name linked)).putRecord
          (placed s w n (cloneRecord s source name linked))))
      (placed s w n (cloneRecord s source name linked))) n
      (placed s w n (cloneRecord s source name linked)) n).files
        (placed s w n (cloneRecord s source name linked)).path = some (cloneImage s linked image) :=
  cloned_files nodes hb rfl (writeFile_files ..)

theorem cloneOf_iff
    (hlocal : ∀ record, (w n).getVolume id = some record → record.backend.external = false) :
    CloneHas w n last id (cloneOf s w n id name linked) ↔
      CloneReads s w n last id name linked := by
  unfold cloneOf
  dsimp only
  constructor
  · intro h haccepts hchecks source image hsource himage hran own hown
    have hok := (cloneVolume_ok_iff (s := s)).mpr
      ⟨source, image, hsource, hchecks, himage, hran, rfl⟩
    rw [bind_of_ok haccepts, hok] at h
    have hhas := h _ rfl source hsource own hown
    dsimp only at hhas
    rw [cloneOf_files _ (hlocal source hsource), Option.map_some, cloneImage_active] at hhas
    exact Option.some.inj hhas
  · intro h record hr source hsource own hown
    split at hr
    · cases hr
    · rename_i h' record' hok
      cases hr
      obtain ⟨_, haccepts, hclone⟩ := bind_ok hok
      obtain ⟨source', image, hsource', hchecks, himage, hran, heq⟩ := cloneVolume_ok_iff.mp hclone
      cases heq
      cases hsource.symm.trans hsource'
      dsimp only
      rw [cloneOf_files _ (hlocal source hsource), Option.map_some, cloneImage_active]
      exact congrArg some (h haccepts hchecks source image hsource himage hran own hown)

theorem backup_ok_iff {vm : VmId} {disks : List (VolumeRecord × Image β)} :
    createVmBackup s w n vm notes = .ok (.backup disks) ↔ ∃ record sources,
      (w n).node.store.get vm = some record ∧ requireNotTemplate record "backup" = .ok () ∧
      requireStopped record "backup" = .ok () ∧
      backupSources (w n) record.spec.disks = .ok sources ∧ sources ≠ [] ∧
      (cleanVolumeNotes notes).toBool = true ∧
      (∀ source ∈ sources, s.ran source.1.id = .ok ()) ∧
      disks = sources.map (fun source => (source.1, Vault.exported (s.tools n) source.2)) := by
  unfold createVmBackup
  cases hvm : (w n).node.store.get vm with
  | none => exact iff_of_false (fun h => by cases h) (by rintro ⟨_, _, hrecord, -⟩; cases hrecord)
  | some record =>
    constructor
    · intro h
      obtain ⟨_, htemplate, h⟩ := bind_ok h
      obtain ⟨_, hstopped, h⟩ := bind_ok h
      obtain ⟨sources, hsources, h⟩ := bind_ok h
      cases sources with
      | nil => cases h
      | cons source sources =>
        obtain ⟨_, hnotes, h⟩ := bind_ok h
        obtain ⟨exported, hexported, h⟩ := bind_ok h
        cases h
        obtain ⟨hran, rfl⟩ := exportImages_ok_iff.mp hexported
        refine ⟨record, _, rfl, htemplate, hstopped, hsources, nofun, ?_, hran, rfl⟩
        cases hclean : cleanVolumeNotes notes with
        | error text =>
          rw [hclean] at hnotes
          cases hnotes
        | ok notes => rfl
    · rintro ⟨_, sources, ⟨⟩, htemplate, hstopped, hsources, hne, hnotes, hran, rfl⟩
      dsimp only
      rw [bind_of_ok htemplate, bind_of_ok hstopped, bind_of_ok hsources]
      cases sources with
      | nil => exact absurd rfl hne
      | cons source sources =>
        cases hclean : cleanVolumeNotes notes with
        | error text =>
          rw [hclean] at hnotes
          cases hnotes
        | ok notes =>
          exact bind_ok_iff.mpr ⟨notes, rfl,
            bind_ok_iff.mpr ⟨_, exportImages_ok_iff.mpr ⟨hran, rfl⟩, rfl⟩⟩

theorem backup_iff {vm : VmId} : BackupHas w last (createVmBackup s w n vm notes) ↔
    BackupReads s w n last vm notes := by
  constructor
  · intro h record hrecord htemplate hstopped sources hsources hne hnotes hran source hin own hown
    have hok := backup_ok_iff.mpr
      ⟨record, sources, hrecord, htemplate, hstopped, hsources, hne, hnotes, hran, rfl⟩
    have hhas := h _ hok _ (List.mem_map_of_mem hin) own hown
    exact (exported_active _).symm.trans hhas
  · intro h disks hok disk hdisk own hown
    obtain ⟨record, sources, hrecord, htemplate, hstopped, hsources, hne, hnotes, hran, rfl⟩ :=
      backup_ok_iff.mp hok
    obtain ⟨source, hin, rfl⟩ := List.mem_map.mp hdisk
    exact (exported_active _).trans
      (h record hrecord htemplate hstopped sources hsources hne hnotes hran source hin own hown)

end operations

/-- Where no other branch is taken, the image with the guest's last writes is acted on exactly when
this node's own images are as good. -/
theorem acts_on_own_iff (s : Setting β) (w : Fleet (Image β)) (n last home : NodeId)
    (op : StoppedOp) :
    (other w n op = false → ActsOnOwn s w n last home op (run s w n op)) ↔
      (other w n op = false → OnOwnCopy s w n last home op) := by
  refine imp_congr_right (fun hother => ?_)
  unfold run
  rw [if_neg (Bool.eq_false_iff.mp hother)]
  cases op with
  | snapshot id name notes => exact snapshotVolume_iff
  | restore id name => exact restoreVolume_iff (local_of_any hother)
  | resize id sizeBytes => exact resizeVolume_iff (local_of_any hother)
  | clone id name linked => exact cloneOf_iff (local_of_any hother)
  | backup vm notes => exact backup_iff

instance : Contents (Image Bytes) where
  len image := len image.active
  allocated image := allocated image.active
  createRaw size := ⟨createRaw size, []⟩
  createQcow2 size := ⟨createQcow2 size, []⟩

/-- Nothing goes wrong, and a disk grows by zeros. -/
def quiet : Setting Bytes where
  env := .calm
  now := 0
  newId := 9
  ran _ := .ok ()
  converts := false
  grown b size := ⟨b.data ++ List.replicate (size - b.data.length) 0⟩
  elsewhere _ w _ := (w, .error "not here")

/-- Node 2 has what the stopped guest wrote there; the replica on node 1, of the same size, has
not. -/
def behind : Fleet (Image Bytes) := fun id =>
  { node := ((Node.fresh id).putRecord twoBytes).upsertVm
      { id := .numeric 100, spec := twoBytesSpec, state := .stopped, nodeId := some 2 }
    files := fun path =>
      if path = .disk 7 .raw then
        if id = 2 then some ⟨⟨[1, 2]⟩, []⟩ else if id = 1 then some ⟨⟨[0, 0]⟩, []⟩ else none
      else none
    isos := Table.empty }

/-- Node 1 backs up the guest's disk as it was before the guest wrote to it. -/
theorem backup_of_stale_replica :
    ¬ ∀ (s : Setting Bytes) (w : Fleet (Image Bytes)) (n last home : NodeId) (op : StoppedOp),
      (∀ vm ∈ (w n).node.store.rows, vm.nodeId = some home) → other w n op = false →
        ActsOnOwn s w n last home op (run s w n op) := by
  intro h
  have hacts := h quiet behind 1 2 2 (.backup (.numeric 100) none) (by decide) rfl
  have hok : createVmBackup quiet behind 1 (.numeric 100) none =
      .ok (.backup [(twoBytes, ⟨⟨[0, 0]⟩, []⟩)]) := rfl
  have hhas := hacts _ hok _ List.mem_cons_self ⟨⟨[1, 2]⟩, []⟩ rfl
  exact absurd hhas (by decide)

end Pertisk.Volume.Local
