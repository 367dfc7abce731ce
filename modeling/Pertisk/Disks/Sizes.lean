import Pertisk.Disks.Refused

namespace Pertisk.Disks
open Lib Storage Volume

/-- Contents of raw files, which are as long as they were made or grown to. -/
class RawFile (β : Type) extends Contents β where
  grow : β → Nat → β
  len_createRaw : ∀ size, len (createRaw size) = size
  len_grow : ∀ bytes size, len (grow bytes size) = size

/-- A volume whose bytes are a raw file of this node. -/
def IsRaw (r : VolumeRecord) : Prop := r.backend = .replica ∧ r.format = .raw

instance (r : VolumeRecord) : Decidable (IsRaw r) := inferInstanceAs (Decidable (_ ∧ _))

/-- The operations of the pool on its files, each with how its command and its files fare. -/
inductive FileAction (β : Type)
  | create (id : VolumeId) (req : CreateVolumeRequest) (luck : Luck β)
  | resize (id : VolumeId) (sizeBytes : Nat) (luck : Luck β)
  | snapshot (now : Nat) (id : VolumeId) (name : String) (notes : Option String) (luck : Luck β)
  | restore (id : VolumeId) (name : String) (luck : Luck β)
  | clone (converts : Bool) (id newId : VolumeId) (req : CloneVolumeRequest) (luck : Luck β)
  | writeBlob (id : VolumeId) (bytes : β) (luck : Luck β)
  | ensureLocal (record : VolumeRecord) (luck : Luck β)

namespace VolumePool

/-- A uuid that no volume has. -/
def Unused {β : Type} (p : VolumePool β) (id : VolumeId) : Prop :=
  id < 2 ^ 128 ∧ p.volumes.get id = none

instance {β : Type} (p : VolumePool β) (id : VolumeId) : Decidable (p.Unused id) :=
  inferInstanceAs (Decidable (_ ∧ _))

theorem Unused.ne {β : Type} {p : VolumePool β} {v : StoredVolume} {id : VolumeId}
    (h : p.Unused id) (hv : v ∈ p.volumes.rows) :
    v.id ≠ id := by
  rintro rfl
  cases h.2.symm.trans (Table.get_of_mem hv)

variable {β : Type} [RawFile β]

/-- Ids are 128 bits wide, and a new one is no other volume's. -/
def fileStep (p : VolumePool β) : FileAction β → Option (VolumePool β)
  | .create id req luck => if p.Unused id then some (p.createVolume luck id req).1 else none
  | .resize id sizeBytes luck => some (p.resize luck RawFile.grow id sizeBytes).1
  | .snapshot now id name notes luck => some (p.snapshot luck now id name notes).1
  | .restore id name luck => some (p.restoreSnapshot luck id name).1
  | .clone converts id newId req luck =>
    if p.Unused newId then some (p.cloneVolume luck converts id newId req).1 else none
  | .writeBlob id bytes luck => some (p.writeBlob luck id bytes).1
  | .ensureLocal record luck =>
    if record.id < 2 ^ 128 then some (p.ensureLocal luck record).1 else none

variable (p : VolumePool β)

/-- The file is there and has the size that the record says. -/
def Measures (r : VolumeRecord) : Prop :=
  ∃ image, p.images (.file (p.localPath r.id .raw)) = some image ∧ len image.active = r.sizeBytes

/-- Every raw volume's record says how long its file is. -/
def Sized : Prop := ∀ v ∈ p.volumes.rows, IsRaw v.record → p.Measures v.record

structure Sound : Prop where
  sized : p.Sized
  ids : ∀ v ∈ p.volumes.rows, v.id < 2 ^ 128

/-- The image is as long as the record says of every raw volume whose file it goes to. -/
def Suits (s : Spot) (image : Image β) : Prop :=
  ∀ v ∈ p.volumes.rows, IsRaw v.record → s = .file (p.localPath v.id .raw) →
    len image.active = v.record.sizeBytes

/-- A command that fails leaves no torn file of a raw volume. -/
def LeavesWhole (s : Spot) (luck : Luck β) : Prop :=
  ∀ text left, luck.command = some (text, some left) → p.Suits s left

/-- A snapshot's file is not a raw volume's, a restored image and a blob are as long as the volume's
record says, a record that comes with no file fits the one that is there, and no command that fails
leaves a torn file. -/
def Fits : FileAction β → Prop
  | .create .. => True
  | .clone .. => True
  | .resize id _ luck =>
    ∀ record, p.getVolume id = .ok record →
      p.LeavesWhole (.file (p.localPath record.id record.format)) luck
  | .snapshot now id name notes luck =>
    ∀ record s image, p.getVolume id = .ok record → p.spot record = .ok s → p.image s = .ok image →
      match p.slot record (Edit.entry p.tools record name notes now false) with
      | .inside _ => p.LeavesWhole s luck
      | .file name => p.Suits (.file name) image ∧ p.LeavesWhole (.file name) luck
  | .restore id name luck =>
    ∀ record s snap image, p.getVolume id = .ok record → p.spot record = .ok s →
      snap ∈ record.snapshots → snap.name = name → p.restoredImage s record snap = .ok image →
      p.Suits s image ∧ p.LeavesWhole s luck
  | .writeBlob id bytes luck =>
    ∀ record, p.getVolume id = .ok record → IsRaw record →
      record.sizeBytes ≤ len bytes ∧ p.LeavesWhole (.file (p.localPath record.id .raw)) luck
  | .ensureLocal record _ =>
    IsRaw record → ∀ image, p.images (.file (p.localPath record.id .raw)) = some image →
      len image.active = record.sizeBytes

variable {p q : VolumePool β} {r : VolumeRecord} {s : Spot} {image : Image β}

@[simp] theorem isRaw_localize : IsRaw r.localize ↔ IsRaw r := by
  unfold IsRaw VolumeRecord.localize
  split <;> rfl

@[simp] theorem measures_localize : p.Measures r.localize ↔ p.Measures r := by
  unfold Measures VolumeRecord.localize
  split <;> rfl

theorem Measures.set (h : p.Measures r)
    (hs : s = .file (p.localPath r.id .raw) → len image.active = r.sizeBytes) :
    (p.set s (some image)).Measures r := by
  obtain ⟨there, himage, hlen⟩ := h
  by_cases heq : s = .file (p.localPath r.id .raw)
  · refine ⟨image, ?_, hs heq⟩
    unfold VolumePool.set
    rw [heq]
    exact Function.update_self ..
  · refine ⟨there, ?_, hlen⟩
    unfold VolumePool.set
    exact (Function.update_of_ne (Ne.symm heq) ..).trans himage

theorem Sound.set (hs : p.Sound) (h : p.Suits s image) : (p.set s (some image)).Sound where
  sized v hv hraw := (hs.sized v hv hraw).set (h v hv hraw)
  ids := hs.ids

theorem Sound.failed {fault : Fault} {luck : Luck β} (hs : p.Sound) (hleft : p.LeavesWhole s luck)
    (h : p.write s image luck.command = (q, .error fault)) : q.Sound := by
  unfold VolumePool.write at h
  split at h
  · cases h
  · cases h
    exact hs
  · rename_i text left hcommand
    cases h
    exact hs.set (hleft text left hcommand)

/-- A record is put whose file is as long as it says, and what was done to the files before spared
the other volumes. -/
theorem Sound.upsert {flush : Option String} (hs : p.Sound) (hid : r.id < 2 ^ 128)
    (hrows : q.volumes = p.volumes)
    (hothers : ∀ v ∈ p.volumes.rows, v.id ≠ r.id → IsRaw v.record → q.Measures v.record)
    (hnew : IsRaw r → q.Measures r) : (q.upsertVolume r flush).1.Sound := by
  have hmem : ∀ v ∈ (q.volumes.insert (.ofRecord r)).rows,
      v = .ofRecord r ∨ v ∈ p.volumes.rows ∧ v.id ≠ r.id := by
    intro v hv
    rw [hrows] at hv
    have hcases := Table.mem_insert_ne hv
    rwa [StoredVolume.ofRecord_id] at hcases
  constructor
  · intro v hv hraw
    rcases hmem v hv with rfl | ⟨hv, hne⟩
    · exact measures_localize.mpr (hnew (isRaw_localize.mp hraw))
    · exact hothers v hv hne hraw
  · intro v hv
    rcases hmem v hv with rfl | ⟨hv, -⟩
    · rw [StoredVolume.ofRecord_id]
      exact hid
    · exact hs.ids v hv

/-- The file of one volume is no other's. -/
theorem Sound.apart {v : StoredVolume} {id : VolumeId} {format : VolumeFormat} (hs : p.Sound)
    (hv : v ∈ p.volumes.rows) (hid : id < 2 ^ 128) (hne : v.id ≠ id) :
    Spot.file (p.localPath id format) ≠ .file (p.localPath v.id .raw) := by
  intro heq
  exact hne (localPath_inj hid (hs.ids v hv) (Spot.file.inj heq)).1.symm

theorem Unused.suits {id : VolumeId} {format : VolumeFormat} (hs : p.Sound) (h : p.Unused id) :
    p.Suits (.file (p.localPath id format)) image :=
  fun _ hv _ heq => absurd heq (hs.apart hv h.1 (h.ne hv))

theorem Unused.leavesWhole {id : VolumeId} {format : VolumeFormat} {luck : Luck β}
    (hs : p.Sound) (h : p.Unused id) : p.LeavesWhole (.file (p.localPath id format)) luck :=
  fun _ _ _ => h.suits hs

/-- A volume's file is written and its record put. -/
theorem Sound.replace {id : VolumeId} {format : VolumeFormat} {flush : Option String}
    (hs : p.Sound) (hid : id < 2 ^ 128) (hr : r.id = id)
    (hnew : IsRaw r → format = .raw ∧ len image.active = r.sizeBytes) :
    ((p.set (.file (p.localPath id format)) (some image)).upsertVolume r flush).1.Sound := by
  subst hr
  refine hs.upsert hid rfl (fun v hv hne hraw => ?_) (fun hraw => ?_)
  · exact (hs.sized v hv hraw).set (fun heq => absurd heq (hs.apart hv hid hne))
  · obtain ⟨rfl, hlen⟩ := hnew hraw
    exact ⟨image, Function.update_self .., hlen⟩

theorem Sound.record {id : VolumeId} (hs : p.Sound) (h : p.getVolume id = .ok r) :
    r.id < 2 ^ 128 ∧ (IsRaw r → p.Measures r) := by
  obtain ⟨v, hv, rfl, -⟩ := getVolume_ok h
  exact ⟨hs.ids v hv, hs.sized v hv⟩

/-- What an image is now, it may be again. -/
theorem Sound.there {saved : List (String × β)} (hs : p.Sound) (h : p.image s = .ok image) :
    p.Suits s { image with saved := saved } := by
  rintro v hv hraw rfl
  obtain ⟨there, hthere, hlen⟩ := hs.sized v hv hraw
  cases (image_ok h).symm.trans hthere
  exact hlen

theorem Sound.absent (hs : p.Sound) (h : p.images s = none) : p.Suits s image := by
  rintro v hv hraw rfl
  obtain ⟨there, hthere, -⟩ := hs.sized v hv hraw
  cases h.symm.trans hthere

theorem Sound.touch {id : VolumeId} {snapshots : List VolumeSnapshot} {flush : Option String}
    (hs : p.Sound) (hget : p.getVolume id = .ok r) :
    (p.upsertVolume { r with snapshots := snapshots } flush).1.Sound :=
  hs.upsert (hs.record hget).1 rfl (fun v hv _ => hs.sized v hv) (hs.record hget).2

theorem createVolume_sound {id : VolumeId} {req : CreateVolumeRequest} {luck : Luck β}
    (hs : p.Sound) (hnew : p.Unused id) : (p.createVolume luck id req).1.Sound := by
  unfold createVolume
  split
  · exact hs
  · split
    · rename_i hwrite
      exact hs.failed (hnew.leavesWhole hs) hwrite
    · rename_i hwrite
      obtain ⟨-, rfl⟩ := write_ok hwrite
      split
      · exact hs.set (hnew.suits hs)
      · refine hs.replace hnew.1 rfl (fun hraw => ⟨hraw.2, ?_⟩)
        have hformat : req.format = .raw := hraw.2
        rw [hformat]
        exact RawFile.len_createRaw _

theorem resize_sound {id : VolumeId} {sizeBytes : Nat} {luck : Luck β} (hs : p.Sound)
    (hfit : p.Fits (.resize id sizeBytes luck)) :
    (p.resize luck RawFile.grow id sizeBytes).1.Sound := by
  unfold resize
  split
  · exact hs
  · rename_i record hget
    split
    · exact hs
    · split
      · exact hs
      · split
        · exact hs
        · dsimp only
          split
          · exact hs
          · split
            · rename_i hwrite
              exact hs.failed (hfit record hget) hwrite
            · rename_i hwrite
              obtain ⟨-, rfl⟩ := write_ok hwrite
              refine hs.replace (hs.record hget).1 rfl (fun hraw => ⟨hraw.2, ?_⟩)
              exact RawFile.len_grow _ _

theorem cloneVolume_sound {converts : Bool} {id newId : VolumeId} {req : CloneVolumeRequest}
    {luck : Luck β} (hs : p.Sound) (hnew : p.Unused newId) :
    (p.cloneVolume luck converts id newId req).1.Sound := by
  unfold cloneVolume
  split
  · exact hs
  · split
    · exact hs
    · rename_i source hget
      split
      · exact hs
      · split
        · exact hs
        · rename_i image himage
          dsimp only
          split
          · rename_i hwrite
            exact hs.failed (hnew.leavesWhole hs) hwrite
          · rename_i hwrite
            obtain ⟨-, rfl⟩ := write_ok hwrite
            refine hs.replace hnew.1 rfl (fun hraw => ⟨hraw.2, ?_⟩)
            have hraw' : IsRaw source := by
              obtain ⟨hbackend, hformat⟩ := hraw
              dsimp only at hbackend hformat
              split at hformat
              · cases hformat
              · exact ⟨hbackend, hformat⟩
            obtain ⟨there, hthere, hlen⟩ := (hs.record hget).2 hraw'
            rw [hraw'.2] at himage
            cases (image_ok himage).symm.trans hthere
            unfold cloneImage
            split <;> exact hlen

theorem snapshot_sound {now : Nat} {id : VolumeId} {name : String} {notes : Option String}
    {luck : Luck β} (hs : p.Sound) (hfit : p.Fits (.snapshot now id name notes luck)) :
    (p.snapshot luck now id name notes).1.Sound := by
  unfold snapshot
  split
  · exact hs
  · split
    · exact hs
    · rename_i record hget
      dsimp only
      split
      · exact hs
      · exact hs
      · rename_i s _ hspot
        split
        · exact hs
        · rename_i image himage
          have htarget := hfit record s image hget hspot himage
          split
          · rename_i q fault hcapture
            unfold capture at hcapture
            split at hcapture
            · rename_i tag hslot
              rw [hslot] at htarget
              split at hcapture
              · cases hcapture
                exact hs
              · exact hs.failed htarget hcapture
            · rename_i file hslot
              rw [hslot] at htarget
              exact hs.failed htarget.2 hcapture
          · rename_i q hcapture
            unfold capture at hcapture
            split at hcapture
            · split at hcapture
              · cases hcapture
              · obtain ⟨-, rfl⟩ := write_ok hcapture
                exact (hs.set (hs.there himage)).touch hget
            · rename_i file hslot
              rw [hslot] at htarget
              obtain ⟨-, rfl⟩ := write_ok hcapture
              exact (hs.set htarget.1).touch hget

theorem restoreSnapshot_sound {id : VolumeId} {name : String} {luck : Luck β} (hs : p.Sound)
    (hfit : p.Fits (.restore id name luck)) : (p.restoreSnapshot luck id name).1.Sound := by
  unfold restoreSnapshot
  split
  · exact hs
  · rename_i record hget
    split
    · exact hs
    · exact hs
    · rename_i snap s hfind hspot
      split
      · exact hs
      · rename_i image himage
        have hname : snap.name = name := by simpa using List.find?_some hfind
        obtain ⟨hsuits, hleft⟩ :=
          hfit record s snap image hget hspot (List.mem_of_find?_eq_some hfind) hname himage
        split
        · rename_i hwrite
          exact hs.failed hleft hwrite
        · rename_i hwrite
          obtain ⟨-, rfl⟩ := write_ok hwrite
          exact hs.set hsuits

theorem replica_of_not_external {b : StorageBackend} (h : ¬ b.external = true) : b = .replica := by
  cases b with
  | replica => rfl
  | rbd => exact absurd rfl h
  | zfs => exact absurd rfl h

/-- A volume's file is a raw volume's only if the volume is. -/
theorem Sound.leavesWhole {id : VolumeId} {luck : Luck β} (hs : p.Sound)
    (hget : p.getVolume id = .ok r) (hlocal : ¬ r.backend.external = true)
    (h : IsRaw r → p.LeavesWhole (.file (p.localPath r.id .raw)) luck) :
    p.LeavesWhole (.file (p.localPath r.id r.format)) luck := by
  intro text left hcommand v hv hraw heq
  obtain ⟨-, hformat⟩ := localPath_inj (hs.record hget).1 (hs.ids v hv) (Spot.file.inj heq)
  rw [hformat] at heq
  exact h ⟨replica_of_not_external hlocal, hformat⟩ text left hcommand v hv hraw heq

theorem writeBlob_sound {id : VolumeId} {bytes : β} {luck : Luck β} (hs : p.Sound)
    (hfit : p.Fits (.writeBlob id bytes luck)) : (p.writeBlob luck id bytes).1.Sound := by
  unfold writeBlob
  split
  · exact hs
  · rename_i record hget
    split
    · exact hs
    · rename_i hlocal
      split
      · rename_i hwrite
        exact hs.failed
          (hs.leavesWhole hget hlocal (fun hraw => (hfit record hget hraw).2)) hwrite
      · rename_i hwrite
        obtain ⟨-, rfl⟩ := write_ok hwrite
        refine hs.replace (hs.record hget).1 rfl (fun hraw => ⟨hraw.2, ?_⟩)
        exact (max_eq_right (hfit record hget hraw).1).symm

theorem ensureLocal_sound {record : VolumeRecord} {luck : Luck β} (hs : p.Sound)
    (hid : record.id < 2 ^ 128) (hfit : p.Fits (.ensureLocal record luck)) :
    (p.ensureLocal luck record).1.Sound := by
  unfold ensureLocal
  split
  · rename_i hexternal
    refine hs.upsert hid rfl (fun v hv _ => hs.sized v hv) (fun hraw => ?_)
    rw [hraw.1] at hexternal
    cases hexternal
  · dsimp only
    split
    · rename_i image hthere
      refine hs.upsert hid rfl (fun v hv _ => hs.sized v hv) (fun hraw => ?_)
      have hformat : record.format = .raw := hraw.2
      rw [hformat] at hthere
      exact ⟨image, hthere, hfit hraw image hthere⟩
    · rename_i hnone
      split
      · rename_i hwrite
        exact hs.failed (fun _ _ _ => hs.absent hnone) hwrite
      · rename_i hwrite
        obtain ⟨-, rfl⟩ := write_ok hwrite
        refine hs.replace hid rfl (fun hraw => ?_)
        have hformat : record.format = .raw := hraw.2
        rw [hformat]
        exact ⟨rfl, RawFile.len_createRaw _⟩

theorem fileStep_sound {a : FileAction β} (hs : p.Sound) (hfit : p.Fits a)
    (h : p.fileStep a = some q) : q.Sound := by
  cases a with
  | create id req luck =>
    unfold fileStep at h
    dsimp only at h
    split at h
    · rename_i hnew
      cases h
      exact createVolume_sound hs hnew
    · cases h
  | resize id sizeBytes luck =>
    cases h
    exact resize_sound hs hfit
  | snapshot now id name notes luck =>
    cases h
    exact snapshot_sound hs hfit
  | restore id name luck =>
    cases h
    exact restoreSnapshot_sound hs hfit
  | clone converts id newId req luck =>
    unfold fileStep at h
    dsimp only at h
    split at h
    · rename_i hnew
      cases h
      exact cloneVolume_sound hs hnew
    · cases h
  | writeBlob id bytes luck =>
    cases h
    exact writeBlob_sound hs hfit
  | ensureLocal record luck =>
    unfold fileStep at h
    dsimp only at h
    split at h
    · rename_i hid
      cases h
      exact ensureLocal_sound hs hid hfit
    · cases h

/-- In a run whose steps all fit, every raw volume's record says how long its file is. -/
theorem sized_always {acts : List (FileAction β)} (hs : p.Sound)
    (h : Run (Guarded Fits (Steps fileStep)) p acts q) : q.Sized :=
  (h.invariant (I := Sound) (fun _ _ _ hs h => fileStep_sound hs h.1 h.2) hs).sized

theorem sound_empty (h : p.volumes = .empty) : p.Sound where
  sized v hv := by
    rw [h] at hv
    cases hv
  ids v hv := by
    rw [h] at hv
    cases hv

end VolumePool

instance : RawFile Bytes where
  grow bytes size := ⟨(bytes.data ++ List.replicate (size - bytes.data.length) 0).take size⟩
  len_createRaw size := List.length_replicate
  len_grow bytes size := by
    show List.length (List.take size _) = size
    rw [List.length_take, List.length_append, List.length_replicate]
    omega

def oneByte : CreateVolumeRequest where
  name := "data"
  sizeBytes := 1

theorem grown_sized :
    ((emptyPool.createVolume {} 7 oneByte).1.resize {} RawFile.grow 7 2).1.Sized := by
  have hunused : emptyPool.Unused 7 := ⟨by decide, rfl⟩
  have hmade : Guarded VolumePool.Fits (Steps VolumePool.fileStep) emptyPool
      (.create 7 oneByte {}) (emptyPool.createVolume {} 7 oneByte).1 := by
    refine ⟨trivial, ?_⟩
    unfold Steps VolumePool.fileStep
    exact if_pos hunused
  have hgrown : Guarded VolumePool.Fits (Steps VolumePool.fileStep)
      (emptyPool.createVolume {} 7 oneByte).1 (.resize 7 2 {})
      ((emptyPool.createVolume {} 7 oneByte).1.resize {} RawFile.grow 7 2).1 := by
    refine ⟨?_, rfl⟩
    intro record _ text left hcommand
    cases hcommand
  exact VolumePool.sized_always (VolumePool.sound_empty rfl) (.cons hmade (.one hgrown))

/-- A raw volume of one byte goes back to a snapshot from before it was grown. -/
def backToSmall : List (FileAction Bytes) :=
  [.create 7 oneByte {}, .snapshot 0 7 "daily" none {}, .resize 7 2 {},
    .restore 7 "daily" {}]

theorem old_snapshot_is_short :
    ¬ ∀ (p q : VolumePool Bytes) (acts : List (FileAction Bytes)), p.volumes = .empty →
      Run (Steps VolumePool.fileStep) p acts q → q.Sized := by
  intro h
  have hsized := h emptyPool _ backToSmall rfl (Run.of_exec (by decide +kernel))
  have hrow : ((exec VolumePool.fileStep emptyPool backToSmall).volumes.get 7).map
      (fun v => (v.record.sizeBytes, decide (IsRaw v.record))) = some (2, true) := by decide +kernel
  obtain ⟨v, hget, hsize⟩ := Option.map_eq_some_iff.mp hrow
  obtain ⟨image, himage, hlen⟩ := hsized v (Table.mem_of_get hget)
    (by simpa using (Prod.ext_iff.mp hsize).2)
  have hid : v.id = 7 := Table.key_of_get hget
  rw [show v.record.id = 7 from hid] at himage
  have hshort : ((exec VolumePool.fileStep emptyPool backToSmall).images (.file
      ((exec VolumePool.fileStep emptyPool backToSmall).localPath 7 .raw))).map
      (fun i => len i.active) = some 1 := by decide +kernel
  have htwo : v.record.sizeBytes = 2 := (Prod.ext_iff.mp hsize).1
  rw [himage, Option.map_some, hlen, htwo] at hshort
  cases hshort

end Pertisk.Disks
