import Pertisk.Disks.Listed

namespace Pertisk.Disks
open Lib Storage Volume

namespace Shelf

variable {β : Type} {w : Shelf β} {p q : VolumePool β} {r : VolumeRecord} {snap : VolumeSnapshot}
  {id : VolumeId} {file : FileName} {s x : Spot} {y : Option (Image β)}

theorem Fresh.kept (h : Fresh w.pool) : w.Kept where
  ids := h.ids
  apart := h.apart
  names v hv := by simp [h.noSnapshots v hv]
  slots v hv a ha := by
    rw [h.noSnapshots v hv] at ha
    cases ha
  below v hv snap hsnap := by
    rw [h.noSnapshots v hv] at hsnap
    cases hsnap
  able v hv snap hsnap := by
    rw [h.noSnapshots v hv] at hsnap
    cases hsnap
  found v hv snap hsnap := by
    rw [h.noSnapshots v hv] at hsnap
    cases hsnap

/-- What is held for a snapshot can be put back. -/
theorem restoredImage_held {contents : β} (hspot : p.spot r = .ok s)
    (htool : ∀ tag, p.slot r snap = .inside tag → p.tagTool r = .ok ())
    (hheld : p.held r snap = some contents) :
    ∃ image, p.restoredImage s r snap = .ok image ∧ image.active = contents := by
  unfold VolumePool.held at hheld
  unfold VolumePool.restoredImage VolumePool.image
  cases hslot : p.slot r snap with
  | inside tag =>
    rw [hslot, hspot] at hheld
    obtain ⟨image, himage, hlookup⟩ := Option.bind_eq_some_iff.mp hheld
    rw [htool tag hslot, himage]
    dsimp only
    rw [hlookup]
    exact ⟨_, rfl, rfl⟩
  | file file =>
    rw [hslot] at hheld
    obtain ⟨image, himage, rfl⟩ := Option.map_eq_some_iff.mp hheld
    dsimp only
    rw [himage]
    exact ⟨image, rfl, rfl⟩

theorem Kept.restorable (hk : w.Kept) {name : String} (h : w.pool.records id name = true) :
    ∃ contents, w.captured id name = some contents ∧
      ∃ q record, w.pool.restoreSnapshot {} id name = (q, .ok record) ∧
        q.contents id = some contents := by
  cases hget : w.pool.getVolume id with
  | error fault =>
    unfold VolumePool.records at h
    rw [hget] at h
    cases h
  | ok r =>
    cases hfind : r.snapshots.find? (fun snap => snap.name == name) with
    | none =>
      obtain ⟨snap, hsnap, hname⟩ := (VolumePool.records_iff hget).mp h
      exact absurd (List.find?_eq_none.mp hfind snap hsnap) (by simp [hname])
    | some snap =>
      have hsnap := List.mem_of_find?_eq_some hfind
      have hname : snap.name = name := by simpa using List.find?_some hfind
      obtain ⟨v, hv, rfl, rfl⟩ := VolumePool.getVolume_ok hget
      obtain ⟨contents, hcaptured, hheld⟩ := hk.found v hv snap hsnap
      obtain ⟨⟨s, hspot⟩, htool⟩ := hk.able v hv snap hsnap
      obtain ⟨image, hrestored, hactive⟩ := restoredImage_held hspot htool hheld
      refine ⟨contents, hname ▸ hcaptured, w.pool.set s (some image), v.record, ?_, ?_⟩
      · unfold VolumePool.restoreSnapshot
        rw [hget]
        dsimp only
        rw [hfind, hspot]
        dsimp only
        rw [hrestored]
        rfl
      · rw [← hactive]
        exact contents_image (p := w.pool.set s (some image)) hget hspot
          VolumePool.set_images_self

/-- Different snapshots have different files. -/
theorem Kept.files (hk : w.Kept) {v u : StoredVolume} (hv : v ∈ w.pool.volumes.rows)
    (hu : u ∈ w.pool.volumes.rows) {other : VolumeSnapshot} (hsnap : snap ∈ v.record.snapshots)
    (hother : other ∈ u.record.snapshots) (hfile : w.pool.slot v.record snap = .file file)
    (hfile' : w.pool.slot u.record other = .file file) :
    v.id = u.id ∧ snap.name = other.name := by
  have hid := VolumePool.below_inj (hk.ids v hv) (hk.ids u hu)
    (hk.below v hv snap hsnap file hfile) (hk.below u hu other hother file hfile')
  have hsame : v = u := by
    have hget := Table.get_of_mem hv
    rw [show StoredVolume.id v = StoredVolume.id u from hid, Table.get_of_mem hu] at hget
    exact (Option.some.inj hget).symm
  subst hsame
  exact ⟨rfl, hk.slots v hv snap hsnap other hother (hfile.trans hfile'.symm)⟩

/-- At most one place changes, one of the volume's own. -/
def Touches (p q : VolumePool β) (id : VolumeId) : Prop :=
  ∀ x, q.images x ≠ p.images x → Own p id x

theorem touches_same : Touches p p id := fun _ h => absurd rfl h

theorem touches_set (hx : Own p id x) : Touches p (p.set x y) id := by
  intro t ht
  by_cases heq : t = x
  · exact heq ▸ hx
  · exact absurd (VolumePool.set_images_ne heq) ht

theorem touches_failed {image : Image β} {fault : Fault} (hx : Own p id s)
    {command : Option (String × Option (Image β))}
    (h : p.write s image command = (q, .error fault)) : Touches p q id := by
  unfold VolumePool.write at h
  split at h
  · cases h
  · cases h
    exact touches_same
  · cases h
    exact touches_set hx

theorem restore_touches {name : String} {luck : Luck β} :
    Touches p (p.restoreSnapshot luck id name).1 id := by
  unfold VolumePool.restoreSnapshot
  split
  · exact touches_same
  · rename_i r hget
    split
    · exact touches_same
    · exact touches_same
    · rename_i s _ hspot
      split
      · exact touches_same
      · split
        · rename_i hwrite
          exact touches_failed (.inl ⟨r, hget, hspot⟩) hwrite
        · rename_i hwrite
          obtain ⟨-, rfl⟩ := VolumePool.write_ok hwrite
          exact touches_set (.inl ⟨r, hget, hspot⟩)

theorem write_touches {contents : β} : Touches p (writeData p id contents) id := by
  unfold writeData
  split
  · exact touches_same
  · rename_i r hget
    split
    · exact touches_same
    · rename_i s hspot
      exact touches_set (.inl ⟨r, hget, hspot⟩)

theorem delete_touches (hk : w.Kept) {name : String} {luck : Luck β} :
    Touches w.pool (w.pool.deleteSnapshot luck id name).1 id := by
  unfold VolumePool.deleteSnapshot
  split
  · exact touches_same
  · rename_i r hget
    dsimp only
    split
    · exact touches_same
    · exact touches_same
    · rename_i snap s hfind hspot
      split
      · rename_i hdiscard
        rcases discard_failed hdiscard with rfl | ⟨text, left, -, rfl⟩
        · exact touches_same
        · exact touches_set (.inl ⟨r, hget, hspot⟩)
      · rename_i hdiscard
        obtain ⟨x, y, hx, rfl⟩ :=
          hk.discard_own hget hspot (List.mem_of_find?_eq_some hfind) hdiscard
        exact touches_set hx

theorem snapshot_touches {now : Nat} {name : String} {notes : Option String} {luck : Luck β}
    (hcareful : w.Careful (.snapshot now id name notes luck)) :
    Touches w.pool (w.pool.snapshot luck now id name notes).1 id := by
  unfold VolumePool.snapshot
  split
  · exact touches_same
  · split
    · exact touches_same
    · rename_i r hget
      dsimp only
      split
      · exact touches_same
      · exact touches_same
      · rename_i s hcheck hspot
        split
        · exact touches_same
        · rename_i image himage
          have hplace := hcareful r s image hget hspot himage
          have hid : r.id = id := (VolumePool.getVolume_ok hget).choose_spec.2.2
          have hfile : ∀ file, w.pool.slot r
              (Edit.entry w.pool.tools r name notes now false) = .file file →
                Own w.pool id (.file file) := by
            intro file hslot
            rw [hslot, hid] at hplace
            exact .inr ⟨file, rfl, hplace.1⟩
          split
          · rename_i hcapture
            rcases capture_failed hcapture with
              rfl | ⟨text, left, -, ⟨tag, -, rfl⟩ | ⟨file, hslot, rfl⟩⟩
            · exact touches_same
            · exact touches_set (.inl ⟨r, hget, hspot⟩)
            · exact touches_set (hfile file hslot)
          · rename_i hcapture
            rcases capture_ok hcapture with ⟨tag, -, -, rfl⟩ | ⟨file, hslot, rfl⟩
            · exact touches_set (.inl ⟨r, hget, hspot⟩)
            · exact touches_set (hfile file hslot)

theorem act_touches (hk : w.Kept) {a : SnapAction β} (hcareful : w.Careful a) :
    Touches w.pool (act w.pool a) a.id := by
  cases a with
  | write id contents => exact write_touches
  | snapshot now id name notes luck => exact snapshot_touches hcareful
  | delete id name luck => exact delete_touches hk
  | restore id name luck => exact restore_touches

/-- In a run whose steps are all careful, each listed snapshot goes back to what its volume read as
when it was taken, different snapshots have different files, each below its volume's directory, and
the next careful step changes nothing but its volume's image and files below that directory. -/
theorem snapshots_isolated {u : Shelf β} {acts : List (SnapAction β)} (hfresh : Fresh w.pool)
    (hrun : Run (Guarded Careful (Steps step)) w acts u) :
    (∀ id name, u.pool.records id name = true → ∃ contents, u.captured id name = some contents ∧
      ∃ q record, u.pool.restoreSnapshot {} id name = (q, .ok record) ∧
        q.contents id = some contents) ∧
    (∀ v ∈ u.pool.volumes.rows, ∀ snap ∈ v.record.snapshots, ∀ file,
      u.pool.slot v.record snap = .file file → u.pool.Below v.id file ∧
        ∀ v' ∈ u.pool.volumes.rows, ∀ other ∈ v'.record.snapshots,
          u.pool.slot v'.record other = .file file → v.id = v'.id ∧ snap.name = other.name) ∧
    ∀ a, u.Careful a → Touches u.pool (act u.pool a) a.id := by
  have hk : u.Kept := hrun.invariant (I := Kept) (fun _ _ _ hk h => step_kept hk h.1 h.2)
    hfresh.kept
  refine ⟨fun id name h => hk.restorable h, fun v hv snap hsnap file hslot => ?_,
    fun a hcareful => act_touches hk hcareful⟩
  exact ⟨hk.below v hv snap hsnap file hslot, fun v' hv' other hother hslot' =>
    hk.files hv hv' hsnap hother hslot hslot'⟩

end Shelf

/-- A raw volume that reads 1, on a node without `qemu-img`. -/
def diskRecord : VolumeRecord where
  id := 7
  name := "data"
  format := .raw
  sizeBytes := 8
  path := .disk 7 .raw

def diskShelf : Shelf Nat where
  pool :=
    { root := []
      qemu := false
      rbd := Rbd.new none
      zfs := Zfs.new none
      volumes := Table.empty.insert (.ofRecord diskRecord)
      isos := .empty
      images := Function.update (fun _ => none)
        (.file ["disks".toList, "00000000-0000-0000-0000-000000000007.raw".toList])
        (some { active := 1, saved := [] }) }
  captured _ _ := none

theorem diskShelf_fresh : Shelf.Fresh diskShelf.pool where
  ids := by decide +kernel
  apart v hv u hu _ _ _ := by
    have hids : ∀ v ∈ diskShelf.pool.volumes.rows, v.id = 7 := by decide +kernel
    exact (hids v hv).trans (hids u hu).symm
  noSnapshots := by decide +kernel

/-- The disk is written after its snapshot. -/
def writtenAfter : List (SnapAction Nat) := [.snapshot 0 7 "daily" none {}, .write 7 2]

theorem daily_restored :
    ∃ contents, (exec Shelf.step diskShelf writtenAfter).captured 7 "daily" = some contents ∧
      ∃ q record, (exec Shelf.step diskShelf writtenAfter).pool.restoreSnapshot {} 7 "daily" =
        (q, .ok record) ∧ q.contents 7 = some contents := by
  have hcareful : diskShelf.Careful (.snapshot 0 7 "daily" none {}) := by
    intro record s image hget _ _
    have hrecord : diskShelf.pool.getVolume 7 = .ok diskRecord := rfl
    cases hrecord.symm.trans hget
    have hslot : diskShelf.pool.slot diskRecord (Edit.entry diskShelf.pool.tools diskRecord "daily"
        none 0 false) = .file ["snapshots".toList,
          "00000000-0000-0000-0000-000000000007".toList, "daily".toList] := by decide +kernel
    rw [hslot]
    exact ⟨by decide +kernel, nofun⟩
  have hrun : Run (Guarded Shelf.Careful (Steps Shelf.step)) diskShelf writtenAfter
      (exec Shelf.step diskShelf writtenAfter) :=
    .cons ⟨hcareful, rfl⟩ (.one ⟨trivial, rfl⟩)
  exact (Shelf.snapshots_isolated diskShelf_fresh hrun).1 7 "daily" (by decide +kernel)

/-- A second snapshot under a name that leads to the file of the first. -/
def dotDaily : List (SnapAction Nat) :=
  [.snapshot 0 7 "daily" none {}, .write 7 2, .snapshot 0 7 "./daily" none {}]

theorem daily_overwritten :
    ¬ ∀ (w u : Shelf Nat) (acts : List (SnapAction Nat)), Shelf.Fresh w.pool →
      Run (Steps Shelf.step) w acts u → ∀ id name, u.pool.records id name = true →
        ∃ contents, u.captured id name = some contents ∧
          ∃ q record, u.pool.restoreSnapshot {} id name = (q, .ok record) ∧
            q.contents id = some contents := by
  intro h
  obtain ⟨contents, hcaptured, q, record, hrestore, hcontents⟩ :=
    h diskShelf _ dotDaily diskShelf_fresh (Run.of_exec (by decide +kernel)) 7 "daily"
      (by decide +kernel)
  have htaken : (exec Shelf.step diskShelf dotDaily).captured 7 "daily" = some 1 := by
    decide +kernel
  have hreads : ((exec Shelf.step diskShelf dotDaily).pool.restoreSnapshot {} 7 "daily").1.contents
      7 = some 2 := by decide +kernel
  rw [hrestore, hcontents] at hreads
  cases (hcaptured.symm.trans htaken).symm.trans (by rw [Option.some.inj hreads])

end Pertisk.Disks
