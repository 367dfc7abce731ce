import Mathlib.Data.List.Nodup
import Pertisk.Lib.Calls
import Pertisk.Volume.Saved

namespace Pertisk.Volume
open Lib

section Lookup
variable {β : Type} {tag other : String} {b : β} {saved : List (String × β)}

theorem lookup_any (h : saved.any (fun entry => entry.1 == tag) = false) :
    saved.lookup tag = none := by
  rw [List.lookup_eq_none_iff]
  intro entry hentry
  have hne := List.any_eq_false.mp h entry hentry
  exact bne_iff_ne.mpr (fun heq => hne (beq_iff_eq.mpr heq.symm))

theorem lookup_append_ne (h : saved.lookup other = some b) {entry : String × β} :
    (saved ++ [entry]).lookup other = some b := by
  rw [List.lookup_append, h]
  rfl

theorem lookup_append_new (h : saved.lookup tag = none) :
    (saved ++ [(tag, b)]).lookup tag = some b := by
  rw [List.lookup_append, h]
  simp

theorem lookup_eraseP (hne : other ≠ tag) :
    (saved.eraseP (fun entry => entry.1 == tag)).lookup other = saved.lookup other := by
  induction saved with
  | nil => rfl
  | cons entry saved ih =>
    obtain ⟨name, c⟩ := entry
    by_cases hname : name = tag
    · subst hname
      rw [List.eraseP_cons_of_pos (by simp), List.lookup_cons, beq_eq_false_iff_ne.mpr hne]
    · rw [List.eraseP_cons_of_neg (by simpa using hname)]
      simp only [List.lookup_cons, ih]

/-- What a rollback leaves is as it was. -/
theorem lookup_upTo (h : other ∈ (upTo tag saved).map Prod.fst) :
    (upTo tag saved).lookup other = saved.lookup other := by
  induction saved with
  | nil => rfl
  | cons entry saved ih =>
    obtain ⟨name, c⟩ := entry
    unfold upTo at h ⊢
    split at h
    · rename_i hname
      rw [if_pos hname]
      obtain rfl := List.mem_singleton.mp h
      simp
    · rename_i hname
      rw [if_neg hname]
      simp only [List.lookup_cons]
      split
      · rfl
      · rename_i hother
        rcases List.mem_cons.mp h with rfl | h
        · simp at hother
        · exact ih h

end Lookup

namespace Vault

variable {β : Type} {t : Tools} {v v' : Vault β} {n : NodeId} {image : Image β} {s : Slot}
  {snap : VolumeSnapshot}

/-- Every listed snapshot is where its slot says, with what it captured. -/
structure Inv (v : Vault β) : Prop where
  distinct : Distinct v.record
  slots : (v.record.snapshots.map (slot v.record)).Nodup
  found : ∀ snap ∈ v.record.snapshots, ∃ c,
    v.captured snap.name = some c ∧ v.content (slot v.record snap) = some c

@[simp] theorem write_backend {r : VolumeRecord} {edit : Edit} :
    (edit.write t r).backend = r.backend := by
  cases edit <;> first | rfl | (simp only [Edit.write, joined]; split <;> rfl)

theorem slot_write {r : VolumeRecord} {edit : Edit} : slot (edit.write t r) = slot r := by
  funext snap
  simp only [slot, write_backend, Edit.write_id]

/-- An operation that changes no listed snapshot, and nothing of what their slots give. -/
theorem Inv.frame (h : v.Inv) (hsnaps : v'.record.snapshots = v.record.snapshots)
    (hslot : slot v'.record = slot v.record) (hcaptured : v'.captured = v.captured)
    (hcontent : ∀ snap ∈ v.record.snapshots,
      v'.content (slot v.record snap) = v.content (slot v.record snap)) : v'.Inv where
  distinct := by
    unfold Distinct
    rw [hsnaps]
    exact h.distinct
  slots := by
    rw [hsnaps, hslot]
    exact h.slots
  found snap hsnap := by
    rw [hsnaps] at hsnap
    obtain ⟨c, hc, hfound⟩ := h.found snap hsnap
    exact ⟨c, by rw [hcaptured]; exact hc, by rw [hslot, hcontent snap hsnap]; exact hfound⟩

theorem content_setImage (hsite : v.site n = v.site v.home) (tag : String) :
    (v.setImage n image).content (.inside tag) = image.saved.lookup tag := by
  show (Function.update v.images (v.site n) (some image) (v.site v.home)).bind _ = _
  rw [hsite, Function.update_self]
  rfl

theorem content_setImage_ne (hsite : v.site n ≠ v.site v.home) (s : Slot) :
    (v.setImage n image).content s = v.content s := by
  cases s with
  | inside tag =>
    show (Function.update v.images (v.site n) (some image) (v.site v.home)).bind _ = _
    rw [Function.update_of_ne (Ne.symm hsite)]
    rfl
  | file name => rfl

/-- An image takes the place of one, here with the listed snapshots that were inside. -/
theorem Inv.setImage (h : v.Inv) (hholds : v.site n = v.site v.home → v.Holds image) :
    (v.setImage n image).Inv := by
  refine h.frame rfl rfl rfl (fun snap hsnap => ?_)
  by_cases hsite : v.site n = v.site v.home
  · have hslot := hholds hsite snap hsnap
    cases hs : slot v.record snap with
    | inside tag =>
      rw [hs] at hslot
      rw [content_setImage hsite]
      exact hslot
    | file name => rfl
  · exact content_setImage_ne hsite _

theorem image_ok (h : v.image n = .ok image) : v.images (v.site n) = some image := by
  unfold Vault.image at h
  split at h
  · rename_i himage
    cases h
    exact himage
  · cases h

theorem content_image (h : v.image n = .ok image) (hsite : v.site n = v.site v.home)
    (tag : String) : v.content (.inside tag) = image.saved.lookup tag := by
  simp only [content, ← hsite, image_ok h, Option.bind_some]

/-- The image itself with other contents. -/
theorem holds_active (h : v.image n = .ok image) (hsite : v.site n = v.site v.home) (contents : β) :
    v.Holds { image with active := contents } := by
  intro snap _
  cases slot v.record snap with
  | inside tag => exact (content_image h hsite tag).symm
  | file name => trivial

theorem site_home (h : v.record.backend ≠ .rbd) (hsite : v.site n = v.site v.home) :
    n = v.home := by
  unfold site at hsite
  rw [if_neg h, if_neg h] at hsite
  exact Option.some.inj hsite

theorem slot_file {name : FileName} (h : slot v.record snap = .file name) :
    v.record.backend = .replica := by
  unfold slot at h
  split at h
  · cases h
  · cases h
  · cases h
  · assumption

/-- A record that lists the same snapshots. -/
theorem Inv.record (h : v.Inv) (edit : Edit)
    (hsnaps : (edit.write t v.record).snapshots = v.record.snapshots) :
    Inv { v with record := edit.write t v.record } := by
  refine h.frame hsnaps slot_write rfl (fun snap _ => ?_)
  cases slot v.record snap with
  | inside tag => simp only [content, site, write_backend]
  | file name => rfl

theorem write_inv (h : v.Inv) {contents : β} (hstep : v.write contents = .ok v') : v'.Inv := by
  obtain ⟨image, himage, hstep⟩ := bind_ok hstep
  cases hstep
  exact h.setImage (fun hsite => holds_active himage hsite contents)

theorem resize_inv (h : v.Inv) {size : Nat} {contents : β}
    (hstep : v.resize t n size contents = .ok v') : v'.Inv := by
  obtain ⟨-, -, hstep⟩ := bind_ok hstep
  obtain ⟨image, himage, hstep⟩ := bind_ok hstep
  cases hstep
  have hset := h.setImage (fun hsite => holds_active himage hsite contents)
  exact hset.record (.resize size) rfl

theorem rename_inv (h : v.Inv) {name : String} (hstep : v.rename t name = .ok v') : v'.Inv := by
  obtain ⟨-, -, hstep⟩ := bind_ok hstep
  cases hstep
  exact h.record (.rename name) rfl

theorem backup_inv (h : v.Inv) (hstep : v.backup t n = .ok v') : v'.Inv := by
  obtain ⟨image, -, hstep⟩ := bind_ok hstep
  split at hstep
  · cases hstep
  · cases hstep
    exact h.frame rfl rfl rfl (fun snap _ => by cases slot v.record snap <;> rfl)

theorem internal_of_external (h : ¬ v.record.backend.external = true) :
    v.record.backend ≠ .rbd := by
  intro heq
  rw [heq] at h
  exact h rfl

theorem restoreBackup_inv (h : v.Inv) {i : Nat} (hok : v.Careful t (.restoreBackup n i))
    (hstep : v.restoreBackup t n i = .ok v') : v'.Inv := by
  unfold restoreBackup at hstep
  split at hstep
  · cases hstep
  · rename_i image himage
    split at hstep
    · cases hstep
    · rename_i hlocal
      cases hstep
      exact h.setImage (fun hsite =>
        hok (site_home (internal_of_external hlocal) hsite) image himage)

theorem sync_inv (h : v.Inv) {dest : NodeId} (hok : v.Careful t (.sync n dest))
    (hstep : v.sync n dest = .ok v') : v'.Inv := by
  obtain ⟨image, himage, hstep⟩ := bind_ok hstep
  split at hstep
  · cases hstep
    exact h
  · rename_i hlocal
    cases hstep
    exact h.setImage (fun hsite =>
      hok (site_home (internal_of_external hlocal) hsite) image (image_ok himage))

theorem migrate_inv (h : v.Inv) {dest : NodeId} {live : Bool}
    (hok : v.Careful t (.migrate dest live)) (hstep : v.migrate dest live = .ok v') : v'.Inv := by
  obtain ⟨image, himage, hstep⟩ := bind_ok hstep
  split at hstep
  · rename_i hrbd
    cases hstep
    refine h.frame rfl rfl rfl (fun snap _ => ?_)
    cases hslot : slot v.record snap with
    | inside tag => simp only [content, site, hrbd, if_true]
    | file name =>
      have hreplica := slot_file hslot
      rw [hrbd] at hreplica
      cases hreplica
  · cases hstep
  · rename_i hreplica
    cases hstep
    obtain ⟨hholds, hfiles⟩ := hok hreplica
    refine h.frame rfl rfl rfl (fun snap hsnap => ?_)
    have hslot := hholds image (image_ok himage) snap hsnap
    have hfile := hfiles snap hsnap
    cases hs : slot v.record snap with
    | inside tag =>
      rw [hs] at hslot
      rw [← hslot]
      show (Function.update v.images (v.site dest) _ (v.site dest)).bind _ = _
      rw [Function.update_self]
      rfl
    | file name =>
      rw [hs] at hfile
      exact hfile

theorem find_ok {name : String} (h : v.find name = .ok snap) :
    snap ∈ v.record.snapshots ∧ snap.name = name := by
  unfold find at h
  split at h
  · rename_i hfound
    cases h
    have hname := List.find?_some hfound
    exact ⟨List.mem_of_find?_eq_some hfound, beq_iff_eq.mp hname⟩
  · cases h

theorem restore_inv (h : v.Inv) {name : String} (hok : v.Careful t (.restore n name))
    (hstep : v.restore n name = .ok v') : v'.Inv := by
  obtain ⟨snap, hfind, hstep⟩ := bind_ok hstep
  obtain ⟨image, hrestored, hstep⟩ := bind_ok hstep
  cases hstep
  obtain ⟨hsnap, hname⟩ := find_ok hfind
  refine h.setImage (fun hsite => ?_)
  cases hslot : slot v.record snap with
  | file name =>
    have hreplica := slot_file hslot
    have hok := hok (site_home (by rw [hreplica]; decide) hsite) snap hsnap hname
    rw [hslot] at hok hrestored
    simp only [restored] at hrestored
    split at hrestored
    · rename_i hfile
      cases hrestored
      exact hok image hfile
    · cases hrestored
  | inside tag =>
    rw [hslot] at hrestored
    obtain ⟨old, hold, hrestored⟩ := bind_ok hrestored
    split at hrestored
    · rename_i contents _
      cases hrestored
      by_cases hzfs : v.record.backend = .zfs
      · have hok := hok (site_home (by rw [hzfs]; decide) hsite) snap hsnap hname
        rw [hslot] at hok
        simp only [if_pos hzfs]
        intro other hother
        have hleft := hok hzfs old (image_ok hold) other hother
        have hother : slot v.record other = .inside (String.ofList (sanitize other.name.toList)) := by
          simp only [slot, hzfs]
        rw [hother]
        exact (lookup_upTo hleft).trans (content_image hold hsite _).symm
      · simp only [if_neg hzfs]
        exact holds_active hold hsite contents
    · cases hrestored

/-- A snapshot is listed once it is in its slot. -/
theorem Inv.save (h : v.Inv) {edit : Edit} {b : β} (hcheck : edit.check v.record = .ok ())
    (hsnaps : (edit.write t v.record).snapshots = v.record.snapshots ++ [snap])
    (hname : ∀ old ∈ v.record.snapshots, old.name ≠ snap.name)
    (hslot : slot v.record snap ∉ v.record.snapshots.map (slot v.record))
    {w : Vault β} (hw : w.record = v.record) (hcaptured : w.captured = v.captured)
    (hnew : w.content (slot v.record snap) = some b)
    (hold : ∀ old ∈ v.record.snapshots,
      w.content (slot v.record old) = v.content (slot v.record old)) :
    Inv { w with
      record := edit.write t w.record
      captured := Function.update w.captured snap.name (some b) } := by
  rw [hw, hcaptured]
  have hcontent : ∀ s, content { w with
      record := edit.write t v.record
      captured := Function.update v.captured snap.name (some b) } s = w.content s := by
    intro s
    cases s with
    | inside tag => simp only [content, site, write_backend, hw]
    | file name => rfl
  refine ⟨Edit.write_distinct h.distinct hcheck, ?_, fun old hmem => ?_⟩
  · rw [hsnaps, slot_write, List.map_append]
    refine List.nodup_append.mpr ⟨h.slots, by simp, ?_⟩
    intro s hs s' hs' heq
    obtain rfl := List.mem_singleton.mp hs'
    exact hslot (heq ▸ hs)
  · rw [hsnaps] at hmem
    rw [slot_write, hcontent]
    rcases List.mem_append.mp hmem with hmem | hmem
    · obtain ⟨c, hc, hfound⟩ := h.found old hmem
      refine ⟨c, ?_, by rw [hold old hmem, hfound]⟩
      simpa [Function.update_of_ne (hname old hmem)] using hc
    · obtain rfl := List.mem_singleton.mp hmem
      exact ⟨b, Function.update_self .., hnew⟩

theorem content_setFile {name : FileName} (hn : n = v.home) :
    (v.setFile n name (some image)).content (.file name) = some image.active := by
  subst hn
  simp [content, setFile]

theorem content_setFile_ne {name : FileName} {file : Option (Image β)} (hne : s ≠ .file name) :
    (v.setFile n name file).content s = v.content s := by
  cases s with
  | inside tag => rfl
  | file other =>
    have hother : other ≠ name := fun h => hne (h ▸ rfl)
    simp only [content, setFile]
    by_cases hn : v.home = n
    · rw [hn, Function.update_self, Function.update_of_ne hother]
    · rw [Function.update_of_ne hn]

theorem snapshot_inv (h : v.Inv) {name : String} {notes : Option String} {now : Nat} {live : Bool}
    (hok : v.Careful t (.snapshot n name notes now live))
    (hstep : v.snapshot t n (.snapshot name notes now live)
      (Edit.entry t v.record name notes now live) live = .ok v') : v'.Inv := by
  obtain ⟨_, hcheck, hstep⟩ := bind_ok hstep
  split at hstep
  · cases hstep
  obtain ⟨image, himage, hstep⟩ := bind_ok hstep
  obtain ⟨w, hsave, hstep⟩ := bind_ok hstep
  cases hstep
  obtain ⟨hsite, hfree⟩ := hok
  have hsite : v.site n = v.site v.home := by
    rcases hsite with hrbd | rfl
    · simp [site, hrbd]
    · rfl
  have hname : ∀ old ∈ v.record.snapshots,
      old.name ≠ (Edit.entry t v.record name notes now live).name := by
    intro old hold heq
    have hhas : v.record.hasSnapshot (trimmed name) = true := hasSnapshot_iff.mpr ⟨old, hold, heq⟩
    rw [Edit.check_snapshot hcheck] at hhas
    cases hhas
  cases hslot : slot v.record (Edit.entry t v.record name notes now live) with
  | inside tag =>
    rw [hslot] at hsave hfree
    have hcontent := content_image himage hsite
    simp only [save] at hsave
    split at hsave
    · cases hsave
    · rename_i hadmitted
      cases hsave
      have hnone : image.saved.lookup tag = none := by
        cases hbackend : v.record.backend with
        | replica => exact hcontent tag ▸ Option.isNone_iff_eq_none.mp (hfree hbackend)
        | rbd | zfs =>
          rw [hbackend] at hadmitted
          exact lookup_any (Bool.eq_false_iff.mpr (fun hany => hadmitted
            (Bool.and_eq_true_iff.mpr ⟨rfl, hany⟩)))
      refine h.save hcheck rfl hname ?_ rfl rfl ?_ ?_
      · intro hmem
        obtain ⟨old, hold, heq⟩ := List.mem_map.mp hmem
        obtain ⟨c, -, hfound⟩ := h.found old hold
        rw [heq, hslot, hcontent, hnone] at hfound
        cases hfound
      · rw [hslot, content_setImage hsite]
        exact lookup_append_new hnone
      · intro old hold
        obtain ⟨c, -, hfound⟩ := h.found old hold
        cases hold' : slot v.record old with
        | inside other =>
          rw [hold', hcontent] at hfound
          rw [content_setImage hsite, hcontent, hfound]
          exact lookup_append_ne hfound
        | file name => rfl
  | file file =>
    rw [hslot] at hsave hfree
    cases hsave
    have hhome : n = v.home := site_home (by rw [slot_file hslot]; decide) hsite
    refine h.save hcheck rfl hname (hslot ▸ hfree) rfl rfl ?_ ?_
    · rw [hslot]
      exact content_setFile hhome
    · intro old hold
      refine content_setFile_ne (fun heq => hfree ?_)
      exact heq ▸ List.mem_map_of_mem hold

theorem deleted_sublist {r : VolumeRecord} {name : String} {live : Bool} :
    ((Edit.write t r (.deleteSnapshot name live)).snapshots).Sublist r.snapshots := by
  cases live with
  | true => exact List.filter_sublist
  | false => exact List.eraseP_sublist

/-- What is discarded is out of its own slot only. -/
theorem discard_same {w : Vault β} (h : v.discard n s = .ok w) :
    w.record = v.record ∧ w.captured = v.captured ∧
      ∀ other, other ≠ s → w.content other = v.content other := by
  cases s with
  | inside tag =>
    obtain ⟨image, himage, h⟩ := bind_ok h
    split at h
    · cases h
      refine ⟨rfl, rfl, fun other hne => ?_⟩
      by_cases hsite : v.site n = v.site v.home
      · cases other with
        | inside tag' =>
          have htag : tag' ≠ tag := fun heq => hne (heq ▸ rfl)
          rw [content_setImage hsite, lookup_eraseP htag]
          exact (content_image himage hsite tag').symm
        | file name => rfl
      · exact content_setImage_ne hsite other
    · cases h
  | file name =>
    cases h
    exact ⟨rfl, rfl, fun other hne => content_setFile_ne hne⟩

theorem content_record {w : Vault β} {edit : Edit} :
    content { w with record := edit.write t w.record } s = w.content s := by
  cases s with
  | inside tag => simp only [content, site, write_backend]
  | file name => rfl

/-- The other listed snapshots have other slots. -/
theorem delete_inv (h : v.Inv) {name : String} {live : Bool}
    (hstep : v.delete t n name live = .ok v') : v'.Inv := by
  obtain ⟨_, hcheck, hstep⟩ := bind_ok hstep
  obtain ⟨snap, hfind, hstep⟩ := bind_ok hstep
  obtain ⟨w, hdiscard, hstep⟩ := bind_ok hstep
  cases hstep
  obtain ⟨hsnap, hname⟩ := find_ok hfind
  obtain ⟨hrecord, hcaptured, hothers⟩ := discard_same hdiscard
  have hsub : ((Edit.write t v.record (.deleteSnapshot name live)).snapshots).Sublist
      v.record.snapshots := deleted_sublist
  refine ⟨?_, ?_, fun old hold => ?_⟩
  · simp only [hrecord]
    exact Edit.write_distinct h.distinct hcheck
  · simp only [hrecord, slot_write]
    exact h.slots.sublist (hsub.map _)
  · simp only [hrecord, mem_deleted h.distinct] at hold
    obtain ⟨hlisted, hne⟩ := hold
    obtain ⟨c, hc, hfound⟩ := h.found old hlisted
    have hslot : slot v.record old ≠ slot v.record snap := by
      intro heq
      obtain rfl := List.inj_on_of_nodup_map h.slots hlisted hsnap heq
      exact hne hname
    refine ⟨c, by simpa only [hcaptured] using hc, ?_⟩
    rw [content_record, slot_write, hrecord, hothers _ hslot]
    exact hfound

theorem step_inv {a : VaultAction β} (h : v.Inv) (hok : v.Careful t a)
    (hstep : v.step t a = some v') : v'.Inv := by
  cases a with
  | write contents => exact write_inv h (toOption_some (x := v.write contents) hstep)
  | snapshot n name notes now live =>
    exact snapshot_inv h hok (toOption_some (x := v.snapshot t n _ _ live) hstep)
  | delete n name live => exact delete_inv h (toOption_some (x := v.delete t n name live) hstep)
  | restore n name => exact restore_inv h hok (toOption_some (x := v.restore n name) hstep)
  | backup n => exact backup_inv h (toOption_some (x := v.backup t n) hstep)
  | restoreBackup n i =>
    exact restoreBackup_inv h hok (toOption_some (x := v.restoreBackup t n i) hstep)
  | resize n size contents =>
    exact resize_inv h (toOption_some (x := v.resize t n size contents) hstep)
  | rename name => exact rename_inv h (toOption_some (x := v.rename t name) hstep)
  | migrate dest live => exact migrate_inv h hok (toOption_some (x := v.migrate dest live) hstep)
  | sync n dest => exact sync_inv h hok (toOption_some (x := v.sync n dest) hstep)

theorem find_listed (hd : Distinct v.record) (hsnap : snap ∈ v.record.snapshots) :
    v.find snap.name = .ok snap := by
  cases hfind : v.record.snapshots.find? (fun other => other.name == snap.name) with
  | none => exact absurd (List.find?_eq_none.mp hfind snap hsnap) (by simp)
  | some other =>
    have hname : other.name = snap.name := by simpa using List.find?_some hfind
    obtain rfl := List.inj_on_of_nodup_map hd (List.mem_of_find?_eq_some hfind) hsnap hname
    simp only [find, hfind]

theorem restored_of_content {c : β} (h : v.content s = some c) :
    ∃ image, v.restored v.home s = .ok image ∧ image.active = c := by
  cases s with
  | inside tag =>
    obtain ⟨image, himage, hlookup⟩ := Option.bind_eq_some_iff.mp h
    have hok : v.image v.home = .ok image := by simp only [Vault.image, himage]
    refine ⟨⟨c, if v.record.backend = .zfs then upTo tag image.saved else image.saved⟩, ?_, rfl⟩
    simp only [restored, hok, bind, Except.bind, hlookup]
    rfl
  | file name =>
    obtain ⟨image, hfile, rfl⟩ := Option.map_eq_some_iff.mp h
    exact ⟨image, by simp only [restored, hfile], rfl⟩

/-- A snapshot that is in its slot can be restored. -/
theorem Inv.restorable (h : v.Inv) (hsnap : snap ∈ v.record.snapshots) :
    ∃ c, v.captured snap.name = some c ∧
      ∃ after, v.restore v.home snap.name = .ok after ∧ after.active = some c := by
  obtain ⟨c, hc, hfound⟩ := h.found snap hsnap
  obtain ⟨image, hrestored, hactive⟩ := restored_of_content hfound
  refine ⟨c, hc, v.setImage v.home image, ?_, ?_⟩
  · simp only [restore, find_listed h.distinct hsnap, bind, Except.bind, hrestored]
    rfl
  · show (Function.update v.images (v.site v.home) (some image) (v.site v.home)).map _ = _
    rw [Function.update_self, Option.map_some, hactive]

section Decidable
variable [DecidableEq β] (v : Vault β) (image : Image β) (n : NodeId)

instance (s : Slot) : Decidable (v.HoldsSlot image s) := by
  unfold HoldsSlot
  split <;> infer_instance

instance : Decidable (v.Holds image) := by
  unfold Holds
  infer_instance

instance (s : Slot) : Decidable (v.HasFile n s) := by
  unfold HasFile
  split <;> infer_instance

instance (s : Slot) : Decidable (v.FreeSlot s) := by
  unfold FreeSlot
  split <;> infer_instance

instance (s : Slot) : Decidable (v.Last n s) := by
  unfold Last
  split <;> infer_instance

instance (a : VaultAction β) : Decidable (v.Careful t a) := by
  unfold Careful
  split <;> infer_instance

end Decidable

/-- A volume on the first node, with a disk that reads 1. -/
def plain (backend : StorageBackend) (format : VolumeFormat) : Vault Nat where
  record := { id := 7, name := "data", format := format, sizeBytes := 8, path := .disk 7 format
              replicas := [1], backend := backend }
  home := 1
  images := Function.update (fun _ => none) (some 1) (some ⟨1, []⟩)
  files _ _ := none
  backups := []
  captured _ := none

/-- Two snapshots of a zvol, and a rollback to the second. -/
def rolledBack : List (VaultAction Nat) :=
  [.snapshot 1 "a" none 0 false, .write 2, .snapshot 1 "b" none 0 true, .write 3, .restore 1 "b"]

/-- A rollback goes beyond a newer snapshot. -/
def beyond : List (VaultAction Nat) :=
  [.snapshot 1 "a" none 0 false, .snapshot 1 "b" none 0 false, .restore 1 "a"]

/-- A backup is put back over an image with a snapshot inside. -/
def putBack : List (VaultAction Nat) :=
  [.snapshot 1 "a" none 0 false, .backup 1, .restoreBackup 1 0]

/-- A guest moves whose disk has a snapshot in a file. -/
def moved : List (VaultAction Nat) := [.snapshot 1 "a" none 0 false, .migrate 2 true]

/-- A run that ends with a listed snapshot that cannot be restored. -/
theorem lost {start : Vault Nat} {as : List (VaultAction Nat)}
    (hrun : (as.foldlM (Vault.step Editing.bench) start).isSome)
    (hlost : ∃ snap ∈ (exec (Vault.step Editing.bench) start as).record.snapshots,
      ((exec (Vault.step Editing.bench) start as).restore
        (exec (Vault.step Editing.bench) start as).home snap.name).toOption.isNone) :
    ¬ ∀ v, Run (Steps (Vault.step Editing.bench)) start as v →
      ∀ snap ∈ v.record.snapshots, ∃ c, v.captured snap.name = some c ∧
        ∃ after, v.restore v.home snap.name = .ok after ∧ after.active = some c := by
  intro h
  obtain ⟨snap, hsnap, hnone⟩ := hlost
  obtain ⟨-, -, after, hafter, -⟩ := h _ (.of_exec hrun) snap hsnap
  rw [hafter] at hnone
  cases hnone

end Vault

end Pertisk.Volume
