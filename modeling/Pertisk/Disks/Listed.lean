import Pertisk.Disks.Shelf

namespace Pertisk.Disks
open Lib Storage Volume

namespace Shelf

variable {β : Type} {w : Shelf β} {p q : VolumePool β} {r : VolumeRecord} {snap : VolumeSnapshot}
  {id : VolumeId} {file : FileName} {s x : Spot} {y : Option (Image β)}

/-- A volume's image, or a path below its directory of snapshots. -/
def Own (p : VolumePool β) (id : VolumeId) (x : Spot) : Prop :=
  (∃ r, p.getVolume id = .ok r ∧ p.spot r = .ok x) ∨ ∃ file, x = .file file ∧ p.Below id file

/-- What is done at a place of one volume's own leaves the other volumes' snapshots alone. -/
theorem Kept.others (hk : w.Kept) (hid : id < 2 ^ 128) (hx : Own w.pool id x) {v : StoredVolume}
    (hv : v ∈ w.pool.volumes.rows) (hne : v.id ≠ id) (hsnap : snap ∈ v.record.snapshots) :
    (w.pool.set x y).held v.record snap = w.pool.held v.record snap := by
  rcases hx with ⟨r, hget, hspot⟩ | ⟨file, rfl, hbelow⟩
  · obtain ⟨u, hu, rfl, rfl⟩ := VolumePool.getVolume_ok hget
    refine VolumePool.held_set_ne (fun t ht => ?_) (fun file hslot => ?_)
    · rintro rfl
      exact hne (hk.apart v hv u hu t ht hspot)
    · exact VolumePool.spot_ne_below hspot (hk.below v hv snap hsnap file hslot)
  · refine VolumePool.held_set_ne (fun t ht => ?_) (fun other hslot => ?_)
    · exact (VolumePool.spot_ne_below ht hbelow).symm
    · intro heq
      rw [Spot.file.inj heq] at hslot
      exact hne (VolumePool.below_inj (hk.ids v hv) hid (hk.below v hv snap hsnap file hslot) hbelow)

theorem captured_old {name : String} (hq : (w.after q).pool.records id name = true)
    (h : w.pool.records id name = true) : (w.after q).captured id name = w.captured id name := by
  have hq : q.records id name = true := hq
  simp only [after, hq, h, if_true]

theorem captured_new {name : String} (hq : (w.after q).pool.records id name = true)
    (h : w.pool.records id name = false) :
    (w.after q).captured id name = w.pool.contents id := by
  have hq : q.records id name = true := hq
  simp [after, hq, h]

theorem Kept.same (hk : w.Kept) : (w.after w.pool).Kept where
  ids := hk.ids
  apart := hk.apart
  names := hk.names
  slots := hk.slots
  below := hk.below
  able := hk.able
  found v hv snap hsnap := by
    have hlisted := (VolumePool.records_iff (VolumePool.getVolume_of_mem hv)).mpr
      ⟨snap, hsnap, rfl⟩
    obtain ⟨contents, hcaptured, hheld⟩ := hk.found v hv snap hsnap
    exact ⟨contents, (captured_old hlisted hlisted).trans hcaptured, hheld⟩

/-- A snapshot that stays with what it holds, or a new one that holds what the volume reads as. -/
def Settled (w : Shelf β) (id : VolumeId) (r : VolumeRecord) (q : VolumePool β)
    (snap : VolumeSnapshot) : Prop :=
  snap ∈ r.snapshots ∧ q.held r snap = w.pool.held r snap ∨
    w.pool.records id snap.name = false ∧
      (∃ contents, w.pool.contents id = some contents ∧ q.held r snap = some contents) ∧
      (∀ file, w.pool.slot r snap = .file file → w.pool.Below id file) ∧
      (∃ s, w.pool.spot r = .ok s) ∧
      ∀ tag, w.pool.slot r snap = .inside tag → w.pool.tagTool r = .ok ()

/-- The record of a volume gets other snapshots, and one place of its own another image. -/
theorem Kept.changed (hk : w.Kept) (hget : w.pool.getVolume id = .ok r)
    {snaps : List VolumeSnapshot} (hx : Own w.pool id x)
    (hnames : (snaps.map VolumeSnapshot.name).Nodup)
    (hslots : ∀ a ∈ snaps, ∀ b ∈ snaps, w.pool.slot r a = w.pool.slot r b → a.name = b.name)
    (hsnaps : ∀ snap ∈ snaps, w.Settled id r (w.pool.set x y) snap) :
    (w.after (w.pool.changed r snaps (w.pool.set x y).images)).Kept := by
  obtain ⟨u, hu, hrecord, huid⟩ := VolumePool.getVolume_ok hget
  have huid : u.id = id := by
    rw [← huid, ← hrecord]
    rfl
  have hid : id < 2 ^ 128 := huid ▸ hk.ids u hu
  have hcases : ∀ v ∈ (w.pool.changed r snaps (w.pool.set x y).images).volumes.rows,
      v.id = id ∧ v.record = { r with snapshots := snaps } ∨ v ∈ w.pool.volumes.rows ∧ v.id ≠ id :=
    fun v hv => VolumePool.mem_changed hget hv
  constructor
  · intro v hv
    rcases hcases v hv with ⟨hvid, -⟩ | ⟨hv, -⟩
    · exact hvid ▸ hid
    · exact hk.ids v hv
  · intro v hv t ht s hvs hts
    rcases hcases v hv with ⟨hvid, hv⟩ | ⟨hv, -⟩
    · rw [hv] at hvs
      rcases hcases t ht with ⟨htid, -⟩ | ⟨hmem, -⟩
      · rw [hvid, htid]
      · rw [hvid, ← huid]
        exact hk.apart u hu t hmem s (hrecord ▸ hvs) hts
    · rcases hcases t ht with ⟨htid, ht⟩ | ⟨hmem, -⟩
      · rw [ht] at hts
        rw [htid, ← huid]
        exact hk.apart v hv u hu s hvs (hrecord ▸ hts)
      · exact hk.apart v hv t hmem s hvs hts
  · intro v hv
    rcases hcases v hv with ⟨-, hv⟩ | ⟨hv, -⟩
    · rw [hv]
      exact hnames
    · exact hk.names v hv
  · intro v hv
    rcases hcases v hv with ⟨-, hv⟩ | ⟨hv, -⟩
    · rw [hv]
      exact hslots
    · exact hk.slots v hv
  · intro v hv snap hsnap file hslot
    rcases hcases v hv with ⟨hvid, hv⟩ | ⟨hv, -⟩
    · rw [hv] at hsnap hslot
      rw [hvid]
      rcases hsnaps snap hsnap with ⟨hold, -⟩ | ⟨-, -, hbelow, -⟩
      · subst hrecord huid
        exact hk.below u hu snap hold file hslot
      · exact hbelow file hslot
    · exact hk.below v hv snap hsnap file hslot
  · intro v hv snap hsnap
    rcases hcases v hv with ⟨-, hv⟩ | ⟨hv, -⟩
    · rw [hv] at hsnap ⊢
      rcases hsnaps snap hsnap with ⟨hold, -⟩ | ⟨-, -, -, hable⟩
      · subst hrecord
        exact hk.able u hu snap hold
      · exact hable
    · exact hk.able v hv snap hsnap
  · intro v hv snap hsnap
    have hlisted := (VolumePool.records_iff (VolumePool.getVolume_of_mem hv)).mpr
      ⟨snap, hsnap, rfl⟩
    rcases hcases v hv with ⟨hvid, hv⟩ | ⟨hv, hne⟩
    · rw [hvid] at hlisted ⊢
      rw [hv] at hsnap ⊢
      rcases hsnaps snap hsnap with ⟨hold, hheld⟩ | ⟨hnew, ⟨contents, hcontents, hheld⟩, -⟩
      · have hthere := (VolumePool.records_iff hget).mpr ⟨snap, hold, rfl⟩
        have hold' := captured_old hlisted hthere
        subst hrecord huid
        obtain ⟨contents, hcaptured, hsame⟩ := hk.found u hu snap hold
        exact ⟨contents, hold'.trans hcaptured, hheld.trans hsame⟩
      · exact ⟨contents, (captured_new hlisted hnew).trans hcontents, hheld⟩
    · have hthere := (VolumePool.records_iff (VolumePool.getVolume_of_mem hv)).mpr
        ⟨snap, hsnap, rfl⟩
      obtain ⟨contents, hcaptured, hsame⟩ := hk.found v hv snap hsnap
      refine ⟨contents, ?_, (hk.others hid hx hv hne hsnap).trans hsame⟩
      exact (captured_old hlisted hthere).trans hcaptured

theorem Kept.listed (hk : w.Kept) (hget : w.pool.getVolume id = .ok r) :
    (r.snapshots.map VolumeSnapshot.name).Nodup ∧
      (∀ a ∈ r.snapshots, ∀ b ∈ r.snapshots, w.pool.slot r a = w.pool.slot r b → a.name = b.name) ∧
      (∀ snap ∈ r.snapshots, ∀ file, w.pool.slot r snap = .file file → w.pool.Below id file) ∧
      ∀ snap ∈ r.snapshots, ∃ contents, w.pool.held r snap = some contents := by
  obtain ⟨v, hv, rfl, rfl⟩ := VolumePool.getVolume_ok hget
  refine ⟨hk.names v hv, hk.slots v hv, hk.below v hv, fun snap hsnap => ?_⟩
  obtain ⟨contents, -, hheld⟩ := hk.found v hv snap hsnap
  exact ⟨contents, hheld⟩

/-- Only a place of the volume's own changes, and what is held for its snapshots does not. -/
theorem Kept.settled (hk : w.Kept) (hget : w.pool.getVolume id = .ok r) (hx : Own w.pool id x)
    (hheld : ∀ snap ∈ r.snapshots, (w.pool.set x y).held r snap = w.pool.held r snap) :
    (w.after (w.pool.set x y)).Kept := by
  obtain ⟨hnames, hslots, -⟩ := hk.listed hget
  have hkept := hk.changed hget (y := y) hx hnames hslots (fun snap hsnap => .inl ⟨hsnap, hheld snap hsnap⟩)
  rwa [VolumePool.changed_same hget] at hkept

theorem Kept.keeps (hk : w.Kept) (hget : w.pool.getVolume id = .ok r)
    (hspot : w.pool.spot r = .ok s) {image : Image β} (hkeeps : w.pool.Keeps r image) :
    (w.after (w.pool.set s (some image))).Kept := by
  refine hk.settled hget (.inl ⟨r, hget, hspot⟩) (fun snap hsnap => ?_)
  exact VolumePool.held_set hspot hkeeps hsnap ((hk.listed hget).2.2.1 snap hsnap)

theorem Kept.failed (hk : w.Kept) (hget : w.pool.getVolume id = .ok r)
    (hspot : w.pool.spot r = .ok s) {image : Image β} {luck : Luck β} {fault : Fault}
    (hleft : w.pool.LeavesKept r luck)
    (h : w.pool.write s image luck.command = (q, .error fault)) : (w.after q).Kept := by
  unfold VolumePool.write at h
  split at h
  · cases h
  · cases h
    exact hk.same
  · rename_i text left hcommand
    cases h
    exact hk.keeps hget hspot (hleft text left hcommand)

theorem write_kept (hk : w.Kept) (contents : β) : (w.after (writeData w.pool id contents)).Kept := by
  unfold writeData
  split
  · exact hk.same
  · rename_i r hget
    split
    · exact hk.same
    · rename_i s hspot
      cases himage : w.pool.images s with
      | none =>
        rw [Option.map_none, VolumePool.set_same himage]
        exact hk.same
      | some image =>
        refine hk.keeps hget hspot (fun snap hsnap tag hslot => ?_)
        unfold VolumePool.held
        rw [hslot, hspot]
        dsimp only
        rw [himage]
        rfl

theorem restore_kept (hk : w.Kept) {name : String} {luck : Luck β}
    (hcareful : w.Careful (.restore id name luck)) :
    (w.after (w.pool.restoreSnapshot luck id name).1).Kept := by
  unfold VolumePool.restoreSnapshot
  split
  · exact hk.same
  · rename_i r hget
    split
    · exact hk.same
    · exact hk.same
    · rename_i snap s hfind hspot
      split
      · exact hk.same
      · rename_i image himage
        have hname : snap.name = name := by simpa using List.find?_some hfind
        obtain ⟨hkeeps, hleft⟩ :=
          hcareful r s snap image hget hspot (List.mem_of_find?_eq_some hfind) hname himage
        split
        · rename_i hwrite
          exact hk.failed hget hspot hleft hwrite
        · rename_i hwrite
          obtain ⟨-, rfl⟩ := VolumePool.write_ok hwrite
          exact hk.keeps hget hspot hkeeps

theorem discard_failed {fault : Fault} {command : Option (String × Option (Image β))}
    (h : p.discard s r snap command = (q, .error fault)) :
    q = p ∨ ∃ text left, command = some (text, some left) ∧ q = p.set s (some left) := by
  unfold VolumePool.discard at h
  split at h
  · split at h
    · cases h
    · split at h
      · cases h
        exact .inl rfl
      · cases h
        exact .inl rfl
      · split at h
        · unfold VolumePool.write at h
          split at h
          · cases h
          · cases h
            exact .inl rfl
          · rename_i text left
            cases h
            exact .inr ⟨text, left, rfl, rfl⟩
        · cases h
          exact .inl rfl
  · split at h
    · cases h
      exact .inl rfl
    · cases h

/-- What is removed is the snapshot's place, or a raw file's tag that is nowhere. -/
theorem discard_ok {command : Option (String × Option (Image β))}
    (h : p.discard s r snap command = (q, .ok ())) :
    q = p ∨
      (∃ tag image, p.slot r snap = .inside tag ∧ p.images s = some image ∧
        q = p.set s (some
          { image with saved := image.saved.eraseP (fun entry => entry.1 == tag) })) ∨
      ∃ file, p.slot r snap = .file file ∧ q = p.set (.file file) none := by
  unfold VolumePool.discard at h
  split at h
  · rename_i tag hslot
    split at h
    · cases h
      exact .inl rfl
    · split at h
      · cases h
      · cases h
      · rename_i image _ himage
        split at h
        · obtain ⟨-, rfl⟩ := VolumePool.write_ok h
          exact .inr (.inl ⟨tag, image, hslot, VolumePool.image_ok himage, rfl⟩)
        · cases h
  · rename_i file hslot
    split at h
    · cases h
    · cases h
      exact .inr (.inr ⟨file, hslot, rfl⟩)

theorem held_inside {tag : String} {image : Image β} (hslot : p.slot r snap = .inside tag)
    (hspot : p.spot r = .ok s) (himage : p.images s = some image) :
    p.held r snap = image.saved.lookup tag := by
  unfold VolumePool.held
  rw [hslot, hspot]
  dsimp only
  rw [himage]
  rfl

/-- A listed snapshot does not lose what is held for it with another one's place. -/
theorem Kept.discarded (hk : w.Kept) (hget : w.pool.getVolume id = .ok r)
    (hspot : w.pool.spot r = .ok s) (hsnap : snap ∈ r.snapshots) {other : VolumeSnapshot}
    (hother : other ∈ r.snapshots) (hne : other.name ≠ snap.name)
    {command : Option (String × Option (Image β))}
    (h : w.pool.discard s r snap command = (q, .ok ())) :
    q.held r other = w.pool.held r other := by
  obtain ⟨-, hslots, hbelow, -⟩ := hk.listed hget
  rcases discard_ok h with rfl | ⟨tag, image, hslot, himage, rfl⟩ | ⟨file, hslot, rfl⟩
  · rfl
  · cases hslot' : w.pool.slot r other with
    | inside tag' =>
      have htag : tag' ≠ tag := by
        rintro rfl
        exact hne (hslots other hother snap hsnap (hslot'.trans hslot.symm))
      have hkept := VolumePool.set_images_self (p := w.pool) (x := s) (y := some
        { image with saved := image.saved.eraseP (fun entry => entry.1 == tag) })
      rw [held_inside hslot' hspot himage]
      refine (held_inside (p := w.pool.set s _) hslot' hspot hkept).trans ?_
      exact lookup_eraseP htag
    | file file =>
      unfold VolumePool.held
      rw [show (w.pool.set s _).slot r other = w.pool.slot r other from rfl, hslot']
      dsimp only
      rw [VolumePool.set_images_ne (VolumePool.spot_ne_below hspot (hbelow other hother file hslot'))]
  · refine VolumePool.held_set_ne (fun t ht => ?_) (fun file' hslot' => ?_)
    · exact (VolumePool.spot_ne_below ht (hbelow snap hsnap file hslot)).symm
    · intro heq
      rw [Spot.file.inj heq] at hslot'
      exact hne (hslots other hother snap hsnap (hslot'.trans hslot.symm))

theorem Kept.discard_own (hk : w.Kept) (hget : w.pool.getVolume id = .ok r)
    (hspot : w.pool.spot r = .ok s) (hsnap : snap ∈ r.snapshots)
    {command : Option (String × Option (Image β))}
    (h : w.pool.discard s r snap command = (q, .ok ())) :
    ∃ x y, Own w.pool id x ∧ q = w.pool.set x y := by
  rcases discard_ok h with rfl | ⟨tag, image, -, -, rfl⟩ | ⟨file, hslot, rfl⟩
  · exact ⟨s, _, .inl ⟨r, hget, hspot⟩, (VolumePool.set_same rfl).symm⟩
  · exact ⟨s, _, .inl ⟨r, hget, hspot⟩, rfl⟩
  · exact ⟨.file file, _, .inr ⟨file, rfl, (hk.listed hget).2.2.1 snap hsnap file hslot⟩, rfl⟩

theorem mem_eraseP_name {snaps : List VolumeSnapshot} {name : String} {snap : VolumeSnapshot}
    (hnodup : (snaps.map VolumeSnapshot.name).Nodup)
    (h : snap ∈ snaps.eraseP (fun snap => snap.name == name)) : snap.name ≠ name := by
  induction snaps with
  | nil => cases h
  | cons first snaps ih =>
    rw [List.map_cons, List.nodup_cons] at hnodup
    by_cases hfirst : first.name = name
    · rw [List.eraseP_cons_of_pos (by simpa using hfirst)] at h
      rintro rfl
      exact hnodup.1 (hfirst ▸ List.mem_map_of_mem h)
    · rw [List.eraseP_cons_of_neg (by simpa using hfirst)] at h
      rcases List.mem_cons.mp h with rfl | h
      · exact hfirst
      · exact ih hnodup.2 h

theorem delete_kept (hk : w.Kept) {name : String} {luck : Luck β}
    (hcareful : w.Careful (.delete id name luck)) :
    (w.after (w.pool.deleteSnapshot luck id name).1).Kept := by
  unfold VolumePool.deleteSnapshot
  split
  · exact hk.same
  · rename_i r hget
    dsimp only
    split
    · exact hk.same
    · exact hk.same
    · rename_i snap s hfind hspot
      have hsnap := List.mem_of_find?_eq_some hfind
      have hname : snap.name = trimmed name := by simpa using List.find?_some hfind
      split
      · rename_i hdiscard
        rcases discard_failed hdiscard with rfl | ⟨text, left, hcommand, rfl⟩
        · exact hk.same
        · exact hk.keeps hget hspot (hcareful r hget text left hcommand)
      · rename_i q hdiscard
        obtain ⟨hnames, hslots, hbelow, -⟩ := hk.listed hget
        have hsub : r.snapshots.eraseP (fun snap => snap.name == trimmed name) ⊆ r.snapshots :=
          List.eraseP_subset
        have hsettled : ∀ other ∈ r.snapshots.eraseP (fun snap => snap.name == trimmed name),
            w.Settled id r q other := by
          intro other hother
          have hne := mem_eraseP_name hnames hother
          rw [← hname] at hne
          exact .inl ⟨hsub hother, hk.discarded hget hspot hsnap (hsub hother) hne hdiscard⟩
        obtain ⟨x, y, hx, rfl⟩ := hk.discard_own hget hspot hsnap hdiscard
        have hkept := hk.changed hget hx (hnames.sublist (List.eraseP_sublist.map _))
          (fun a ha b hb => hslots a (hsub ha) b (hsub hb)) hsettled
        unfold Edit.write
        dsimp only
        rw [trimmed_trimmed, if_neg (by simp)]
        exact hkept

theorem capture_failed {image : Image β} {fault : Fault}
    {command : Option (String × Option (Image β))}
    (h : p.capture s r image snap command = (q, .error fault)) :
    q = p ∨ ∃ text left, command = some (text, some left) ∧
      ((∃ tag, p.slot r snap = .inside tag ∧ q = p.set s (some left)) ∨
        ∃ file, p.slot r snap = .file file ∧ q = p.set (.file file) (some left)) := by
  unfold VolumePool.capture at h
  split at h
  · rename_i tag hslot
    split at h
    · cases h
      exact .inl rfl
    · unfold VolumePool.write at h
      split at h
      · cases h
      · cases h
        exact .inl rfl
      · rename_i text left
        cases h
        exact .inr ⟨text, left, rfl, .inl ⟨tag, hslot, rfl⟩⟩
  · rename_i file hslot
    unfold VolumePool.write at h
    split at h
    · cases h
    · cases h
      exact .inl rfl
    · rename_i text left
      cases h
      exact .inr ⟨text, left, rfl, .inr ⟨file, hslot, rfl⟩⟩

theorem capture_ok {image : Image β} {command : Option (String × Option (Image β))}
    (h : p.capture s r image snap command = (q, .ok ())) :
    (∃ tag, p.slot r snap = .inside tag ∧
        (r.backend.external = true → image.saved.lookup tag = none) ∧
        q = p.set s (some { image with saved := image.saved ++ [(tag, image.active)] })) ∨
      ∃ file, p.slot r snap = .file file ∧ q = p.set (.file file) (some image) := by
  unfold VolumePool.capture at h
  split at h
  · rename_i tag hslot
    split at h
    · cases h
    · rename_i hfree
      obtain ⟨-, rfl⟩ := VolumePool.write_ok h
      refine .inl ⟨tag, hslot, fun hexternal => lookup_any ?_, rfl⟩
      rw [hexternal, Bool.true_and] at hfree
      exact Bool.eq_false_iff.mpr hfree
  · rename_i file hslot
    obtain ⟨-, rfl⟩ := VolumePool.write_ok h
    exact .inr ⟨file, hslot, rfl⟩

/-- A new snapshot inside the image, under a tag that it did not have. -/
theorem Kept.tagged (hk : w.Kept) (hget : w.pool.getVolume id = .ok r)
    (hspot : w.pool.spot r = .ok s) {image : Image β} (himage : w.pool.images s = some image)
    {tag : String} :
    w.pool.Keeps r { image with saved := image.saved ++ [(tag, image.active)] } := by
  intro other hother tag' hslot'
  obtain ⟨contents, hheld⟩ := (hk.listed hget).2.2.2 other hother
  rw [hheld]
  rw [held_inside hslot' hspot himage] at hheld
  exact lookup_append_ne hheld

/-- A place that no listed snapshot has. -/
theorem held_filed (hbelow : p.Below id file)
    (hfree : ∀ other ∈ r.snapshots, p.slot r other ≠ .file file) {other : VolumeSnapshot}
    (hother : other ∈ r.snapshots) :
    (p.set (.file file) y).held r other = p.held r other := by
  refine VolumePool.held_set_ne (fun t ht => ?_) (fun file' hslot' => ?_)
  · exact (VolumePool.spot_ne_below ht hbelow).symm
  · intro heq
    rw [Spot.file.inj heq] at hslot'
    exact hfree other hother hslot'

theorem tool_of_inside {now : Nat} {name tag : String} {notes : Option String}
    (hslot : p.slot r (Edit.entry p.tools r name notes now false) = .inside tag) :
    p.tagTool r = .ok () := by
  unfold VolumePool.tagTool
  split
  · rename_i hlocal
    obtain ⟨hbackend, hqemu⟩ := Bool.and_eq_true_iff.mp hlocal
    have hqemu : p.qemu = false := by simpa using hqemu
    unfold VolumePool.slot Edit.entry VolumePool.tools at hslot
    simp [beq_iff_eq.mp hbackend, StorageBackend.external, hqemu] at hslot
  · rfl

theorem contents_image {image : Image β} (hget : p.getVolume id = .ok r) (hspot : p.spot r = .ok s)
    (himage : p.images s = some image) : p.contents id = some image.active := by
  unfold VolumePool.contents
  rw [hget]
  dsimp only
  rw [hspot]
  dsimp only
  rw [himage]
  rfl

/-- A snapshot is put into the record whose place was free and now holds what the volume reads
as. -/
theorem Kept.taken (hk : w.Kept) (hget : w.pool.getVolume id = .ok r)
    (hspot : w.pool.spot r = .ok s) {image : Image β} (himage : w.pool.images s = some image)
    {now : Nat} {name : String} {notes : Option String}
    (hcheck : (Edit.snapshot name notes now false).check r = .ok ()) (hx : Own w.pool id x)
    (hfree : ∀ other ∈ r.snapshots, w.pool.slot r other ≠
      w.pool.slot r (Edit.entry w.pool.tools r name notes now false))
    (hbelow : ∀ file, w.pool.slot r (Edit.entry w.pool.tools r name notes now false) =
      .file file → w.pool.Below id file)
    (hnew : (w.pool.set x y).held r (Edit.entry w.pool.tools r name notes now false) =
      some image.active)
    (hold : ∀ other ∈ r.snapshots, (w.pool.set x y).held r other = w.pool.held r other) :
    (w.after (w.pool.changed r (r.snapshots ++ [Edit.entry w.pool.tools r name notes now false])
      (w.pool.set x y).images)).Kept := by
  obtain ⟨hnames, hslots, -⟩ := hk.listed hget
  have hname := Edit.check_snapshot hcheck
  refine hk.changed hget hx (Edit.write_distinct (t := w.pool.tools) hnames hcheck) ?_ ?_
  · intro a ha b hb heq
    rcases List.mem_append.mp ha with ha | ha <;> rcases List.mem_append.mp hb with hb | hb
    · exact hslots a ha b hb heq
    · rw [List.mem_singleton.mp hb] at heq
      exact absurd heq (hfree a ha)
    · rw [List.mem_singleton.mp ha] at heq
      exact absurd heq.symm (hfree b hb)
    · rw [List.mem_singleton.mp ha, List.mem_singleton.mp hb]
  · intro other hother
    rcases List.mem_append.mp hother with hother | hother
    · exact .inl ⟨hother, hold other hother⟩
    · rw [List.mem_singleton.mp hother]
      have hunlisted : w.pool.records id (trimmed name) = false := by
        unfold VolumePool.records
        rw [hget]
        exact hname
      exact .inr ⟨hunlisted, ⟨image.active, contents_image hget hspot himage, hnew⟩, hbelow,
        ⟨s, hspot⟩, fun tag hslot => tool_of_inside hslot⟩

theorem snapshot_kept (hk : w.Kept) {now : Nat} {name : String} {notes : Option String}
    {luck : Luck β} (hcareful : w.Careful (.snapshot now id name notes luck)) :
    (w.after (w.pool.snapshot luck now id name notes).1).Kept := by
  unfold VolumePool.snapshot
  split
  · exact hk.same
  · split
    · exact hk.same
    · rename_i r hget
      dsimp only
      split
      · exact hk.same
      · exact hk.same
      · rename_i s hcheck hspot
        split
        · exact hk.same
        · rename_i image himage
          have himage' := VolumePool.image_ok himage
          have hplace := hcareful r s image hget hspot himage
          have hid : r.id = id := (VolumePool.getVolume_ok hget).choose_spec.2.2
          split
          · rename_i hcapture
            rcases capture_failed hcapture with rfl | ⟨text, left, hcommand, hleft⟩
            · exact hk.same
            · rcases hleft with ⟨tag, hslot, rfl⟩ | ⟨file, hslot, rfl⟩
              · rw [hslot] at hplace
                exact hk.keeps hget hspot (hplace.2 text left hcommand)
              · rw [hslot] at hplace
                obtain ⟨hbelow, hfree⟩ := hplace
                rw [hid] at hbelow
                exact hk.settled hget (.inr ⟨file, rfl, hbelow⟩)
                  (fun other hother => held_filed hbelow hfree hother)
          · rename_i q hcapture
            rcases capture_ok hcapture with ⟨tag, hslot, hexternal, rfl⟩ | ⟨file, hslot, rfl⟩
            · rw [hslot] at hplace
              have hnone : image.saved.lookup tag = none := by
                cases hbackend : r.backend with
                | replica => exact hplace.1 hbackend
                | rbd | zfs => exact hexternal (by rw [hbackend]; rfl)
              refine hk.taken hget hspot himage' hcheck (.inl ⟨r, hget, hspot⟩) ?_ ?_ ?_ ?_
              · intro other hother heq
                obtain ⟨contents, hheld⟩ := (hk.listed hget).2.2.2 other hother
                rw [held_inside (heq.trans hslot) hspot himage', hnone] at hheld
                cases hheld
              · intro file hfile
                cases hslot.symm.trans hfile
              · have hkept := VolumePool.set_images_self (p := w.pool) (x := s) (y := some
                  { image with saved := image.saved ++ [(tag, image.active)] })
                refine (held_inside (p := w.pool.set s _) hslot hspot hkept).trans ?_
                exact lookup_append_new hnone
              · intro other hother
                exact VolumePool.held_set hspot (hk.tagged hget hspot himage') hother
                  ((hk.listed hget).2.2.1 other hother)
            · rw [hslot] at hplace
              obtain ⟨hbelow, hfree⟩ := hplace
              rw [hid] at hbelow
              refine hk.taken hget hspot himage' hcheck (.inr ⟨file, rfl, hbelow⟩) ?_ ?_ ?_ ?_
              · intro other hother heq
                exact hfree other hother (heq.trans hslot)
              · intro other hother
                cases hslot.symm.trans hother
                exact hbelow
              · unfold VolumePool.held
                rw [show (w.pool.set (.file file) (some image)).slot r _ = .file file from hslot]
                dsimp only
                rw [VolumePool.set_images_self]
                rfl
              · intro other hother
                exact held_filed hbelow hfree hother

theorem step_kept {u : Shelf β} {a : SnapAction β} (hk : w.Kept) (hcareful : w.Careful a)
    (h : step w a = some u) : u.Kept := by
  cases h
  cases a with
  | write id contents => exact write_kept hk contents
  | snapshot now id name notes luck => exact snapshot_kept hk hcareful
  | delete id name luck => exact delete_kept hk hcareful
  | restore id name luck => exact restore_kept hk hcareful

end Shelf

end Pertisk.Disks
