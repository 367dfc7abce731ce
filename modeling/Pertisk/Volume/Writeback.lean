import Pertisk.Volume.Edits

namespace Pertisk.Volume
open Lib

variable {t : Tools} {edit : Edit} {c : Change} {copy record : VolumeRecord} {name : String}
  {notes : Option String} {snap : VolumeSnapshot} {snaps : List VolumeSnapshot}

/-- No two snapshots of a record have one name. -/
def Distinct (r : VolumeRecord) : Prop := (r.snapshots.map VolumeSnapshot.name).Nodup

theorem Change.Shows.agree (h : c.Shows record) (hag : Agree copy record) : c.Shows copy := by
  obtain ⟨hname, hnotes, hsize, hin, hout⟩ := hag
  cases c with
  | snapshot snap =>
    obtain ⟨s, hs, heq⟩ := h
    exact ⟨s, hout s hs, heq⟩
  | noSnapshot name => exact fun s hs => h s (hin s hs)
  | snapshotNotes name notes =>
    obtain ⟨s, hs, heq⟩ := h
    exact ⟨s, hout s hs, heq⟩
  | size n => exact hsize.trans h
  | named n => exact hname.trans h
  | noted n => exact hnotes.trans h

theorem hasSnapshot_iff : copy.hasSnapshot name = true ↔ ∃ s ∈ copy.snapshots, s.name = name := by
  simp [VolumeRecord.hasSnapshot]

theorem noteSnapshot_names :
    (noteSnapshot name notes snaps).map VolumeSnapshot.name = snaps.map VolumeSnapshot.name := by
  induction snaps with
  | nil => rfl
  | cons s snaps ih =>
    unfold noteSnapshot
    split
    · rfl
    · simp [ih]

/-- A snapshot is still listed, with its own note or, if it has the name, with the new one. -/
theorem mem_noteSnapshot (notes : Option String) (h : snap ∈ snaps) :
    snap ∈ noteSnapshot name notes snaps ∨
      (snap.name = name ∧ { snap with notes := notes } ∈ noteSnapshot name notes snaps) := by
  induction snaps with
  | nil => cases h
  | cons s snaps ih =>
    unfold noteSnapshot
    rcases List.mem_cons.mp h with rfl | h
    · split
      · rename_i hname
        exact .inr ⟨hname, List.mem_cons_self⟩
      · exact .inl List.mem_cons_self
    · split
      · exact .inl (List.mem_cons_of_mem _ h)
      · rcases ih h with hin | ⟨hname, hin⟩
        · exact .inl (List.mem_cons_of_mem _ hin)
        · exact .inr ⟨hname, List.mem_cons_of_mem _ hin⟩

theorem noteSnapshot_noted (h : ∃ s ∈ snaps, s.name = name) :
    ∃ s ∈ noteSnapshot name notes snaps, s.name = name ∧ s.notes = notes := by
  induction snaps with
  | nil =>
    obtain ⟨s, hs, -⟩ := h
    cases hs
  | cons s snaps ih =>
    unfold noteSnapshot
    split
    · rename_i hname
      exact ⟨_, List.mem_cons_self, hname, rfl⟩
    · rename_i hne
      obtain ⟨u, hu, hname⟩ := h
      rcases List.mem_cons.mp hu with rfl | hu
      · exact absurd hname hne
      · obtain ⟨v, hv, hboth⟩ := ih ⟨u, hu, hname⟩
        exact ⟨v, List.mem_cons_of_mem _ hv, hboth⟩

theorem not_mem_eraseP (h : (snaps.map VolumeSnapshot.name).Nodup)
    (hs : snap ∈ snaps.eraseP (fun s => s.name == name)) : snap.name ≠ name := by
  induction snaps with
  | nil => cases hs
  | cons s snaps ih =>
    obtain ⟨hnot, hnd⟩ := List.nodup_cons.mp h
    by_cases hname : s.name = name
    · rw [List.eraseP_cons_of_pos (by simpa using hname)] at hs
      intro heq
      exact hnot (hname ▸ heq ▸ List.mem_map_of_mem hs)
    · rw [List.eraseP_cons_of_neg (by simpa using hname)] at hs
      rcases List.mem_cons.mp hs with rfl | hs
      · exact hname
      · exact ih hnd hs

/-- What deleting a snapshot leaves is the snapshots of other names. -/
theorem mem_deleted (hd : Distinct copy) {live : Bool} :
    snap ∈ (Edit.write t copy (.deleteSnapshot name live)).snapshots ↔
      snap ∈ copy.snapshots ∧ snap.name ≠ trimmed name := by
  cases live with
  | true => simp [Edit.write]
  | false =>
    simp only [Edit.write, Bool.false_eq_true, if_false]
    constructor
    · intro h
      exact ⟨List.mem_of_mem_eraseP h, not_mem_eraseP hd h⟩
    · rintro ⟨h, hne⟩
      exact (List.mem_eraseP_of_neg (by simpa using hne)).mpr h

/-- Where the rest of the copy is that of the record, each snapshot of the record is in the copy,
but for its note if it has the name. -/
theorem rest_noted {a b : VolumeRecord} {new : String}
    (h : ∀ s ∈ (Edit.rest a (.setSnapshotNotes name new)).snapshots,
      s ∈ (Edit.rest b (.setSnapshotNotes name new)).snapshots) (hs : snap ∈ a.snapshots) :
    ∃ s ∈ b.snapshots, s.name = snap.name ∧ s.createdUnix = snap.createdUnix ∧
      s.path = snap.path ∧ (snap.name ≠ trimmed name → s = snap) := by
  obtain ⟨s, hin, heq⟩ := List.mem_map.mp (h _ (List.mem_map_of_mem hs))
  have hname := congrArg VolumeSnapshot.name heq
  simp only [apply_ite VolumeSnapshot.name, ite_self] at hname
  by_cases hnoted : snap.name = trimmed name
  · rw [if_pos (hname.trans hnoted), if_pos hnoted, VolumeSnapshot.mk.injEq] at heq
    exact ⟨s, hin, hname, heq.2.1, heq.2.2.2, fun hne => absurd hnoted hne⟩
  · rw [if_neg (fun h => hnoted (hname.symm.trans h)), if_neg hnoted] at heq
    subst heq
    exact ⟨s, hin, rfl, rfl, rfl, fun _ => rfl⟩

theorem Agree.joined {id : NodeId} (h : Agree copy record) : Agree (joined id copy) record := by
  unfold Volume.joined
  split
  · exact h
  · exact h

section Keeps
variable (hag : Agree (edit.rest copy) (edit.rest record)) (hshows : c.Shows record)
  (hnot : ∀ x ∈ edit.changes t copy, ¬ x.Replaces c)

include hag hshows hnot

theorem snapshot_keeps {now : Nat} {live : Bool} (h : edit = .snapshot name notes now live) :
    c.Shows (edit.write t copy) := by
  subst h
  have hcopy : c.Shows copy := hshows.agree hag
  cases c with
  | snapshot snap =>
    obtain ⟨s, hs, heq⟩ := hcopy
    exact ⟨s, List.mem_append_left _ hs, heq⟩
  | noSnapshot other =>
    intro s hs
    rcases List.mem_append.mp hs with hs | hs
    · exact hcopy s hs
    · obtain rfl := List.mem_singleton.mp hs
      exact hnot _ List.mem_cons_self
  | snapshotNotes other _ =>
    obtain ⟨s, hs, heq⟩ := hcopy
    exact ⟨s, List.mem_append_left _ hs, heq⟩
  | size _ => exact hcopy
  | named _ => exact hcopy
  | noted _ => exact hcopy

theorem setSnapshotNotes_keeps {new : String} (h : edit = .setSnapshotNotes name new) :
    c.Shows (edit.write t copy) := by
  subst h
  obtain ⟨hname, hnotes, hsize, hin, hout⟩ := hag
  cases c with
  | snapshot snap =>
    obtain ⟨s, hs, hsname, hsnow, hspath⟩ := hshows
    obtain ⟨u, hu, huname, hunow, hupath, -⟩ := rest_noted hout hs
    rcases mem_noteSnapshot (cleaned (some new)) hu with hmem | ⟨-, hmem⟩
    · exact ⟨_, hmem, huname.trans hsname, hunow.trans hsnow, hupath.trans hspath⟩
    · exact ⟨_, hmem, huname.trans hsname, hunow.trans hsnow, hupath.trans hspath⟩
  | noSnapshot other =>
    intro s hs heq
    have hnames := List.mem_map_of_mem (f := VolumeSnapshot.name) hs
    simp only [Edit.write, noteSnapshot_names] at hnames
    obtain ⟨u, hu, huname⟩ := List.mem_map.mp hnames
    obtain ⟨v, hv, hvname, -⟩ := rest_noted hin hu
    exact hshows v hv ((hvname.trans huname).trans heq)
  | snapshotNotes other n =>
    obtain ⟨s, hs, hsname, hsnotes⟩ := hshows
    have hne : s.name ≠ trimmed name := fun heq =>
      hnot _ List.mem_cons_self (heq.symm.trans hsname)
    obtain ⟨u, hu, -, -, -, hsame⟩ := rest_noted hout hs
    obtain rfl := hsame hne
    rcases mem_noteSnapshot (cleaned (some new)) hu with hmem | ⟨heq, -⟩
    · exact ⟨u, hmem, hsname, hsnotes⟩
    · exact absurd heq hne
  | size _ => exact hsize.trans hshows
  | named _ => exact hname.trans hshows
  | noted _ => exact hnotes.trans hshows

theorem deleteSnapshot_keeps {live : Bool} (hd : Distinct copy)
    (h : edit = .deleteSnapshot name live) : c.Shows (edit.write t copy) := by
  subst h
  obtain ⟨hname, hnotes, hsize, hin, hout⟩ := hag
  have hkept : ∀ s ∈ record.snapshots, s.name ≠ trimmed name →
      s ∈ (Edit.write t copy (.deleteSnapshot name live)).snapshots := by
    intro s hs hne
    have hrest := hout s (List.mem_filter.mpr ⟨hs, by simpa using hne⟩)
    exact (mem_deleted hd).mpr ⟨(List.mem_filter.mp hrest).1, hne⟩
  cases c with
  | snapshot snap =>
    obtain ⟨s, hs, hsname, heq⟩ := hshows
    have hne : s.name ≠ trimmed name := fun h =>
      hnot _ List.mem_cons_self (hsname.symm.trans h)
    exact ⟨s, hkept s hs hne, hsname, heq⟩
  | noSnapshot other =>
    intro s hs
    obtain ⟨hcopy, hne⟩ := (mem_deleted hd).mp hs
    have hrest := hin s (List.mem_filter.mpr ⟨hcopy, by simpa using hne⟩)
    exact hshows s (List.mem_filter.mp hrest).1
  | snapshotNotes other n =>
    obtain ⟨s, hs, hsname, heq⟩ := hshows
    have hne : s.name ≠ trimmed name := fun h =>
      hnot _ List.mem_cons_self (hsname.symm.trans h)
    exact ⟨s, hkept s hs hne, hsname, heq⟩
  | size _ => exact hsize.trans hshows
  | named _ => exact hname.trans hshows
  | noted _ => exact hnotes.trans hshows

theorem writeBlob_keeps {len : Nat} (h : edit = .writeBlob len) :
    c.Shows (edit.write t copy) := by
  subst h
  obtain ⟨hname, hnotes, hsize, hin, hout⟩ := hag
  have hsize : max copy.sizeBytes len = max record.sizeBytes len := hsize
  have hnew : c.Shows { record with sizeBytes := max record.sizeBytes len } := by
    cases c with
    | size n =>
      have hn : record.sizeBytes = n := hshows
      show max record.sizeBytes len = n
      by_cases hle : copy.sizeBytes ≤ len
      · exact absurd trivial (hnot (.size len) (by simp [Edit.changes, hle]))
      · omega
    | _ => exact hshows
  exact hnew.agree ⟨hname, hnotes, hsize, hin, hout⟩

/-- A change that shows in the record still shows in what an edit of the copy puts back, when the
copy was as good as the record and the edit does not replace the change. -/
theorem Edit.keeps (hd : Distinct copy) : c.Shows (edit.write t copy) := by
  cases h : edit with
  | snapshot name notes now live => exact h ▸ snapshot_keeps hag hshows hnot h
  | setSnapshotNotes name notes => exact h ▸ setSnapshotNotes_keeps hag hshows hnot h
  | deleteSnapshot name live => exact h ▸ deleteSnapshot_keeps hag hshows hnot hd h
  | writeBlob len => exact h ▸ writeBlob_keeps hag hshows hnot h
  | resize n =>
    subst h
    have hnew : c.Shows { record with sizeBytes := n } := by
      cases c with
      | size m => exact absurd trivial (hnot _ List.mem_cons_self)
      | _ => exact hshows
    exact hnew.agree ⟨hag.1, hag.2.1, rfl, hag.2.2.2⟩
  | rename name =>
    subst h
    have hnew : c.Shows { record with name := trimmed name } := by
      cases c with
      | named m => exact absurd trivial (hnot _ List.mem_cons_self)
      | _ => exact hshows
    exact hnew.agree ⟨rfl, hag.2⟩
  | setNotes notes =>
    subst h
    have hnew : c.Shows { record with notes := cleaned (some notes) } := by
      cases c with
      | noted m => exact absurd trivial (hnot _ List.mem_cons_self)
      | _ => exact hshows
    exact hnew.agree ⟨hag.1, rfl, hag.2.2⟩
  | rebuild online =>
    subst h
    exact hshows.agree hag
  | ensureLocal =>
    subst h
    exact hshows.agree hag
  | ensureOn dest =>
    subst h
    exact hshows.agree hag.joined
  | pullMissing =>
    subst h
    exact hshows.agree hag.joined

end Keeps

theorem Edit.check_snapshot {now : Nat} {live : Bool}
    (h : Edit.check copy (.snapshot name notes now live) = .ok ()) :
    copy.hasSnapshot (trimmed name) = false := by
  cases hhas : copy.hasSnapshot (trimmed name) with
  | false => rfl
  | true =>
    simp only [check, hhas, if_true] at h
    split at h <;> cases h

theorem Edit.check_setSnapshotNotes {new : String}
    (h : Edit.check copy (.setSnapshotNotes name new) = .ok ()) :
    copy.hasSnapshot (trimmed name) = true := by
  cases hhas : copy.hasSnapshot (trimmed name) with
  | true => rfl
  | false =>
    simp only [check, hhas, Bool.not_false, if_true] at h
    split at h <;> cases h

/-- The changes of an edit that passed its check show in what it puts back. -/
theorem Edit.makes (hd : Distinct copy) (hcheck : edit.check copy = .ok ()) :
    Kept Change.Replaces (fun c r => Change.Shows r c) (edit.changes t copy)
      (edit.write t copy) := by
  cases edit with
  | snapshot name notes now live =>
    have hlast : entry t copy name notes now live ∈
        (Edit.write t copy (.snapshot name notes now live)).snapshots :=
      List.mem_append_right _ List.mem_cons_self
    exact (Kept.one ⟨_, hlast, rfl, rfl, rfl⟩).append (r := Edit.write t copy _)
      (fun _ h _ => h) (.one ⟨_, hlast, rfl, rfl⟩)
  | setSnapshotNotes name notes =>
    exact .one (noteSnapshot_noted (hasSnapshot_iff.mp (check_setSnapshotNotes hcheck)))
  | deleteSnapshot name live => exact .one (fun s hs => ((mem_deleted hd).mp hs).2)
  | writeBlob len =>
    simp only [changes]
    split
    · rename_i hle
      exact .one (max_eq_right hle)
    · exact .nil
  | resize _ => exact .one rfl
  | rename _ => exact .one rfl
  | setNotes _ => exact .one rfl
  | _ => exact .nil

theorem Distinct.of_sublist (hd : Distinct copy)
    (h : (record.snapshots).Sublist copy.snapshots) : Distinct record :=
  hd.sublist (h.map _)

theorem Distinct.joined {id : NodeId} (hd : Distinct copy) : Distinct (joined id copy) := by
  unfold Volume.joined
  split
  · exact hd
  · exact hd

theorem Edit.write_distinct (hd : Distinct copy) (hcheck : edit.check copy = .ok ()) :
    Distinct (edit.write t copy) := by
  cases edit with
  | snapshot name notes now live =>
    have hnew : ∀ s ∈ copy.snapshots, s.name ≠ trimmed name := by
      intro s hs heq
      have hhas := hasSnapshot_iff.mpr ⟨s, hs, heq⟩
      rw [check_snapshot hcheck] at hhas
      cases hhas
    have hnames : ((copy.snapshots ++ [entry t copy name notes now live]).map
        VolumeSnapshot.name).Nodup := by
      rw [List.map_append, List.map_singleton]
      refine List.nodup_append.mpr ⟨hd, by simp, ?_⟩
      intro other hin added hadded
      obtain ⟨s, hs, rfl⟩ := List.mem_map.mp hin
      obtain rfl := List.mem_singleton.mp hadded
      exact hnew s hs
    exact hnames
  | setSnapshotNotes name notes =>
    unfold Distinct at hd ⊢
    simpa only [write, noteSnapshot_names] using hd
  | deleteSnapshot name live =>
    refine hd.of_sublist ?_
    cases live with
    | true => exact List.filter_sublist
    | false => exact List.eraseP_sublist
  | ensureOn dest => exact hd.joined
  | pullMissing => exact hd.joined
  | _ => exact hd

@[simp] theorem joined_id {id : NodeId} : (joined id copy).id = copy.id := by
  unfold joined
  split <;> rfl

@[simp] theorem Edit.write_id : (edit.write t copy).id = copy.id := by
  cases edit <;> first | rfl | exact joined_id

namespace Editing

variable {w : Editing} {id : VolumeId}

/-- The records have snapshots of distinct names and nobody is at work on them. -/
structure Start (w : Editing) : Prop where
  jobs : w.jobs = []
  deleting : w.deleting = []
  distinct : ∀ id, ∀ record ∈ w.node.getVolume id, Distinct record
  done : ∀ id, w.done id = []
  removed : ∀ id, w.removed id = false

/-- What was done to the volume shows in its record, unless that was removed for good. -/
def Intact (w : Editing) (id : VolumeId) : Prop :=
  if w.removed id then w.node.getVolume id = none
  else w.done id = [] ∨
    ∃ record ∈ w.node.getVolume id,
      Kept Change.Replaces (fun c r => Change.Shows r c) (w.done id) record

structure Inv (w : Editing) : Prop where
  copies : ∀ job ∈ w.jobs, Distinct job.copy
  distinct : ∀ id, ∀ record ∈ w.node.getVolume id, Distinct record
  intact : ∀ id, w.Intact id

theorem Start.inv (h : w.Start) : w.Inv where
  copies := by simp [h.jobs]
  distinct := h.distinct
  intact id := by simp [Intact, h.removed id, h.done id]

/-- A change of the node that leaves the volumes as they are. -/
theorem Inv.guests {node : Node} (h : w.Inv) (hvol : ∀ id, node.getVolume id = w.node.getVolume id) :
    Inv { w with node := node } where
  copies := h.copies
  distinct id := by
    simp only [hvol]
    exact h.distinct id
  intact id := by
    have hid := h.intact id
    unfold Intact at hid ⊢
    simpa only [hvol] using hid

theorem Inv.jobs {jobs : List Job} (h : w.Inv) (hjobs : ∀ job ∈ jobs, Distinct job.copy) :
    Inv { w with jobs := jobs } :=
  ⟨hjobs, h.distinct, h.intact⟩

theorem Inv.begin (h : w.Inv) (edit : Edit) (id : VolumeId) (now : Nat) :
    (w.begin t edit id now).Inv := by
  unfold Editing.begin
  split
  · exact h
  · rename_i copy hcopy
    split
    · exact h
    · split
      · exact h
      · split
        · exact h
        · refine h.jobs (fun job hjob => ?_)
          rcases List.mem_append.mp hjob with hjob | hjob
          · exact h.copies job hjob
          · obtain rfl := List.mem_singleton.mp hjob
            exact h.distinct id copy hcopy

theorem agree_localize (r : VolumeRecord) : Agree r.localize r := by
  have hrefl : Agree r r := ⟨rfl, rfl, rfl, fun _ h => h, fun _ h => h⟩
  unfold VolumeRecord.localize
  split
  · exact hrefl
  · exact hrefl

theorem Distinct.localize (hd : Distinct copy) : Distinct copy.localize := by
  unfold VolumeRecord.localize
  split
  · exact hd
  · exact hd

@[simp] theorem getVolume_repath (n : Node) (record : VolumeRecord) (id : VolumeId) :
    (n.repath record).getVolume id = n.getVolume id := rfl

theorem finish_getVolume (w : Editing) (i : Nat) (job : Job) (id : VolumeId) :
    (w.finish t i job).node.getVolume id =
      if job.copy.id = id then some (job.edit.write t job.copy).localize
      else w.node.getVolume id := by
  have hput := w.node.getVolume_putRecord (job.edit.write t job.copy) id
  rw [Edit.write_id] at hput
  rw [← hput]
  simp only [finish]
  split <;> split <;> first | rfl | (split <;> rfl)

theorem finish_done (w : Editing) (i : Nat) (job : Job) (id : VolumeId) :
    (w.finish t i job).done id =
      if id = job.copy.id then w.done id ++ job.edit.changes t job.copy else w.done id := by
  simp only [finish, Edit.write_id, Function.update_apply]
  split
  · rename_i h
    rw [h]
  · rfl

theorem followUp_copies {job next : Job} (hd : Distinct job.copy) (h : next ∈ followUp t job) :
    Distinct next.copy := by
  unfold followUp at h
  split at h
  · obtain rfl := List.mem_singleton.mp h
    exact Edit.write_distinct hd job.checked
  · cases h

/-- A record is put back while the copy of it is current. -/
theorem Inv.finish {i : Nat} {job : Job} (h : w.Inv) (hjob : w.jobs[i]? = some job)
    (hcurrent : job.Current w.node) : (w.finish t i job).Inv := by
  have hd : Distinct job.copy := h.copies job (List.mem_of_getElem? hjob)
  have hwrite : Distinct (job.edit.write t job.copy) := Edit.write_distinct hd job.checked
  refine ⟨fun next hnext => ?_, fun id record hrecord => ?_, fun id => ?_⟩
  · rcases List.mem_append.mp hnext with hold | hnew
    · exact h.copies next (List.mem_of_mem_eraseIdx hold)
    · exact followUp_copies hd hnew
  · rw [finish_getVolume] at hrecord
    split at hrecord
    · obtain rfl := Option.mem_some.mp hrecord
      exact Distinct.localize hwrite
    · exact h.distinct id record hrecord
  · have hid := h.intact id
    unfold Intact at hid ⊢
    rw [finish_getVolume, finish_done]
    by_cases hsame : job.copy.id = id
    · obtain ⟨record, hrecord, hagree⟩ := hcurrent
      subst hsame
      rw [Option.mem_def] at hrecord
      have hthere : w.removed job.copy.id = false := by
        cases hr : w.removed job.copy.id with
        | false => rfl
        | true =>
          rw [if_pos hr, hrecord] at hid
          cases hid
      have hkept : Kept Change.Replaces (fun c r => Change.Shows r c) (w.done job.copy.id)
          record := by
        rw [if_neg (by simp [hthere]), hrecord] at hid
        rcases hid with hnil | ⟨_, hmem, hkept⟩
        · rw [hnil]
          exact .nil
        · obtain rfl := Option.mem_some.mp hmem
          exact hkept
      rw [if_neg (by simpa [Editing.finish] using hthere), if_pos rfl, if_pos rfl]
      refine .inr ⟨_, rfl, ?_⟩
      have hmakes := Edit.makes (t := t) hd job.checked
      refine hkept.append (fun c hshows hnot => ?_) ?_
      · exact (Edit.keeps hagree hshows hnot hd).agree (agree_localize _)
      · intro before c after heq hafter
        exact (hmakes before c after heq hafter).agree (agree_localize _)
    · rw [if_neg hsame, if_neg (Ne.symm hsame)]
      exact hid

theorem Inv.remove (h : w.Inv) (id : VolumeId) : (w.remove id).Inv := by
  unfold Editing.remove
  dsimp only
  split
  · exact ⟨h.copies, h.distinct, h.intact⟩
  · refine ⟨h.copies, fun j record hrecord => ?_, fun j => ?_⟩
    · rw [Node.getVolume_bump, Node.getVolume_removeVolume] at hrecord
      split at hrecord
      · cases hrecord
      · exact h.distinct j record hrecord
    · have hj := h.intact j
      unfold Intact at hj ⊢
      simp only [Node.getVolume_bump, Node.getVolume_removeVolume, Function.update_apply]
      by_cases hsame : j = id
      · simp [hsame]
      · simpa [hsame] using hj

theorem Inv.step {a : EditAction} {w' : Editing} (h : w.Inv) (hok : w.Timely a)
    (hstep : w.step t a = some w') : w'.Inv := by
  cases a with
  | begin edit id now =>
    cases hstep
    exact h.begin edit id now
  | finish i =>
    obtain ⟨job, hjob, rfl⟩ := Option.map_eq_some_iff.mp hstep
    exact h.finish hjob (hok job hjob)
  | fail i =>
    simp only [Editing.step, Option.ite_none_right_eq_some, Option.some.injEq] at hstep
    obtain ⟨-, rfl⟩ := hstep
    exact h.jobs (fun job hjob => h.copies job (List.mem_of_mem_eraseIdx hjob))
  | delete id =>
    cases hstep
    unfold Editing.delete
    split
    · exact h
    · exact ⟨h.copies, h.distinct, h.intact⟩
  | remove id =>
    simp only [Editing.step, Option.ite_none_right_eq_some, Option.some.injEq] at hstep
    obtain ⟨-, rfl⟩ := hstep
    exact h.remove id
  | guest vm =>
    cases hstep
    exact h.guests (fun _ => rfl)

/-- In a run where nothing stale is put back, every change shows in its record until a later one
replaces it, and no record comes back that was removed. -/
theorem edits_kept {w' : Editing} {as : List EditAction} (hstart : w.Start)
    (hrun : Run (Guarded Timely (Steps (Editing.step t))) w as w') (id : VolumeId) :
    (w'.removed id = true → w'.node.getVolume id = none) ∧
      (w'.removed id = false → ∀ before c after, w'.done id = before ++ c :: after →
        (∀ x ∈ after, ¬ x.Replaces c) → ∃ record ∈ w'.node.getVolume id, c.Shows record) := by
  have hinv : w'.Inv := hrun.invariant (fun _ _ _ hi hs => hi.step hs.1 hs.2) hstart.inv
  have hid := hinv.intact id
  unfold Intact at hid
  constructor
  · intro hremoved
    rwa [if_pos hremoved] at hid
  · intro hthere before c after hdone hafter
    rw [if_neg (by simp [hthere])] at hid
    rcases hid with hnil | ⟨record, hrecord, hkept⟩
    · rw [hnil] at hdone
      cases before <;> cases hdone
    · exact ⟨record, hrecord, hkept before c after hdone hafter⟩

instance (n : Node) (job : Job) : Decidable (job.Current n) := by
  unfold Job.Current
  infer_instance

instance (w : Editing) (a : EditAction) : Decidable (w.Timely a) := by
  unfold Timely
  split <;> infer_instance

def bench : Tools where
  self := 1
  qemuImg := true
  zfs := .new none
  rbd := .new none

/-- A stopped guest with a disk. -/
def desk : Editing where
  node :=
    ((Node.fresh 1).upsertVm
      { id := .numeric 100, state := .stopped
        spec := { name := "db", disks := [{ path := .disk 7 .qcow2, volumeId := some 7 }] } })
      |>.putRecord { id := 7, name := "data", format := .qcow2, sizeBytes := 8
                     path := .disk 7 .qcow2, replicas := [1] }
  jobs := []
  deleting := []
  done _ := []
  removed _ := false

theorem desk_start : desk.Start where
  jobs := rfl
  deleting := rfl
  distinct id record h := by
    unfold desk at h
    rw [Node.getVolume_putRecord] at h
    split at h
    · obtain rfl := Option.mem_some.mp h
      exact List.nodup_nil
    · cases h
  done _ := rfl
  removed _ := rfl

/-- A snapshot is taken and the volume resized, one after the other. -/
def inTurn : List EditAction :=
  [.begin (.snapshot "before" none 0 false) 7 0, .finish 0, .begin (.resize 16) 7 0, .finish 0]

theorem edits_kept_desk :
    let w := exec (Editing.step bench) desk inTurn
    (w.removed 7 = true → w.node.getVolume 7 = none) ∧
      (w.removed 7 = false → ∀ before c after, w.done 7 = before ++ c :: after →
        (∀ x ∈ after, ¬ x.Replaces c) → ∃ record ∈ w.node.getVolume 7, c.Shows record) :=
  edits_kept desk_start (.of_exec_guarded (by decide +kernel)) 7

/-- A snapshot is taken while a rebuild pass is at work on the volume. -/
def overlapping : List EditAction :=
  [.begin (.rebuild [1]) 7 0, .begin (.snapshot "before" none 0 false) 7 0, .finish 1, .finish 0,
    .fail 0]

/-- The volume is detached and removed while a rebuild pass is at work on it. -/
def removing : List EditAction :=
  [.begin (.rebuild [1]) 7 0,
    .guest { id := .numeric 100, spec := { name := "db" }, state := .stopped },
    .delete 7, .remove 7, .finish 0, .fail 0]

/-- The snapshot is gone from the record, and the removed record is back. -/
theorem edit_lost :
    ¬ (∀ (w w' : Editing) (as : List EditAction), w.Start →
        Run (Steps (Editing.step bench)) w as w' → w'.jobs = [] → w'.removed 7 = false →
        ∀ before c after, w'.done 7 = before ++ c :: after → (∀ x ∈ after, ¬ x.Replaces c) →
          ∃ record ∈ w'.node.getVolume 7, c.Shows record) ∧
      ¬ ∀ (w w' : Editing) (as : List EditAction), w.Start →
        Run (Steps (Editing.step bench)) w as w' → w'.jobs = [] → w'.removed 7 = true →
          w'.node.getVolume 7 = none := by
  constructor
  · intro h
    obtain ⟨record, hrecord, s, hs, -⟩ := h desk (exec (Editing.step bench) desk overlapping)
      overlapping desk_start (.of_exec (by decide +kernel)) (by decide +kernel) (by decide +kernel)
      [] (.snapshot { name := "before", createdUnix := 0 }) [.snapshotNotes "before" none]
      (by decide +kernel) (by simp [Change.Replaces])
    have hnone : (exec (Editing.step bench) desk overlapping).node.getVolume 7 =
        some { id := 7, name := "data", format := .qcow2, sizeBytes := 8, path := .disk 7 .qcow2
               replicas := [1] } := by decide +kernel
    rw [hnone] at hrecord
    obtain rfl := Option.mem_some.mp hrecord
    cases hs
  · intro h
    have hgone := h desk (exec (Editing.step bench) desk removing) removing desk_start
      (.of_exec (by decide +kernel)) (by decide +kernel) (by decide +kernel)
    exact absurd hgone (by decide +kernel)

end Editing

end Pertisk.Volume
