import Mathlib.Data.List.Nodup
import Pertisk.Backup.Kept

namespace Pertisk.Backup
open Lib

namespace Catalogue

variable {w w' : Catalogue} {base : List VmBackupRecord} {job : Job} {i : ℕ} {p : Phase}

theorem copies_put :
    (w.put job).copies i = if job.id = i then job.phase.copy else w.copies i := by
  rw [copies, Catalogue.put, Table.get_insert]
  split <;> rfl

theorem copies_drop : (w.drop job.id).copies i = if i = job.id then none else w.copies i := by
  rw [copies, Catalogue.drop, Table.get_erase]
  split <;> rfl

theorem drop_put : (w.drop job.id).put job = w.put job := by
  have hjobs : (w.jobs.erase job.id).insert job = w.jobs.insert job := by
    refine Table.ext_get (fun k => ?_)
    rw [Table.get_insert, Table.get_insert, Table.get_erase]
    split
    · rfl
    · rename_i hk
      rw [if_neg (Ne.symm hk)]
  rw [Catalogue.put, Catalogue.put, Catalogue.drop, hjobs]

/-- A call between two of its operations has no backup and no copy. -/
structure Idle (p : Phase) : Prop where
  draft : p.draft = none
  removed : p.removed = none
  copy : p.copy = none

theorem Idle.claim (h : Idle p) : p.claim = none := by
  rw [Phase.claim, h.draft, h.removed]
  rfl

theorem Idle.sound (h : Idle p) : w.Sound p := by
  refine ⟨fun r hr => ?_, fun r hr => ?_, fun r hr => ?_, fun id hid => ?_, fun r all hc => ?_,
    fun all done hp => ?_⟩
  · rw [h.draft] at hr
    cases hr
  · rw [h.draft] at hr
    cases hr
  · rw [h.removed] at hr
    cases hr
  · rw [h.claim] at hid
    cases hid
  · rw [h.copy] at hc
    cases hc
  · have hc := Phase.written_copy hp
    rw [h.copy] at hc
    cases hc

/-- Who holds no copy holds up nobody who does. -/
theorem Inv.held_put (h : Inv base w) (job : Job) (hcopy : job.phase.copy = none) :
    Held Done.apply w.file (w.put job).copies := by
  refine h.held.sub (fun j held hheld => ?_)
  rw [copies_put] at hheld
  split at hheld
  · rw [hcopy] at hheld
    cases hheld
  · exact hheld

theorem Inv.rest (h : Inv base w) (hidle : Idle job.phase) : Inv base (w.put job) := by
  refine h.put hidle.sound (fun j other id _ _ hid => ?_) (h.held_put job hidle.copy)
  rw [hidle.claim] at hid
  cases hid

theorem Inv.follow (h : Inv base w) (i : ℕ) (queue : List (VmId × Uuid)) :
    Inv base (w.follow i queue) := by
  cases queue with
  | nil => exact h.drop i
  | cons next queue =>
    rw [Catalogue.follow]
    split
    · exact h.rest ⟨rfl, rfl, rfl⟩
    · exact h.drop i

/-- A call goes on with the backup that it has. -/
theorem Inv.goOn (h : Inv base w) (hget : w.jobs.get job.id = some job) (hsound : w.Sound p)
    (hclaim : ∀ id, p.claim = some id → job.phase.claim = some id)
    (hheld : Held Done.apply w.file (w.put { job with phase := p }).copies) :
    Inv base (w.put { job with phase := p }) := by
  refine h.put hsound (fun j other id hne hother hid hoid => ?_) hheld
  exact hne (h.claims j job.id other job id hother hget hoid (hclaim id hid))

theorem Inv.export (h : Inv base w) (hget : w.jobs.get job.id = some job) {draft : VmBackupRecord}
    {vol : VolumeRecord} {todo : List VolumeRecord} (hphase : job.phase = .exporting draft (vol :: todo))
    (size : Nat) (hp : p.draft = some (draft.add vol size)) (hremoved : p.removed = none)
    (hcopy : p.copy = none) :
    Inv base ({ w with images := .own draft.vmId draft.id vol.id vol.format :: w.images }.put
      { job with phase := p }) := by
  have hsame := h.jobs job.id job hget
  have hdraft : job.phase.draft = some draft := by
    rw [hphase]
    rfl
  have himages : Inv base
      { w with images := .own draft.vmId draft.id vol.id vol.format :: w.images } :=
    h.images (fun r hr d hd => List.mem_cons_of_mem _ (h.kept r hr d hd))
      (fun j other r hother hr d hd =>
        List.mem_cons_of_mem _ ((h.jobs j other hother).exported r hr d hd))
  have hclaim : ∀ id, p.claim = some id → job.phase.claim = some id := by
    intro id hid
    rw [Phase.claim_draft hp] at hid
    rw [Phase.claim_draft hdraft]
    exact hid
  refine himages.goOn hget ⟨fun r hr => ?_, fun r hr => ?_, fun r hr => ?_,
    fun id hid => hsame.claim id (hclaim id hid), fun r all hc => ?_, fun all done hw => ?_⟩ hclaim
    (himages.held_put _ hcopy)
  · rw [hp] at hr
    cases hr
    intro d hd
    rcases List.mem_append.mp hd with hd | hd
    · exact hsame.own draft hdraft d hd
    · rw [List.mem_singleton.mp hd]
      simp [VmBackupRecord.inDir, VmBackupRecord.add]
  · rw [hp] at hr
    cases hr
    intro d hd
    rcases List.mem_append.mp hd with hd | hd
    · exact List.mem_cons_of_mem _ (hsame.exported draft hdraft d hd)
    · rw [List.mem_singleton.mp hd]
      exact List.mem_cons_self
  · rw [hremoved] at hr
    cases hr
  · rw [hcopy] at hc
    cases hc
  · have hc := Phase.written_copy hw
    rw [hcopy] at hc
    cases hc

/-- The directory of the backup that failed is removed with all that is in it. -/
theorem Inv.exportFails (h : Inv base w) (hget : w.jobs.get job.id = some job)
    {draft : VmBackupRecord} (hdraft : job.phase.draft = some draft) :
    Inv base ({ w with images := w.images.filter (fun path => !draft.inDir path) }.drop job.id) := by
  have hclaim := Phase.claim_draft hdraft
  have hfile := ((h.jobs job.id job hget).claim draft.id hclaim).2
  refine (h.drop job.id).images (fun r hr d hd => ?_) (fun j other r hother hr d hd => ?_)
  · have hne : draft.id ≠ r.id := fun heq => hfile (by rw [heq]; exact List.mem_map_of_mem hr)
    rw [List.mem_filter]
    exact ⟨h.kept r hr d hd, by simp [not_inDir hne (h.housed r hr d hd)]⟩
  · rw [Catalogue.drop, Table.get_erase] at hother
    split at hother
    · cases hother
    · rename_i hj
      have hsame := h.jobs j other hother
      have hne : draft.id ≠ r.id := by
        intro heq
        refine hj (h.claims j job.id other job draft.id hother hget ?_ hclaim)
        rw [Phase.claim_draft hr, heq]
      rw [List.mem_filter]
      exact ⟨hsame.exported r hr d hd, by simp [not_inDir hne (.inl (hsame.own r hr d hd))]⟩

/-- The catalogue is loaded while nobody is about to save it. -/
theorem Inv.load (h : Inv base w) (hget : w.jobs.get job.id = some job) {op : BackupOp}
    {all : List VmBackupRecord} {done : Done} (hphase : job.phase = .ready op)
    (halone : ∀ j, w.copies j = none) (hedit : op.edit w.file = .ok (all, done)) :
    Inv base (w.put { job with phase := .loaded all done }) := by
  obtain ⟨hall, hcreated, hdeleted⟩ := edit_ok h.distinct hedit
  have hsame := h.jobs job.id job hget
  have hdraft : ∀ r, (Phase.loaded all done).draft = some r → job.phase.draft = some r := by
    intro r hr
    have hdone : done = .created r := by
      cases done with
      | created record =>
        cases hr
        rfl
      | deleted _ | updated _ _ _ _ => cases hr
    rw [hphase, hcreated r hdone]
    rfl
  have hclaim : ∀ id, (Phase.loaded all done).claim = some id → job.phase.claim = some id := by
    intro id hid
    cases hd : (Phase.loaded all done).draft with
    | none =>
      rw [Phase.claim, hd] at hid
      cases hid
    | some r =>
      rw [Phase.claim_draft hd] at hid
      rw [Phase.claim_draft (hdraft r hd)]
      exact hid
  refine h.goOn hget ⟨fun r hr => hsame.own r (hdraft r hr), fun r hr => hsame.exported r (hdraft r hr),
    fun r hr => ?_, fun id hid => hsame.claim id (hclaim id hid), fun r all' hc => ?_,
    fun all done hw => ?_⟩ hclaim ?_
  · cases hr
  · cases hc
    exact hdeleted r rfl
  · cases hw
  · have hown : (w.put { job with phase := .loaded all done }).copies job.id = some (done, all) := by
      rw [copies_put, if_pos rfl]
      rfl
    refine .take (fun j hj => ?_) hown hall
    rw [copies_put, if_neg (Ne.symm hj)]
    exact halone j

theorem copies_of (hget : w.jobs.get job.id = some job) : w.copies job.id = job.phase.copy := by
  rw [copies, hget]
  rfl

/-- The temporary file is no other call's. -/
theorem Inv.write (h : Inv base w) (hget : w.jobs.get job.id = some job) {all : List VmBackupRecord}
    {done : Done} (hphase : job.phase = .loaded all done) :
    Inv base ({ w with tmp := some all }.put { job with phase := .written all done }) := by
  have hcopy : w.copies job.id = some (done, all) := by
    rw [copies_of hget, hphase]
    rfl
  have hsame := h.jobs job.id job hget
  rw [hphase] at hsame
  have htmp : Inv base { w with tmp := some all } := by
    refine h.tmp (fun j other all' done' hother hw => ?_)
    have hc : w.copies j = some (done', all') := by
      rw [copies, hother]
      exact Phase.written_copy hw
    obtain rfl := h.held.sole j job.id (by rw [hc]; rfl) (by rw [hcopy]; rfl)
    rw [hget] at hother
    cases hother
    rw [hphase] at hw
    cases hw
  have hdraft := Phase.draft_written all done
  have hclaim : (Phase.written all done).claim = (Phase.loaded all done).claim := by
    rw [Phase.claim, hdraft]
    rfl
  refine htmp.goOn hget ⟨fun r hr => hsame.own r (hdraft ▸ hr), fun r hr => hsame.exported r (hdraft ▸ hr),
    hsame.removed, fun id hid => hsame.claim id (hclaim ▸ hid), hsame.deleted,
    fun all' done' hw => ?_⟩ (fun id hid => ?_) ?_
  · cases hw
    rfl
  · rw [hphase, ← hclaim]
    exact hid
  · refine h.held.sub (fun j held hheld => ?_)
    rw [copies_put] at hheld
    split at hheld
    · rename_i hj
      rw [← hj, hcopy, ← hheld]
      rfl
    · exact hheld

/-- A record that is saved was in the catalogue, or it is the backup that the call made. -/
theorem Inv.from (h : Inv base w) (hget : w.jobs.get job.id = some job) {all : List VmBackupRecord}
    {done : Done} (hphase : job.phase = .written all done) :
    (ids (done.apply w.file)).Nodup ∧ ∀ r ∈ done.apply w.file, (w.drop job.id).From r := by
  cases done with
  | created record =>
    have hsame := h.jobs job.id job hget
    have hdraft : job.phase.draft = some record := by
      rw [hphase]
      rfl
    have hclaim := Phase.claim_draft hdraft
    obtain ⟨htaken, hfresh⟩ := hsame.claim record.id hclaim
    refine ⟨?_, fun r hr => ?_⟩
    · rw [Done.apply, ids, List.map_append, List.nodup_append]
      refine ⟨h.distinct, by simp, fun id hid other hother => ?_⟩
      rw [List.map_singleton, List.mem_singleton] at hother
      rw [hother]
      exact fun heq => hfresh (heq ▸ hid)
    · rcases List.mem_append.mp hr with hr | hr
      · exact .inl ⟨r, hr, rfl, rfl, rfl⟩
      · obtain rfl := List.mem_singleton.mp hr
        refine .inr ⟨hsame.own r hdraft, hsame.exported r hdraft, htaken, hfresh,
          fun j other hother hid => ?_⟩
        rw [Catalogue.drop, Table.get_erase] at hother
        split at hother
        · cases hother
        · rename_i hj
          exact hj (h.claims j job.id other job r.id hother hget hid hclaim)
  | deleted removed =>
    refine ⟨h.distinct.sublist (List.filter_sublist.map _), fun r hr => ?_⟩
    exact .inl ⟨r, (List.mem_filter.mp hr).1, rfl, rfl, rfl⟩
  | updated vm id name notes =>
    have hset : ∀ b : VmBackupRecord, (if b.isOf vm id then b.set name notes else b).id = b.id ∧
        (if b.isOf vm id then b.set name notes else b).vmId = b.vmId ∧
        (if b.isOf vm id then b.set name notes else b).disks = b.disks := by
      intro b
      split <;> exact ⟨rfl, rfl, rfl⟩
    refine ⟨?_, fun r hr => ?_⟩
    · have hids : ids ((Done.updated vm id name notes).apply w.file) = ids w.file := by
        rw [ids, Done.apply, List.map_map]
        exact List.map_congr_left (fun b _ => (hset b).1)
      rw [hids]
      exact h.distinct
    · obtain ⟨b, hb, rfl⟩ := List.mem_map.mp hr
      exact .inl ⟨b, hb, hset b⟩

/-- The catalogue that was written replaces the one that it was made from. -/
theorem Inv.rename (h : Inv base w) (hget : w.jobs.get job.id = some job) {all : List VmBackupRecord}
    {done : Done} (hphase : job.phase = .written all done) :
    all = done.apply w.file ∧ Inv base ({ w with
      file := done.apply w.file, tmp := none, log := w.log ++ [done] }.drop job.id) := by
  have hcopy : w.copies job.id = some (done, all) := by
    rw [copies_of hget, hphase]
    rfl
  obtain ⟨hdistinct, hfrom⟩ := h.from hget hphase
  refine ⟨h.held.fresh job.id done all hcopy, (h.drop job.id).commit (fun j => ?_) hdistinct hfrom⟩
  rw [copies_drop]
  split
  · rfl
  · rename_i hj
    exact h.held.only (by rw [hcopy]; rfl) j hj

/-- The backup that was taken out of the catalogue keeps its images until they are removed. -/
theorem Inv.renameDeleted (h : Inv base w) (hget : w.jobs.get job.id = some job)
    {all : List VmBackupRecord} {removed : VmBackupRecord}
    (hphase : job.phase = .written all (.deleted removed)) :
    Inv base ({ w with
        file := (Done.deleted removed).apply w.file, tmp := none
        log := w.log ++ [Done.deleted removed] }.put { job with phase := .cleaning removed }) := by
  have hsaved := (h.rename hget hphase).2
  have hmem : removed ∈ w.file := by
    refine (h.jobs job.id job hget).deleted removed all ?_
    rw [hphase]
    rfl
  have hids : ∀ r ∈ (Done.deleted removed).apply w.file, r.id ≠ removed.id := by
    intro r hr heq
    obtain ⟨hold, hout⟩ := List.mem_filter.mp hr
    have hsame : r = removed := List.inj_on_of_nodup_map h.distinct hold hmem heq
    rw [hsame, (isOf_iff (b := removed)).mpr ⟨rfl, rfl⟩] at hout
    cases hout
  rw [← drop_put]
  refine hsaved.put ⟨fun r hr => ?_, fun r hr => ?_, fun r hr => ?_, fun id hid => ?_,
    fun r all hc => ?_, fun all done hw => ?_⟩ (fun j other id hj hother hid hoid => ?_)
    (hsaved.held_put { job with phase := .cleaning removed } rfl)
  · cases hr
  · cases hr
  · cases hr
    refine ⟨h.housed removed hmem, fun r' hr' => ?_⟩
    exact h.apart removed hmem r' (List.mem_filter.mp hr').1 (Ne.symm (hids r' hr'))
  · cases hid
    refine ⟨h.taken removed hmem, fun hin => ?_⟩
    obtain ⟨r, hr, heq⟩ := List.mem_map.mp hin
    exact hids r hr heq
  · cases hc
  · cases hw
  · cases hid
    rw [Catalogue.drop, Table.get_erase] at hother
    split at hother
    · cases hother
    · exact ((h.jobs j other hother).claim removed.id hoid).2 (List.mem_map_of_mem hmem)

/-- The images of the backup that was deleted go, and no other backup's. -/
theorem Inv.clean (h : Inv base w) (hget : w.jobs.get job.id = some job) {removed : VmBackupRecord}
    (hphase : job.phase = .cleaning removed) {keep : ImagePath → Bool}
    (hkeep : ∀ path, keep path =
      (!removed.inDir path && !removed.disks.any (fun disk => disk.path == path))) :
    Inv base { w with images := w.images.filter keep } := by
  have hsame := h.jobs job.id job hget
  have hremoved : job.phase.removed = some removed := by
    rw [hphase]
    rfl
  have hclaim := Phase.claim_removed hremoved
  have hkept : ∀ r, removed.id ≠ r.id → Housed r → Apart removed r →
      (∀ d ∈ r.disks, d.path ∈ w.images) → ∀ d ∈ r.disks, d.path ∈ w.images.filter keep := by
    intro r hne hhoused hapart himages d hd
    have hany : removed.disks.any (fun disk => disk.path == d.path) = false := by
      rw [List.any_eq_false]
      intro disk hdisk
      rw [beq_iff_eq]
      exact hapart disk hdisk d hd
    rw [List.mem_filter, hkeep, not_inDir hne (hhoused d hd), hany]
    exact ⟨himages d hd, rfl⟩
  refine h.images (fun r hr => ?_) (fun j other r hother hr => ?_)
  · refine hkept r (fun heq => ?_) (h.housed r hr) ((hsame.removed removed hremoved).2 r hr)
      (h.kept r hr)
    refine (hsame.claim removed.id hclaim).2 ?_
    rw [heq]
    exact List.mem_map_of_mem hr
  · have hne : removed.id ≠ r.id := by
      intro heq
      have hoid := Phase.claim_draft hr
      rw [← heq] at hoid
      obtain rfl := h.claims j job.id other job removed.id hother hget hoid hclaim
      rw [hget] at hother
      cases hother
      rw [hphase] at hr
      cases hr
    have hown := (h.jobs j other hother).own r hr
    exact hkept r hne hown.housed
      (hown.apart (hsame.removed removed hremoved).1 (Ne.symm hne)).symm
      ((h.jobs j other hother).exported r hr)

/-- No call loads the catalogue to change it between another one's load and its rename. -/
def Alone (w : Catalogue) : BackupAction → Prop
  | .turn _ .load => ∀ job ∈ w.jobs.rows, job.phase.copy.isNone = true
  | _ => True

instance : ∀ w a, Decidable (Alone w a) := by
  intro w a
  unfold Alone
  split <;> infer_instance

theorem Inv.turn (h : Inv base w) (hget : w.jobs.get job.id = some job) {t : Turn}
    (halone : t = .load → ∀ j, w.copies j = none) (hturn : w.turn job t = some w') : Inv base w' := by
  unfold Catalogue.turn at hturn
  split at hturn
  · rename_i draft vol todo size hphase
    cases hturn
    cases todo with
    | nil =>
      have hnext := h.export (p := .ready (.create (draft.add vol size))) hget hphase size rfl rfl rfl
      exact hnext
    | cons next todo =>
      have hnext := h.export (p := .exporting (draft.add vol size) (next :: todo)) hget hphase size
        rfl rfl rfl
      exact hnext
  · rename_i draft todo hphase
    cases hturn
    refine h.exportFails hget ?_
    rw [hphase]
    rfl
  · rename_i op hphase
    split at hturn
    · rename_i all done hedit
      cases hturn
      exact h.load hget hphase (halone rfl) hedit
    · cases hturn
      exact h.drop job.id
  · cases hturn
    exact h.drop job.id
  · rename_i all done hphase
    cases hturn
    exact h.write hget hphase
  · rename_i all done left hphase
    cases hturn
    have hcopy : w.copies job.id = some (done, all) := by
      rw [copies_of hget, hphase]
      rfl
    refine (h.drop job.id).tmp (fun j other all' done' hother hw => ?_)
    rw [Catalogue.drop, Table.get_erase] at hother
    split at hother
    · cases hother
    · rename_i hj
      have hnone := h.held.only (by rw [hcopy]; rfl) j hj
      rw [copies, hother, Option.bind_some, Phase.written_copy hw] at hnone
      cases hnone
  · rename_i all done hphase
    have htmp := (h.jobs job.id job hget).tmp all done hphase
    rw [htmp] at hturn
    obtain ⟨hall, hsaved⟩ := h.rename hget hphase
    rw [hall] at hturn
    cases done with
    | created record =>
      cases hturn
      exact hsaved
    | updated vm id name notes =>
      cases hturn
      exact hsaved
    | deleted removed =>
      cases hturn
      exact h.renameDeleted hget hphase
  · cases hturn
    exact h.drop job.id
  · rename_i removed hphase
    cases hturn
    exact (h.clean hget hphase (fun _ => rfl)).follow job.id job.queue
  · cases hturn

/-- A backup that is begun has no image yet, and an id that none had before. -/
theorem Inv.begin (h : Inv base w) {fresh : Uuid} (hfresh : fresh ∉ w.taken) {draft : VmBackupRecord}
    (hid : draft.id = fresh) (hdisks : draft.disks = []) (todo : List VolumeRecord) (i : ℕ) :
    Inv base ({ w with taken := fresh :: w.taken }.put ⟨i, .exporting draft todo, []⟩) := by
  have hunlisted : fresh ∉ ids w.file := by
    intro hmem
    obtain ⟨r, hr, rfl⟩ := List.mem_map.mp hmem
    exact hfresh (h.taken r hr)
  refine (h.take fresh).put ⟨fun r hr => ?_, fun r hr => ?_, fun r hr => ?_, fun id hc => ?_,
    fun r all hc => ?_, fun all done hw => ?_⟩ (fun j other id _ hother hc hoc => ?_)
    ((h.take fresh).held_put ⟨i, .exporting draft todo, []⟩ rfl)
  · cases hr
    intro d hd
    rw [hdisks] at hd
    cases hd
  · cases hr
    intro d hd
    rw [hdisks] at hd
    cases hd
  · cases hr
  · cases hc
    rw [hid]
    exact ⟨List.mem_cons_self, hunlisted⟩
  · cases hc
  · cases hw
  · cases hc
    rw [hid] at hoc
    exact hfresh ((h.jobs j other hother).claim fresh hoc).1

theorem createVmBackup_ok {vm : VmId} {notes : Option String} {fresh : Uuid} {now : Nat}
    {draft : VmBackupRecord} {todo : List VolumeRecord}
    (h : w.createVmBackup vm notes fresh now = .ok (draft, todo)) :
    draft.id = fresh ∧ draft.disks = [] := by
  obtain ⟨record, -, h⟩ := bind_ok h
  obtain ⟨-, -, h⟩ := bind_ok h
  obtain ⟨-, -, h⟩ := bind_ok h
  obtain ⟨sources, -, h⟩ := bind_ok h
  split at h
  · cases h
  · obtain ⟨kept, -, h⟩ := bind_ok h
    cases h
    exact ⟨rfl, rfl⟩

theorem Inv.step (h : Inv base w) {a : BackupAction} (halone : Alone w a)
    (hstep : w.step a = some w') : Inv base w' := by
  cases a with
  | create j vm notes fresh now =>
    simp only [Catalogue.step] at hstep
    split at hstep
    · cases hstep
    · rename_i hnew
      split at hstep
      · cases hstep
        exact h
      · rename_i draft todo hcreate
        cases hstep
        obtain ⟨hid, hdisks⟩ := createVmBackup_ok hcreate
        exact h.begin (fun hmem => hnew (by simp [hmem])) hid hdisks todo j
  | delete j vm id =>
    simp only [Catalogue.step] at hstep
    split at hstep
    · cases hstep
    · cases hstep
      exact h.follow j _
  | update j vm id req =>
    simp only [Catalogue.step] at hstep
    split at hstep
    · cases hstep
    · split at hstep
      · cases hstep
        exact h
      · cases hstep
        exact h.rest ⟨rfl, rfl, rfl⟩
  | prune j vm keep =>
    simp only [Catalogue.step] at hstep
    split at hstep
    · cases hstep
    · split at hstep
      · cases hstep
        exact h
      · cases hstep
        exact h.follow j _
  | turn j t =>
    obtain ⟨job, hget, hturn⟩ := Option.bind_eq_some_iff.mp hstep
    obtain rfl := Table.key_of_get hget
    refine h.turn hget (fun ht i => ?_) hturn
    subst ht
    cases hi : w.jobs.get i with
    | none =>
      rw [copies, hi]
      rfl
    | some other =>
      rw [copies, hi]
      exact Option.isNone_iff_eq_none.mp (halone other (Table.mem_of_get hi))
  | inventory node =>
    cases hstep
    exact ⟨h.file, h.distinct, h.housed, h.apart, h.kept, h.taken,
      fun j other hother => by
        have hsame := h.jobs j other hother
        exact ⟨hsame.own, hsame.exported, hsame.removed, hsame.claim, hsame.deleted, hsame.tmp⟩,
      h.claims, h.held⟩

/-- While no call loads the catalogue between another one's load and its rename, it lists what the
acknowledged operations made of it, and each listed backup has its image files. -/
theorem catalogue_kept {as : List BackupAction} (h : w.Start)
    (hrun : Run (Guarded Alone (Steps step)) w as w') :
    w'.file = replay w.file w'.log ∧ ∀ r ∈ w'.file, ∀ d ∈ r.disks, d.path ∈ w'.images := by
  have hinv : Inv w.file w' :=
    hrun.invariant (fun _ _ _ hi hs => hi.step hs.1 hs.2) h.inv
  exact ⟨hinv.file, hinv.kept⟩

end Catalogue

def webGuest : VmRecord :=
  { id := .numeric 100, spec := { name := "web", disks := [{ path := .disk 7 .raw, volumeId := some 7 }] },
    state := .stopped, nodeId := some 1 }

def mailGuest : VmRecord :=
  { id := .numeric 101, spec := { name := "mail" }, state := .stopped, nodeId := some 1 }

def kept (id : Uuid) (vm : VmId) : VmBackupRecord :=
  { id := id, vmId := vm, name := "kept", createdUnix := 0,
    disks := [⟨7, "data", .own vm id 7 .raw, 1024⟩] }

/-- Two guests, and a backup of each. -/
def shelf : Catalogue where
  node := (((Node.fresh 1).upsertVm webGuest).upsertVm mailGuest).putRecord
    { id := 7, name := "data", format := .raw, sizeBytes := 1024, path := .disk 7 .raw }
  file := [kept 1 (.numeric 100), kept 2 (.numeric 101)]
  images := [.own (.numeric 100) 1 7 .raw, .own (.numeric 101) 2 7 .raw]
  taken := [1, 2]

theorem shelf_own : ∀ r ∈ shelf.file, Own r := by
  have hkept : ∀ id vm, Own (kept id vm) := by
    intro id vm d hd
    rw [List.mem_singleton.mp hd]
    simp [VmBackupRecord.inDir, kept]
  intro r hr
  rcases List.mem_cons.mp hr with rfl | hr
  · exact hkept 1 _
  · rw [List.mem_singleton.mp hr]
    exact hkept 2 _

theorem shelf_start : shelf.Start where
  jobs := rfl
  log := rfl
  distinct := by decide
  housed r hr := (shelf_own r hr).housed
  apart r hr r' hr' := (shelf_own r hr).apart (shelf_own r' hr').housed
  kept := by decide +kernel
  taken := by decide

def save (job : ℕ) : List BackupAction := [.turn job .write, .turn job .rename]

/-- A guest is backed up while another guest's backup gets a note and is then deleted. -/
def nightly : List BackupAction :=
  [.create 1 (.numeric 100) none 3 60, .update 2 (.numeric 101) 2 { notes := some "old" },
    .turn 2 .load] ++ save 2 ++ [.turn 1 (.export 1024), .turn 1 .load] ++ save 1 ++
  [.delete 3 (.numeric 101) 2, .turn 3 .load] ++ save 3 ++ [.turn 3 .clean]

theorem nightly_kept :
    (exec Catalogue.step shelf nightly).file =
        replay shelf.file (exec Catalogue.step shelf nightly).log ∧
      ∀ r ∈ (exec Catalogue.step shelf nightly).file, ∀ d ∈ r.disks,
        d.path ∈ (exec Catalogue.step shelf nightly).images :=
  Catalogue.catalogue_kept shelf_start
    (Run.of_exec_guarded (by decide +kernel) : Run (Guarded Catalogue.Alone _) _ nightly _)

/-- The backups of two guests get a note each: both calls load the catalogue before either saves
it. -/
def crossed : List BackupAction :=
  [.update 1 (.numeric 100) 1 { notes := some "first" },
    .update 2 (.numeric 101) 2 { notes := some "second" }, .turn 1 .load, .turn 2 .load] ++
  save 1 ++ save 2

theorem crossed_loses : ¬ ∀ (w w' : Catalogue) (as : List BackupAction), w.Start →
    Run (Steps Catalogue.step) w as w' → w'.jobs.rows.length = 0 →
      w'.file = replay w.file w'.log := by
  intro h
  have hfile := h shelf _ crossed shelf_start (Run.of_exec (by decide +kernel)) (by decide +kernel)
  exact absurd hfile (by decide +kernel)

end Pertisk.Backup
