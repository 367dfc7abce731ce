import Pertisk.Backup.Catalogue
import Pertisk.Lib.Calls
import Pertisk.Lib.Ledger

namespace Pertisk.Backup
open Lib

def ids (all : List VmBackupRecord) : List Uuid := all.map VmBackupRecord.id

section edits
variable {all all' : List VmBackupRecord} {b r : VmBackupRecord} {vm : VmId} {id : Uuid} {op : BackupOp}
  {done : Done}

theorem isOf_iff : b.isOf vm id = true ↔ b.vmId = vm ∧ b.id = id := by
  simp [VmBackupRecord.isOf]

/-- No record behind the first of a backup is of that backup. -/
theorem isOf_rest (h : (ids (b :: all)).Nodup) (hb : b.isOf vm id = true) :
    ∀ c ∈ all, c.isOf vm id = false := by
  intro c hc
  rw [Bool.eq_false_iff]
  intro hcof
  refine (List.nodup_cons.mp h).1 (List.mem_map.mpr ⟨c, hc, ?_⟩)
  rw [(isOf_iff.mp hb).2, (isOf_iff.mp hcof).2]

theorem eraseP_eq_filter (h : (ids all).Nodup) :
    all.eraseP (VmBackupRecord.isOf vm id) = all.filter (fun b => !b.isOf vm id) := by
  induction all with
  | nil => rfl
  | cons b all ih =>
    cases hb : b.isOf vm id with
    | true =>
      rw [List.eraseP_cons_of_pos hb, List.filter_cons_of_neg (by simp [hb])]
      exact (List.filter_eq_self.mpr (fun c hc => by simp [isOf_rest h hb c hc])).symm
    | false =>
      rw [List.eraseP_cons_of_neg (by simp [hb]), List.filter_cons_of_pos (by simp [hb]),
        ih (List.nodup_cons.mp h).2]

theorem setFirst_eq_map {name : Option String} {notes : Option (Option String)}
    (h : (ids all).Nodup) :
    setFirst vm id name notes all =
      all.map (fun b => if b.isOf vm id then b.set name notes else b) := by
  induction all with
  | nil => rfl
  | cons b all ih =>
    rw [setFirst, List.map_cons]
    split
    · rename_i hb
      have hrest : all.map (fun b => if b.isOf vm id then b.set name notes else b) = all.map (·) :=
        List.map_congr_left (fun c hc => by simp [isOf_rest h hb c hc])
      rw [hrest, List.map_id']
    · rw [ih (List.nodup_cons.mp h).2]

theorem replay_append {log : List Done} :
    replay all (log ++ [done]) = done.apply (replay all log) := by
  rw [replay, List.foldl_append]
  rfl

/-- What an operation does to the catalogue that it loaded is what it will be acknowledged for. -/
theorem edit_ok (h : (ids all).Nodup) (hop : op.edit all = .ok (all', done)) :
    all' = done.apply all ∧ (∀ r, done = .created r → op = .create r) ∧
      ∀ r, done = .deleted r → r ∈ all := by
  cases op with
  | create record =>
    cases hop
    refine ⟨rfl, fun r hr => ?_, fun r hr => ?_⟩
    · cases hr
      rfl
    · cases hr
  | delete vm id =>
    simp only [BackupOp.edit] at hop
    split at hop
    · cases hop
    · rename_i removed hfind
      cases hop
      have hof := isOf_iff.mp (List.find?_some hfind)
      refine ⟨?_, fun r hr => ?_, fun r hr => ?_⟩
      · rw [eraseP_eq_filter h, Done.apply, hof.1, hof.2]
      · cases hr
      · cases hr
        exact List.mem_of_find?_eq_some hfind
  | update vm id req =>
    simp only [BackupOp.edit] at hop
    split at hop
    · obtain ⟨name, -, hop⟩ := bind_ok hop
      obtain ⟨notes, -, hop⟩ := bind_ok hop
      cases hop
      refine ⟨setFirst_eq_map h, fun r hr => ?_, fun r hr => ?_⟩ <;> cases hr
    · cases hop

end edits

namespace Phase

/-- The backup that a call is making. -/
def draft : Phase → Option VmBackupRecord
  | exporting draft _ | ready (.create draft) | loaded _ (.created draft)
  | written _ (.created draft) => some draft
  | _ => none

/-- The backup whose images a call is removing. -/
def removed : Phase → Option VmBackupRecord
  | cleaning removed => some removed
  | _ => none

/-- Writing the temporary file changes nothing in what the call has. -/
theorem draft_written (all : List VmBackupRecord) (done : Done) :
    (written all done).draft = (loaded all done).draft := by
  cases done <;> rfl

/-- The change that a call is about to save, and the catalogue with it. -/
def copy : Phase → Option (Done × List VmBackupRecord)
  | loaded all done | written all done => some (done, all)
  | _ => none

def claim (p : Phase) : Option Uuid := (p.draft.or p.removed).map VmBackupRecord.id

theorem claim_draft {p : Phase} {r : VmBackupRecord} (h : p.draft = some r) : p.claim = some r.id := by
  rw [claim, h]
  rfl

theorem claim_removed {p : Phase} {r : VmBackupRecord} (h : p.removed = some r) :
    p.claim = some r.id := by
  cases p with
  | cleaning removed =>
    cases h
    rfl
  | exporting _ _ | ready _ | loaded _ _ | written _ _ => cases h

theorem written_copy {p : Phase} {all : List VmBackupRecord} {done : Done}
    (h : p = .written all done) : p.copy = some (done, all) := by
  rw [h]
  rfl

end Phase

/-- The images of the two are different files. -/
def Apart (r r' : VmBackupRecord) : Prop := ∀ d ∈ r.disks, ∀ d' ∈ r'.disks, d.path ≠ d'.path

/-- The images lie in the backup's own directory. -/
def Own (r : VmBackupRecord) : Prop := ∀ d ∈ r.disks, r.inDir d.path = true

/-- They may be where an older daemon put them, but in no other backup's directory. -/
def Housed (r : VmBackupRecord) : Prop :=
  ∀ d ∈ r.disks, r.inDir d.path = true ∨ ∃ text, d.path = .legacy text

theorem Own.housed {r : VmBackupRecord} (h : Own r) : Housed r := fun d hd => .inl (h d hd)

theorem inDir_id {r : VmBackupRecord} {path : ImagePath} (h : r.inDir path = true) :
    ∃ volume format, path = .own r.vmId r.id volume format := by
  cases path with
  | own vm id volume format =>
    simp only [VmBackupRecord.inDir, Bool.and_eq_true, beq_iff_eq] at h
    exact ⟨volume, format, by rw [h.1, h.2]⟩
  | legacy text => cases h

theorem not_inDir {r r' : VmBackupRecord} (hne : r.id ≠ r'.id) {path : ImagePath}
    (h : r'.inDir path = true ∨ ∃ text, path = .legacy text) : r.inDir path = false := by
  rw [Bool.eq_false_iff]
  intro hin
  obtain ⟨volume, format, rfl⟩ := inDir_id hin
  rcases h with h | ⟨text, h⟩
  · obtain ⟨volume', format', h⟩ := inDir_id h
    injection h with _ hid
    exact hne hid
  · cases h

theorem Own.apart {r r' : VmBackupRecord} (h : Own r) (h' : Housed r') (hne : r.id ≠ r'.id) :
    Apart r r' := by
  intro d hd d' hd' heq
  have hout := not_inDir hne (h' d' hd')
  rw [← heq, h d hd] at hout
  cases hout

theorem Apart.symm {r r' : VmBackupRecord} (h : Apart r r') : Apart r' r :=
  fun d hd d' hd' heq => h d' hd' d hd heq.symm

namespace Catalogue

variable {w w' : Catalogue} {base : List VmBackupRecord} {job : Job} {i : ℕ}

def copies (w : Catalogue) (i : ℕ) : Option (Done × List VmBackupRecord) :=
  (w.jobs.get i).bind (fun job => job.phase.copy)

/-- What a call under way relies on. -/
structure Sound (w : Catalogue) (p : Phase) : Prop where
  own : ∀ r, p.draft = some r → Own r
  exported : ∀ r, p.draft = some r → ∀ d ∈ r.disks, d.path ∈ w.images
  removed : ∀ r, p.removed = some r → Housed r ∧ ∀ r' ∈ w.file, Apart r r'
  claim : ∀ id, p.claim = some id → id ∈ w.taken ∧ id ∉ ids w.file
  deleted : ∀ r all, p.copy = some (.deleted r, all) → r ∈ w.file
  tmp : ∀ all done, p = .written all done → w.tmp = some all

structure Inv (base : List VmBackupRecord) (w : Catalogue) : Prop where
  file : w.file = replay base w.log
  distinct : (ids w.file).Nodup
  housed : ∀ r ∈ w.file, Housed r
  apart : ∀ r ∈ w.file, ∀ r' ∈ w.file, r.id ≠ r'.id → Apart r r'
  kept : ∀ r ∈ w.file, ∀ d ∈ r.disks, d.path ∈ w.images
  taken : ∀ r ∈ w.file, r.id ∈ w.taken
  jobs : ∀ i job, w.jobs.get i = some job → w.Sound job.phase
  claims : ∀ i j job other id, w.jobs.get i = some job → w.jobs.get j = some other →
    job.phase.claim = some id → other.phase.claim = some id → i = j
  held : Held Done.apply w.file w.copies

/-- A catalogue with no call under way: it lists each backup once, with its own image files. -/
structure Start (w : Catalogue) : Prop where
  jobs : w.jobs.rows = []
  log : w.log = []
  distinct : (ids w.file).Nodup
  housed : ∀ r ∈ w.file, Housed r
  apart : ∀ r ∈ w.file, ∀ r' ∈ w.file, r.id ≠ r'.id → Apart r r'
  kept : ∀ r ∈ w.file, ∀ d ∈ r.disks, d.path ∈ w.images
  taken : ∀ r ∈ w.file, r.id ∈ w.taken

theorem Start.inv (h : w.Start) : Inv w.file w := by
  have hnone : ∀ i, w.jobs.get i = none := by
    intro i
    rw [Table.get, h.jobs]
    rfl
  refine ⟨?_, h.distinct, h.housed, h.apart, h.kept, h.taken, ?_, ?_, .nobody ?_⟩
  · rw [h.log]
    rfl
  · intro i job hget
    rw [hnone i] at hget
    cases hget
  · intro i j job other id hget
    rw [hnone i] at hget
    cases hget
  · intro i
    rw [copies, hnone i]
    rfl

/-- A call goes on, or a new one begins. -/
theorem Inv.put (h : Inv base w) (hsound : w.Sound job.phase)
    (hclaim : ∀ j other id, j ≠ job.id → w.jobs.get j = some other →
      job.phase.claim = some id → other.phase.claim ≠ some id)
    (hheld : Held Done.apply w.file (w.put job).copies) : Inv base (w.put job) := by
  have hget : ∀ j other, (w.put job).jobs.get j = some other →
      (j = job.id ∧ other = job) ∨ (j ≠ job.id ∧ w.jobs.get j = some other) := by
    intro j other hother
    rw [Catalogue.put, Table.get_insert] at hother
    split at hother
    · rename_i hj
      cases hother
      exact .inl ⟨hj.symm, rfl⟩
    · rename_i hj
      exact .inr ⟨Ne.symm hj, hother⟩
  refine ⟨h.file, h.distinct, h.housed, h.apart, h.kept, h.taken, fun j other hother => ?_, ?_, hheld⟩
  · have hsame : w.Sound other.phase := by
      rcases hget j other hother with ⟨-, rfl⟩ | ⟨-, hold⟩
      · exact hsound
      · exact h.jobs j other hold
    exact ⟨hsame.own, hsame.exported, hsame.removed, hsame.claim, hsame.deleted, hsame.tmp⟩
  · intro j k a b id ha hb hca hcb
    rcases hget j a ha with ⟨rfl, rfl⟩ | ⟨hj, haw⟩
    · rcases hget k b hb with ⟨rfl, rfl⟩ | ⟨hk, hbw⟩
      · rfl
      · exact absurd hcb (hclaim k b id hk hbw hca)
    · rcases hget k b hb with ⟨rfl, rfl⟩ | ⟨hk, hbw⟩
      · exact absurd hca (hclaim j a id hj haw hcb)
      · exact h.claims j k a b id haw hbw hca hcb

theorem Inv.drop (h : Inv base w) (i : ℕ) : Inv base (w.drop i) := by
  have hget : ∀ j other, (w.drop i).jobs.get j = some other → w.jobs.get j = some other := by
    intro j other hother
    rw [Catalogue.drop, Table.get_erase] at hother
    split at hother
    · cases hother
    · exact hother
  refine ⟨h.file, h.distinct, h.housed, h.apart, h.kept, h.taken, fun j other hother => ?_, ?_, ?_⟩
  · have hsame := h.jobs j other (hget j other hother)
    exact ⟨hsame.own, hsame.exported, hsame.removed, hsame.claim, hsame.deleted, hsame.tmp⟩
  · exact fun j k a b id ha hb => h.claims j k a b id (hget j a ha) (hget k b hb)
  · refine h.held.sub (fun j held hheld => ?_)
    obtain ⟨other, hother, hcopy⟩ := Option.bind_eq_some_iff.mp hheld
    exact Option.bind_eq_some_iff.mpr ⟨other, hget j other hother, hcopy⟩

/-- Image files come and go, but none of a listed backup, or of one that is being made. -/
theorem Inv.images (h : Inv base w) {images : List ImagePath}
    (hfile : ∀ r ∈ w.file, ∀ d ∈ r.disks, d.path ∈ images)
    (hdraft : ∀ j other r, w.jobs.get j = some other → other.phase.draft = some r →
      ∀ d ∈ r.disks, d.path ∈ images) : Inv base { w with images := images } := by
  refine ⟨h.file, h.distinct, h.housed, h.apart, hfile, h.taken, fun j other hother => ?_, h.claims,
    h.held⟩
  have hsame := h.jobs j other hother
  exact ⟨hsame.own, fun r => hdraft j other r hother, hsame.removed, hsame.claim, hsame.deleted,
    hsame.tmp⟩

theorem Inv.tmp (h : Inv base w) {tmp : Option (List VmBackupRecord)}
    (hnone : ∀ j other all done, w.jobs.get j = some other → other.phase ≠ .written all done) :
    Inv base { w with tmp := tmp } := by
  refine ⟨h.file, h.distinct, h.housed, h.apart, h.kept, h.taken, fun j other hother => ?_, h.claims,
    h.held⟩
  have hsame := h.jobs j other hother
  exact ⟨hsame.own, hsame.exported, hsame.removed, hsame.claim, hsame.deleted,
    fun all done hp => absurd hp (hnone j other all done hother)⟩

theorem Inv.take (h : Inv base w) (fresh : Uuid) : Inv base { w with taken := fresh :: w.taken } := by
  refine ⟨h.file, h.distinct, h.housed, h.apart, h.kept,
    fun r hr => List.mem_cons_of_mem _ (h.taken r hr), fun j other hother => ?_, h.claims, h.held⟩
  have hsame := h.jobs j other hother
  exact ⟨hsame.own, hsame.exported, hsame.removed,
    fun id hid => ⟨List.mem_cons_of_mem _ (hsame.claim id hid).1, (hsame.claim id hid).2⟩,
    hsame.deleted, hsame.tmp⟩

/-- A record of the catalogue that is saved: one of before with its images, or a new backup. -/
def From (w : Catalogue) (r : VmBackupRecord) : Prop :=
  (∃ old ∈ w.file, r.id = old.id ∧ r.vmId = old.vmId ∧ r.disks = old.disks) ∨
    (Own r ∧ (∀ d ∈ r.disks, d.path ∈ w.images) ∧ r.id ∈ w.taken ∧ r.id ∉ ids w.file ∧
      ∀ i job, w.jobs.get i = some job → job.phase.claim ≠ some r.id)

theorem From.housed (h : Inv base w) {r : VmBackupRecord} (hr : w.From r) : Housed r := by
  rcases hr with ⟨old, hold, hid, hvm, hdisks⟩ | ⟨hown, -⟩
  · intro d hd
    rw [hdisks] at hd
    rcases h.housed old hold d hd with hin | hlegacy
    · obtain ⟨volume, format, hpath⟩ := inDir_id hin
      refine .inl ?_
      rw [hpath, ← hid, ← hvm]
      simp [VmBackupRecord.inDir]
    · exact .inr hlegacy
  · exact hown.housed

theorem From.apart (h : Inv base w) {r r' : VmBackupRecord} (hr : w.From r) (hr' : w.From r')
    (hne : r.id ≠ r'.id) : Apart r r' := by
  rcases hr with ⟨old, hold, hid, hvm, hdisks⟩ | ⟨hown, -⟩
  · rcases hr' with ⟨old', hold', hid', -, hdisks'⟩ | ⟨hown', -⟩
    · have hne' : old.id ≠ old'.id := by
        rw [← hid, ← hid']
        exact hne
      intro d hd d' hd'
      rw [hdisks] at hd
      rw [hdisks'] at hd'
      exact h.apart old hold old' hold' hne' d hd d' hd'
    · have hhoused : Housed r := From.housed h (.inl ⟨old, hold, hid, hvm, hdisks⟩)
      exact (hown'.apart hhoused (Ne.symm hne)).symm
  · exact hown.apart (From.housed h hr') hne

theorem From.kept (h : Inv base w) {r : VmBackupRecord} (hr : w.From r) :
    ∀ d ∈ r.disks, d.path ∈ w.images := by
  rcases hr with ⟨old, hold, -, -, hdisks⟩ | ⟨-, himages, -⟩
  · rw [hdisks]
    exact h.kept old hold
  · exact himages

theorem From.taken (h : Inv base w) {r : VmBackupRecord} (hr : w.From r) : r.id ∈ w.taken := by
  rcases hr with ⟨old, hold, hid, -⟩ | ⟨-, -, htaken, -⟩
  · rw [hid]
    exact h.taken old hold
  · exact htaken

theorem From.unclaimed (h : Inv base w) {r : VmBackupRecord} (hr : w.From r) (hget : w.jobs.get i = some job) :
    job.phase.claim ≠ some r.id := by
  rcases hr with ⟨old, hold, hid, -⟩ | ⟨-, -, -, -, hclaims⟩
  · intro hclaim
    refine ((h.jobs i job hget).claim r.id hclaim).2 ?_
    rw [hid]
    exact List.mem_map_of_mem hold
  · exact hclaims i job hget

/-- Nobody else has a copy when a change is saved. -/
theorem Inv.commit (h : Inv base w) (hnone : ∀ i, w.copies i = none) {done : Done}
    (hdistinct : (ids (done.apply w.file)).Nodup) (hfrom : ∀ r ∈ done.apply w.file, w.From r) :
    Inv base { w with file := done.apply w.file, tmp := none, log := w.log ++ [done] } := by
  have hcopy : ∀ i job, w.jobs.get i = some job → job.phase.copy = none := by
    intro i job hget
    have hi := hnone i
    rwa [copies, hget] at hi
  refine ⟨?_, hdistinct, fun r hr => (hfrom r hr).housed h,
    fun r hr r' hr' => (hfrom r hr).apart h (hfrom r' hr'), fun r hr => (hfrom r hr).kept h,
    fun r hr => (hfrom r hr).taken h, fun i job hget => ?_, h.claims, .nobody hnone⟩
  · rw [replay_append, ← h.file]
  · have hsame := h.jobs i job hget
    refine ⟨hsame.own, hsame.exported, fun r hr => ⟨(hsame.removed r hr).1, fun r' hr' => ?_⟩,
      fun id hid => ⟨(hsame.claim id hid).1, fun hmem => ?_⟩, fun r all hc => ?_,
      fun all done hp => ?_⟩
    · rcases hfrom r' hr' with ⟨old, hold, hid, -, hdisks⟩ | ⟨hown, -, -, -, hclaims⟩
      · intro d hd d' hd'
        rw [hdisks] at hd'
        exact (hsame.removed r hr).2 old hold d hd d' hd'
      · have hne : r'.id ≠ r.id := by
          intro heq
          refine hclaims i job hget ?_
          rw [Phase.claim_removed hr, heq]
        exact (hown.apart (hsame.removed r hr).1 hne).symm
    · obtain ⟨r, hr, rfl⟩ := List.mem_map.mp hmem
      exact (hfrom r hr).unclaimed h hget hid
    · rw [hcopy i job hget] at hc
      cases hc
    · have hc := Phase.written_copy hp
      rw [hcopy i job hget] at hc
      cases hc

end Catalogue

end Pertisk.Backup
