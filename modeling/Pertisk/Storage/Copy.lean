import Pertisk.Lib.Calls
import Pertisk.Storage.Replica

namespace Pertisk.Storage
open Lib

variable {β : Type} [Contents β]

/-- What one node has of one volume. -/
@[ext] structure Copy (β : Type) where
  file : VolumeFormat → Option β
  record : Option VolumeRecord

def Host.copy (h : Host β) (id : VolumeId) : Copy β :=
  ⟨fun format => h.files (.disk id format), h.getVolume id⟩

namespace Copy

def ensure (env : Env) (n : NodeId) (vol : VolumeRecord) (c : Copy β) : Copy β where
  file := Function.update c.file vol.format
    (some ((c.file vol.format).getD (Host.blank env n vol)))
  record := some vol.localize

def write (bytes : β) (c : Copy β) : Copy β :=
  match c.record with
  | none => c
  | some record =>
    if record.backend.external then c
    else
      { file := Function.update c.file record.format (some bytes)
        record := some { record with
          path := .disk record.id record.format
          sizeBytes := max record.sizeBytes (len bytes) } }

/-- The peer answers to a push with a file that is written: it has a record of its own, its file
is not of the same nonzero length as ours, and there is room. -/
def accepts (env : Env) (s : Host β) (n : NodeId) (id : VolumeId) (bytes : β)
    (c : Copy β) : Bool :=
  match c.record with
  | none => false
  | some record =>
    let same := decide (0 < len bytes) && decide (Answers env s n (.stat id)) &&
      match c.file record.format with
      | some old => len old == len bytes
      | none => false
    let known := decide (Answers env s n (.free id)) &&
      match env.freeMib n (.free id) with
      | some free =>
        decide (saturatingMul free mib < saturatingAdd (allocated bytes) (1024 * mib))
      | none => false
    let room := match env.freeMib n (.put id) with
      | some free => decide (saturatingAdd (divCeil (allocated bytes) mib) 1024 ≤ free)
      | none => true
    !record.backend.external && !same && !known && decide (Answers env s n (.put id)) && room

variable {env : Env} {n : NodeId} {vol : VolumeRecord} {c : Copy β} {bytes : β}

theorem ensure_ensure : (c.ensure env n vol).ensure env n vol = c.ensure env n vol := by
  simp [ensure]

theorem write_write : (c.write bytes).write bytes = c.write bytes := by
  unfold write
  cases hr : c.record with
  | none => simp [hr]
  | some record =>
    cases hb : record.backend.external with
    | true => simp [hr, hb]
    | false => simp [hb]

end Copy

variable {env : Env} {self n : NodeId} {s s' d d' h t : Host β} {id j : VolumeId}
variable {vol record : VolumeRecord}

theorem Answers.congr (hc : s'.node.cluster = s.node.cluster) (r : Request) :
    Answers env s' n r ↔ Answers env s n r := by
  unfold Answers
  rw [hc]

theorem Host.copy_putRecord (h : Host β) (vol : VolumeRecord) (j : VolumeId) :
    (h.putRecord vol).copy j =
      if vol.id = j then { h.copy j with record := some vol.localize } else h.copy j := by
  unfold copy
  rw [getVolume_putRecord]
  split
  · rfl
  · rfl

theorem Host.copy_ensureLocal (env : Env) (n : NodeId) (hb : vol.backend.external = false)
    (h : Host β) (j : VolumeId) :
    (h.ensureLocal env n vol).1.copy j =
      if vol.id = j then (h.copy j).ensure env n vol else h.copy j := by
  unfold ensureLocal
  simp only [hb, Bool.false_eq_true, if_false, copy_putRecord]
  by_cases hj : vol.id = j
  · subst hj
    simp only [if_true]
    apply Copy.ext
    · funext format
      simp only [copy, Copy.ensure]
      cases hf : h.files (.disk vol.id vol.format) with
      | none =>
        by_cases hformat : format = vol.format
        · subst hformat
          simp [writeFile]
        · simp [writeFile, hformat]
      | some old =>
        by_cases hformat : format = vol.format
        · subst hformat
          simp [hf]
        · simp [hformat]
    · rfl
  · simp only [hj, if_false]
    apply Copy.ext
    · funext format
      simp only [copy]
      cases hf : h.files (.disk vol.id vol.format) with
      | none => simp [writeFile, Ne.symm hj]
      | some old => rfl
    · simp only [copy]
      cases hf : h.files (.disk vol.id vol.format) with
      | none => rfl
      | some old => rfl

theorem Host.ensureLocal_node (env : Env) (n : NodeId) (h : Host β) (vol : VolumeRecord) :
    (h.ensureLocal env n vol).1.node.cluster = h.node.cluster ∧
      (h.ensureLocal env n vol).1.node.store = h.node.store := by
  unfold ensureLocal
  split
  · exact ⟨rfl, rfl⟩
  · dsimp only
    split
    · exact ⟨rfl, rfl⟩
    · exact ⟨rfl, rfl⟩

theorem Host.copy_writeBlob {bytes : β} {stored : VolumeRecord}
    (hw : h.writeBlobFromPath id bytes = .ok (t, stored)) (j : VolumeId) :
    t.copy j = if j = id then (h.copy j).write bytes else h.copy j := by
  obtain ⟨record, hr, hb, hfiles, hget, hother, -⟩ := writeBlobFromPath_ok hw
  have hid := id_of_getVolume hr
  by_cases hj : j = id
  · subst hj
    rw [if_pos rfl]
    apply Copy.ext
    · funext format
      simp only [copy, hfiles, Copy.write, hr, hb, Bool.false_eq_true, if_false]
      by_cases hformat : format = record.format
      · subst hformat
        simp
      · simp [hformat]
    · simp only [copy, hget, Copy.write, hr, hb, Bool.false_eq_true, if_false, hid]
  · rw [if_neg hj]
    apply Copy.ext
    · funext format
      simp [copy, hfiles, hj]
    · exact hother j hj

theorem Host.writeBlob_exists (hr : h.getVolume id = some record)
    (hb : record.backend.external = false) (bytes : β) :
    ∃ t stored, h.writeBlobFromPath id bytes = .ok (t, stored) := by
  unfold writeBlobFromPath
  simp [hr, hb]

theorem lacksSpace_none_iff (s d : Host β) {file : β} (hid : record.id = id) :
    lacksSpace env s n d record file = none ↔
      (decide (Answers env s n (.free id)) &&
        match env.freeMib n (.free id) with
        | some free =>
          decide (saturatingMul free mib < saturatingAdd (allocated file) (1024 * mib))
        | none => false) = false := by
  subst hid
  unfold lacksSpace peerVolumeStatRemote
  by_cases hans : Answers env s n (.free record.id)
  · rw [call_answers hans]
    cases hfree : env.freeMib n (.free record.id) with
    | none => simp [Host.volumeStat, hfree]
    | some free => simp [Host.volumeStat, hfree, hans]
  · simp only [hans, decide_false, Bool.false_and, iff_true]
    split
    · rfl
    · rename_i stat hcall
      exact absurd (call_ok hcall).1 hans

theorem requireStorageBytes_ok_iff (what : String) {request : Request} {need : Nat} :
    Host.requireStorageBytes env n request need what = .ok () ↔
      (match env.freeMib n request with
        | some free => decide (saturatingAdd (divCeil need mib) 1024 ≤ free)
        | none => true) = true := by
  unfold Host.requireStorageBytes
  cases env.freeMib n request with
  | none => simp
  | some free =>
    by_cases hlt : free < saturatingAdd (divCeil need mib) 1024
    · simp [hlt]
    · simp [hlt, Nat.not_lt.mp hlt]

theorem sameSize_copy {file : β} (hr : d.getVolume id = some record)
    (hb : record.backend.external = false) :
    sameSize env s n d id file =
      (decide (0 < len file) && decide (Answers env s n (.stat id)) &&
        match (d.copy id).file record.format with
        | some old => len old == len file
        | none => false) := by
  have hfile : d.volumeFile id = (d.copy id).file record.format := by
    rw [Host.volumeFile_of_get hr, Host.path_of_getVolume hr hb]
    rfl
  rw [Bool.eq_iff_iff, sameSize_iff, hfile]
  cases (d.copy id).file record.format with
  | none => simp
  | some old => simp [and_assoc]

/-- One push, seen on the two copies. -/
theorem peerPutBlob_accepted {file : β} (hr : s.getVolume id = some record)
    (hb : record.backend.external = false) (hf : s.files record.path = some file)
    (ha : (d.copy id).accepts env s n id file = true) :
    ∃ d' stored, peerPutBlob env n s d id = .ok d' ∧
      d.writeBlobFromPath id file = .ok (d', stored) := by
  unfold Copy.accepts at ha
  cases hd : (d.copy id).record with
  | none => simp [hd] at ha
  | some there =>
    simp only [hd, Bool.and_eq_true, Bool.not_eq_eq_eq_not, Bool.not_true] at ha
    obtain ⟨⟨⟨⟨hext, hsame⟩, hknown⟩, hput⟩, hroom⟩ := ha
    have hget : d.getVolume id = some there := hd
    rw [← sameSize_copy hget hext] at hsame
    have hspace := (lacksSpace_none_iff s d (Host.id_of_getVolume hr)).mpr hknown
    have hans : Answers env s n (.put id) := by simpa using hput
    have hstore := (requireStorageBytes_ok_iff "volume replica").mpr hroom
    obtain ⟨t, stored, hw⟩ := Host.writeBlob_exists hget hext file
    refine ⟨t, stored, ?_, hw⟩
    have hhandler : d.peerVolumeBlobPut env n id (some (allocated file)) file =
        .ok (t, stored) := by
      unfold Host.peerVolumeBlobPut
      simp only [hget, Option.getD_some, hstore, hw]
    simp only [peerPutBlob, hr, hb, hf, hsame, hspace, hhandler, call_answers hans,
      Bool.false_eq_true, if_false]

theorem peerPutBlob_refused {file : β} (hr : s.getVolume id = some record)
    (hb : record.backend.external = false) (hf : s.files record.path = some file)
    (ha : (d.copy id).accepts env s n id file = false)
    (h : peerPutBlob env n s d id = .ok d') : d' = d := by
  rcases peerPutBlob_ok hr hb hf h with ⟨_, hkeep⟩ | ⟨hsame, hans, stored, hw⟩
  · exact hkeep
  · exfalso
    obtain ⟨there, hget, hext, -⟩ := Host.writeBlobFromPath_ok hw
    have hd : (d.copy id).record = some there := hget
    have hspace : lacksSpace env s n d record file = none := by
      simp only [peerPutBlob, hr, hb, hf, hsame, Bool.false_eq_true, if_false] at h
      split at h
      · cases h
      · assumption
    have hhandler : ∃ done, d.peerVolumeBlobPut env n id (some (allocated file)) file =
        .ok done := by
      simp only [peerPutBlob, hr, hb, hf, hsame, hspace, Bool.false_eq_true, if_false] at h
      split at h
      · cases h
      · rename_i hcall
        exact ⟨_, (call_ok hcall).2⟩
    obtain ⟨done, hdone⟩ := hhandler
    have hstore : Host.requireStorageBytes env n (.put id) (allocated file) "volume replica" =
        .ok () := by
      unfold Host.peerVolumeBlobPut at hdone
      simp only [hget, Option.getD_some] at hdone
      split at hdone
      · cases hdone
      · assumption
    have hknown := (lacksSpace_none_iff s d (Host.id_of_getVolume hr)).mp hspace
    have hroom := (requireStorageBytes_ok_iff _).mp hstore
    rw [sameSize_copy hget hext] at hsame
    unfold Copy.accepts at ha
    simp [hd, hext, hsame, hknown, hans, hroom] at ha

end Pertisk.Storage
