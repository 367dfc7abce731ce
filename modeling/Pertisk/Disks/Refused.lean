import Pertisk.Disks.Requests
import Pertisk.Storage.Copies
import Pertisk.Store.Ids

namespace Pertisk.Disks
open Lib Storage Volume

variable {α β : Type} {p q : VolumePool β}

/-- A request that is refused leaves everything as it was; one whose files or commands fail need
not. -/
def KeepsOnRefusal (p : VolumePool β) (r : VolumePool β × Except Fault α) : Prop :=
  ∀ text, r.2 = .error (.refused text) → r.1 = p

/-- It is never refused. -/
def OnlyFails (r : VolumePool β × Except Fault α) : Prop :=
  ∀ fault, r.2 = .error fault → ∃ text, fault = .failed text

theorem keeps_same (outcome : Except Fault α) : KeepsOnRefusal p (p, outcome) := fun _ _ => rfl

theorem keeps_refused_iff {text : String} :
    KeepsOnRefusal p ((q, .error (.refused text)) : VolumePool β × Except Fault α) ↔ q = p :=
  ⟨fun h => h text rfl, fun h _ _ => h⟩

theorem OnlyFails.keeps {r : VolumePool β × Except Fault α} (h : OnlyFails r) :
    KeepsOnRefusal p r := by
  intro text hr
  obtain ⟨other, hother⟩ := h _ hr
  cases hother

theorem onlyFails_ok (done : α) : OnlyFails (q, .ok done) := nofun

theorem onlyFails_failed (text : String) :
    OnlyFails ((q, .error (.failed text)) : VolumePool β × Except Fault α) := by
  intro fault h
  cases h
  exact ⟨text, rfl⟩

theorem OnlyFails.error {fault : Fault}
    (h : OnlyFails ((q, .error fault) : VolumePool β × Except Fault α)) {γ : Type} :
    OnlyFails ((q, .error fault) : VolumePool β × Except Fault γ) := by
  obtain ⟨text, rfl⟩ := h fault rfl
  exact onlyFails_failed text

/-- What is known of one half of an outcome, for the request that passes its fault on. -/
theorem OnlyFails.passed {r : VolumePool β × Except Fault α} (h : OnlyFails r) {fault : Fault}
    (hr : r = (q, .error fault)) {γ : Type} :
    KeepsOnRefusal p ((q, .error fault) : VolumePool β × Except Fault γ) := by
  subst hr
  exact (OnlyFails.error h).keeps

namespace VolumePool

theorem set_same {s : Spot} {image : Option (Image β)} (h : p.images s = image) :
    p.set s image = p := by
  unfold set
  rw [← h, Function.update_eq_self]

theorem set_ne {s : Spot} {image : Option (Image β)} (h : p.images s ≠ image) :
    p.set s image ≠ p := by
  intro heq
  refine h ?_
  have himages := congrArg (fun q => q.images s) heq
  simp only [set, Function.update_self] at himages
  exact himages.symm

theorem write_onlyFails {s : Spot} {image : Image β}
    {command : Option (String × Option (Image β))} : OnlyFails (p.write s image command) := by
  unfold write
  split
  · exact onlyFails_ok ()
  · exact onlyFails_failed _
  · exact onlyFails_failed _

theorem write_ok {s : Spot} {image : Image β} {command : Option (String × Option (Image β))}
    (h : p.write s image command = (q, .ok ())) : command = none ∧ q = p.set s (some image) := by
  unfold write at h
  split at h
  · cases h
    exact ⟨rfl, rfl⟩
  · cases h
  · cases h

theorem image_ok {s : Spot} {image : Image β} (h : p.image s = .ok image) : p.images s = some image := by
  unfold VolumePool.image at h
  split at h
  · rename_i hsome
    cases h
    exact hsome
  · cases h

theorem image_fault {s : Spot} {fault : Fault} (h : p.image s = .error fault) :
    ∃ text, fault = .failed text := by
  unfold image at h
  split at h
  · cases h
  · cases h
    exact ⟨_, rfl⟩

theorem upsertVolume_onlyFails {record : VolumeRecord} {flush : Option String} :
    OnlyFails (p.upsertVolume record flush) := by
  unfold upsertVolume
  cases flush with
  | none => exact onlyFails_ok _
  | some text => exact onlyFails_failed text

theorem insertIso_onlyFails {record : IsoRecord} {flush : Option String} :
    OnlyFails (p.insertIso record flush) := by
  unfold insertIso
  cases flush with
  | none => exact onlyFails_ok _
  | some text => exact onlyFails_failed text

theorem finish_fst {r : VolumePool β × Except Fault α} {bump : Option String} :
    (finish r bump).1 = r.1 := by
  obtain ⟨q, outcome⟩ := r
  cases outcome with
  | error fault => rfl
  | ok done => cases bump <;> rfl

theorem finish_keeps_iff {r : VolumePool β × Except Fault α} {bump : Option String} :
    KeepsOnRefusal p (finish r bump) ↔ KeepsOnRefusal p r := by
  obtain ⟨q, outcome⟩ := r
  cases outcome with
  | error fault => rfl
  | ok done =>
    refine iff_of_true ?_ (onlyFails_ok done).keeps
    unfold finish
    cases bump with
    | none => exact (onlyFails_ok done).keeps
    | some text => exact (onlyFails_failed text).keeps

end VolumePool

theorem ended_keeps_iff {r : VolumePool β × Except Fault α} :
    KeepsOnRefusal p (Request.ended r) ↔ KeepsOnRefusal p r := by
  obtain ⟨q, outcome⟩ := r
  cases outcome with
  | error fault =>
    unfold KeepsOnRefusal Request.ended Except.map
    simp
  | ok done => exact iff_of_true (onlyFails_ok ()).keeps (onlyFails_ok done).keeps

namespace VolumePool

theorem capture_onlyFails {s : Spot} {r : VolumeRecord} {image : Image β} {snap : VolumeSnapshot}
    {command : Option (String × Option (Image β))} :
    OnlyFails (p.capture s r image snap command) := by
  unfold capture
  split
  · split
    · exact onlyFails_failed _
    · exact write_onlyFails
  · exact write_onlyFails

theorem copyOutside_onlyFails {backend : StorageBackend} {linked : Bool} {name : String}
    {image : Image β} {command : Option (String × Option (Image β))} :
    OnlyFails (p.copyOutside backend linked name image command) := by
  unfold copyOutside
  dsimp only
  split
  · exact onlyFails_failed _
  · exact write_onlyFails

theorem snapshot_keeps {luck : Luck β} {now : Nat} {id : VolumeId} {name : String}
    {notes : Option String} : KeepsOnRefusal p (p.snapshot luck now id name notes) := by
  unfold snapshot
  split
  · exact keeps_same _
  · split
    · exact keeps_same _
    · dsimp only
      split
      · exact keeps_same _
      · exact keeps_same _
      · split
        · exact keeps_same _
        · split
          · rename_i hcapture
            exact capture_onlyFails.passed hcapture
          · exact upsertVolume_onlyFails.keeps

theorem cloneVolume_keeps {luck : Luck β} {converts : Bool} {id newId : VolumeId}
    {req : CloneVolumeRequest} : KeepsOnRefusal p (p.cloneVolume luck converts id newId req) := by
  unfold cloneVolume
  split
  · exact keeps_same _
  · split
    · exact keeps_same _
    · split
      · exact keeps_same _
      · split
        · exact keeps_same _
        · dsimp only
          split
          · rename_i hwrite
            exact write_onlyFails.passed hwrite
          · exact upsertVolume_onlyFails.keeps

theorem cloneOutside_keeps {a : Site} {luck next : Luck β} {source : VolumeRecord}
    {newId : VolumeId} {req : CloneVolumeRequest} :
    KeepsOnRefusal p (p.cloneOutside a luck next source newId req) := by
  unfold cloneOutside
  split
  · exact keeps_same _
  · split
    · exact keeps_same _
    · dsimp only
      split
      · rename_i hsnapped
        split at hsnapped
        · rw [← hsnapped]
          exact snapshot_keeps
        · cases hsnapped
      · split
        · rename_i himage
          obtain ⟨text, rfl⟩ := image_fault himage
          exact (onlyFails_failed text).keeps
        · split
          · rename_i hcopy
            exact copyOutside_onlyFails.passed hcopy
          · exact upsertVolume_onlyFails.keeps

theorem resize_keeps {luck : Luck β} {grown : β → Nat → β} {id : VolumeId} {sizeBytes : Nat} :
    KeepsOnRefusal p (p.resize luck grown id sizeBytes) := by
  unfold resize
  split
  · exact keeps_same _
  · split
    · exact keeps_same _
    · split
      · exact keeps_same _
      · split
        · exact keeps_same _
        · dsimp only
          split
          · exact keeps_same _
          · split
            · rename_i hwrite
              exact write_onlyFails.passed hwrite
            · exact upsertVolume_onlyFails.keeps

theorem resizeOutside_keeps {a : Site} {luck : Luck β} {grown : β → Nat → β}
    {current : VolumeRecord} {sizeBytes : Nat} :
    KeepsOnRefusal p (p.resizeOutside a luck grown current sizeBytes) := by
  unfold resizeOutside
  split
  · exact keeps_same _
  · split
    · exact upsertVolume_onlyFails.keeps
    · split
      · exact keeps_same _
      · split
        · exact keeps_same _
        · split
          · exact keeps_same _
          · split
            · rename_i hwrite
              exact write_onlyFails.passed hwrite
            · exact upsertVolume_onlyFails.keeps

theorem requestResize_keeps {a : Site} {luck : Luck β} {grown : β → Nat → β} {id : VolumeId}
    {sizeBytes : Nat} : KeepsOnRefusal p (p.requestResize a luck grown id sizeBytes) := by
  unfold requestResize
  split
  · exact keeps_same _
  · split
    · exact keeps_same _
    · split
      · exact finish_keeps_iff.mpr resizeOutside_keeps
      · exact finish_keeps_iff.mpr resize_keeps

variable [Contents β]

theorem makeOutside_onlyFails {backend : StorageBackend} {name : String} {sizeBytes : Nat}
    {command : Option (String × Option (Image β))} :
    OnlyFails (p.makeOutside backend name sizeBytes command) := by
  unfold makeOutside
  dsimp only
  split
  · exact write_onlyFails
  · exact onlyFails_ok ()
  · exact onlyFails_failed _
  · exact onlyFails_failed _

theorem requestClone_keeps {a : Site} {luck next : Luck β} {converts : Bool}
    {id newId : VolumeId} {req : CloneVolumeRequest} :
    KeepsOnRefusal p (p.requestClone a luck next converts id newId req) := by
  unfold requestClone
  split
  · exact keeps_same _
  · split
    · exact keeps_same _
    · split
      · exact finish_keeps_iff.mpr cloneOutside_keeps
      · dsimp only
        split
        · exact keeps_same _
        · split
          · rename_i hclone
            rw [← hclone]
            exact cloneVolume_keeps
          · exact finish_keeps_iff.mpr upsertVolume_onlyFails.keeps

end VolumePool

end Pertisk.Disks

namespace Pertisk.Disks
open Lib Storage Volume

def emptyPool : VolumePool Bytes where
  root := []
  qemu := false
  rbd := Rbd.new none
  zfs := Zfs.new none
  volumes := .empty
  isos := .empty
  images := fun _ => none

namespace VolumePool

variable {β : Type} {p : VolumePool β} {id other : VolumeId} {format format' : VolumeFormat}

theorem getVolume_ok {r : VolumeRecord} (h : p.getVolume id = .ok r) :
    ∃ v ∈ p.volumes.rows, v.record = r ∧ r.id = id := by
  unfold getVolume at h
  split at h
  · rename_i v hget
    cases h
    have hid : v.id = id := Table.key_of_get hget
    exact ⟨v, Table.mem_of_get hget, rfl, hid⟩
  · cases h

theorem extension_inj (h : extension format = extension format') : format = format' := by
  revert h
  cases format <;> cases format' <;> decide

theorem dotted_toList (stem ext : String) :
    s!"{stem}.{ext}".toList = stem.toList ++ '.' :: ext.toList := by
  rw [show s!"{stem}.{ext}" = stem ++ "." ++ ext from rfl]
  simp

/-- Different volumes have different files. -/
theorem localPath_inj (hid : id < 2 ^ 128) (hother : other < 2 ^ 128)
    (h : p.localPath id format = p.localPath other format') : id = other ∧ format = format' := by
  unfold localPath at h
  have hnames := List.append_cancel_left h
  simp only [List.cons.injEq, and_true, true_and, dotted_toList] at hnames
  have hlen : (uuidText id).toList.length = (uuidText other).toList.length := by
    rw [Store.uuidText_length hid, Store.uuidText_length hother]
  obtain ⟨htext, hext⟩ := List.append_inj hnames hlen
  refine ⟨Store.uuidText_inj hid hother (String.toList_inj.mp htext), ?_⟩
  exact extension_inj (String.toList_inj.mp (List.cons.inj hext).2)

end VolumePool

end Pertisk.Disks
