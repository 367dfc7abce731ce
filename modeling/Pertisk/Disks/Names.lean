import Pertisk.Disks.Notes
import Pertisk.Disks.Turns
import Pertisk.Lib.Pairs

namespace Pertisk.Disks
open Lib Storage Volume

namespace VolumePool

variable {β : Type} {p q : VolumePool β} {s : Spot} {image : Image β}
  {command : Option (String × Option (Image β))}

/-- No two volumes have the same name. -/
def NamesUnique (p : VolumePool β) : Prop :=
  Table.Pairs (fun _ => True) (fun v u => v.record.name ≠ u.record.name) p.volumes

/-- No other volume has the record's name. -/
def NameFree (p : VolumePool β) (record : VolumeRecord) : Prop :=
  ∀ v ∈ p.volumes.rows, v.id ≠ record.id → v.record.name ≠ record.name

instance (p : VolumePool β) (record : VolumeRecord) : Decidable (p.NameFree record) :=
  inferInstanceAs (Decidable (∀ v ∈ _, _ → _))

theorem ofRecord_name (record : VolumeRecord) :
    (StoredVolume.ofRecord record).record.name = record.name := by
  change record.localize.name = record.name
  unfold VolumeRecord.localize
  split <;> rfl

theorem namesUnique_insert_iff (h : p.NamesUnique) (record : VolumeRecord) :
    Table.Pairs (fun _ => True) (fun v u => v.record.name ≠ u.record.name)
      (p.volumes.insert (.ofRecord record)) ↔ p.NameFree record := by
  unfold NamesUnique at h
  rw [Table.pairs_insert_iff (fun _ _ hne => Ne.symm hne) h]
  have hid : (StoredVolume.ofRecord record).id = record.id := StoredVolume.ofRecord_id record
  unfold NameFree
  rw [← hid, ← ofRecord_name record]
  constructor
  · intro hfits v hv hne
    exact (hfits.others v hv hne).symm
  · intro hfree
    exact ⟨trivial, fun v hv hne => (hfree v hv hne).symm⟩

theorem write_volumes : (p.write s image command).1.volumes = p.volumes := by
  unfold write
  split <;> rfl

theorem makeOutside_volumes [Contents β] {backend : StorageBackend} {name : String}
    {sizeBytes : Nat} : (p.makeOutside backend name sizeBytes command).1.volumes = p.volumes := by
  unfold makeOutside
  dsimp only
  split
  · exact write_volumes
  · rfl
  · rfl
  · rfl

theorem copyOutside_volumes {backend : StorageBackend} {linked : Bool} {name : String} :
    (p.copyOutside backend linked name image command).1.volumes = p.volumes := by
  unfold copyOutside
  dsimp only
  split
  · rfl
  · exact write_volumes

theorem capture_volumes {r : VolumeRecord} {snap : VolumeSnapshot} :
    (p.capture s r image snap command).1.volumes = p.volumes := by
  unfold capture
  split
  · split
    · rfl
    · exact write_volumes
  · exact write_volumes

theorem moveOutside_volumes {dest : Spot} :
    (p.moveOutside s dest command).1.volumes = p.volumes := by
  unfold moveOutside
  split <;> rfl

theorem createCloudinitIso_volumes [Contents β] {luck : Luck β} {req : CloudInitIsoRequest}
    {bytes : β} : (p.createCloudinitIso luck req bytes).1.volumes = p.volumes := by
  unfold createCloudinitIso
  split
  · rfl
  · rename_i name hname
    have hkept : (p.write (.file (p.isoPath name)) (plain bytes) luck.command).1.volumes =
        p.volumes := write_volumes
    split
    · rename_i hwrite
      rw [hwrite] at hkept
      exact hkept
    · rename_i hwrite
      rw [hwrite] at hkept
      split
      · exact hkept
      · exact hkept

end VolumePool

namespace Task

variable {β : Type} {a : Site} {luck : Luck β} {p : VolumePool β}

theorem after_volumes {α : Type} {r : VolumePool β × Except Fault α}
    {next : VolumePool β → α → Option (Task β)} : (after r next).1 = r.1 := by
  obtain ⟨q, outcome⟩ := r
  cases outcome <;> rfl

/-- The record that the next turn puts into the inventory. -/
def puts : Task β → Option VolumeRecord
  | .put record _ => some record
  | _ => none

theorem turn_puts [Contents β] {task : Task β} {record : VolumeRecord}
    (h : task.puts = some record) :
    (task.turn a luck p).1.volumes = p.volumes.insert (.ofRecord record) := by
  cases task with
  | put record' rest =>
    cases h
    unfold turn
    dsimp only
    rw [after_volumes]
    rfl
  | _ => cases h

/-- A turn that puts no record leaves the inventory. -/
theorem turn_keeps [Contents β] {task : Task β} (h : task.puts = none) :
    (task.turn a luck p).1.volumes = p.volumes := by
  cases task with
  | call asked =>
    cases asked with
    | create | clone | rename => rfl
    | cloudinit req bytes =>
      unfold turn begin
      dsimp only
      rw [after_volumes, VolumePool.createCloudinitIso_volumes]
  | makeFile id req configured =>
    unfold turn
    dsimp only
    rw [after_volumes, VolumePool.write_volumes]
  | makeOutside backend id req =>
    unfold turn
    dsimp only
    rw [after_volumes, VolumePool.makeOutside_volumes]
  | copyFile converts source newId req =>
    unfold turn
    dsimp only
    split
    · rfl
    · rw [after_volumes, VolumePool.write_volumes]
  | tag now record source newId req =>
    unfold turn
    dsimp only
    split
    · rfl
    · split
      · rfl
      · rw [after_volumes, VolumePool.capture_volumes]
  | copyOutside source newId req =>
    unfold turn
    dsimp only
    split
    · rfl
    · split
      · rfl
      · rw [after_volumes, VolumePool.copyOutside_volumes]
  | moveOutside current name =>
    unfold turn
    dsimp only
    split
    · rfl
    · rw [after_volumes, VolumePool.moveOutside_volumes]
  | put record rest => cases h
  | createFile | readNote | cloneFile | cloneNamed | readSource | renameFile | readNamed => rfl

end Task

namespace Desk

variable {β : Type} {d e : Desk β}

/-- A record that is put into the inventory has a name that no other volume has by then. -/
def PutsFree (d : Desk β) : Turn β → Prop
  | .arrive _ => True
  | .turn i _ _ => ∀ record ∈ d.tasks[i]?.bind Task.puts, d.pool.NameFree record

instance (d : Desk β) : ∀ act, Decidable (d.PutsFree act)
  | .arrive _ => .isTrue trivial
  | .turn i _ _ => inferInstanceAs (Decidable (∀ record ∈ d.tasks[i]?.bind Task.puts, _))

theorem step_names [Contents β] {act : Turn β} (hunique : d.pool.NamesUnique)
    (h : Steps step d act e) : e.pool.NamesUnique ↔ d.PutsFree act := by
  cases act with
  | arrive asked =>
    cases h
    exact iff_of_true hunique trivial
  | turn i a luck =>
    unfold Steps step at h
    dsimp only at h
    cases htask : d.tasks[i]? with
    | none => simp only [htask, reduceCtorEq] at h
    | some task =>
      simp only [htask] at h
      have hvolumes : e.pool.volumes = (task.turn a luck d.pool).1.volumes := by
        split at h <;> rename_i hturn <;> cases h <;> rw [hturn]
      unfold PutsFree VolumePool.NamesUnique
      rw [hvolumes]
      dsimp only
      rw [htask, Option.bind_some]
      cases hputs : task.puts with
      | none =>
        rw [Task.turn_keeps hputs]
        exact iff_of_true hunique nofun
      | some record =>
        rw [Task.turn_puts hputs]
        refine (VolumePool.namesUnique_insert_iff hunique record).trans ⟨?_, ?_⟩
        · intro hfree record' hrecord
          cases hrecord
          exact hfree
        · intro hfree
          exact hfree record rfl

end Desk

def rbdSite : Site := { loneSite with cli := fun _ => true }

def emptyDesk : Desk Bytes := { pool := emptyPool, tasks := [] }

/-- A volume of one byte, in a file or in a backend. -/
def dataRequest (backend : StorageBackend) : CreateVolumeRequest where
  name := "data"
  sizeBytes := 1
  backend := some backend

/-- The request's turns, one after the other, with nothing else under way. -/
def alone (turns : Nat) (asked : Call Bytes) : List (Turn Bytes) :=
  .arrive asked :: List.replicate turns (.turn 0 rbdSite {})

def twoFiles : List (Turn Bytes) :=
  alone 5 (.create 7 (dataRequest .replica) none) ++ alone 2 (.create 8 (dataRequest .replica) none)

/-- The image of a backend gets the name of a file. -/
def fileThenImage : List (Turn Bytes) :=
  alone 5 (.create 7 (dataRequest .replica) none) ++ alone 3 (.create 8 (dataRequest .rbd) none)

end Pertisk.Disks
