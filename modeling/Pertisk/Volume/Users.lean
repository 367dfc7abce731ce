import Pertisk.Node

namespace Pertisk
open Lib

def Cluster.quorumError (c : Cluster) (now : Nat) : Option String :=
  if !c.hasQuorum now then some "no cluster quorum"
  else if c.fenced then some "node is fenced (lost quorum)"
  else none

def VmRecord.usesVolume (vm : VmRecord) (id : VolumeId) : Bool :=
  vm.spec.disks.any (fun disk => disk.volumeId == some id)

namespace Node

variable (n : Node)

def volumeUsers (id : VolumeId) : List VmId :=
  (n.store.rows.filter (fun vm => vm.usesVolume id)).map VmRecord.id

def runningVolumeUsers (id : VolumeId) : List VmId :=
  (n.store.rows.filter (fun vm => vm.usesVolume id && vm.state == .running)).map VmRecord.id

def requireVolumeIdle (id : VolumeId) : Except String Unit :=
  match n.runningVolumeUsers id with
  | [] => .ok ()
  | vm :: _ => .error s!"vm {vm.text} must be stopped to change disk"

def volumeIsBacking (id : VolumeId) : Bool :=
  n.listVolumes.any (fun vol => vol.backingId == some id)

/-- Guests that use the volume get its new path. -/
def repath (record : VolumeRecord) : Node :=
  let set (vm : VmRecord) : VmRecord :=
    { vm with spec := { vm.spec with disks := vm.spec.disks.map (fun disk =>
      if disk.volumeId = some record.id then { disk with path := record.path } else disk) } }
  { n with store := n.store.mapRows set (fun _ => rfl) }

@[simp] theorem bump_volumes : n.bump.volumes = n.volumes := rfl

@[simp] theorem getVolume_bump (id : VolumeId) : n.bump.getVolume id = n.getVolume id := rfl

theorem getVolume_putRecord (record : VolumeRecord) (id : VolumeId) :
    (n.putRecord record).getVolume id =
      if record.id = id then some record.localize else n.getVolume id := by
  unfold getVolume putRecord
  rw [Table.get_insert, StoredVolume.ofRecord_id]
  split <;> rfl

theorem getVolume_removeVolume (id j : VolumeId) :
    (n.removeVolume id).getVolume j = if j = id then none else n.getVolume j := by
  unfold getVolume removeVolume
  rw [Table.get_erase]
  split <;> rfl

theorem getVolume_id {id : VolumeId} {record : VolumeRecord} (h : n.getVolume id = some record) :
    record.id = id := by
  obtain ⟨stored, hget, rfl⟩ := Option.map_eq_some_iff.mp h
  have hid : stored.id = id := Table.key_of_get hget
  exact hid

theorem requireVolumeIdle_ok {id : VolumeId} :
    n.requireVolumeIdle id = .ok () ↔
      ∀ vm ∈ n.store.rows, vm.usesVolume id = true → vm.state ≠ .running := by
  unfold requireVolumeIdle runningVolumeUsers
  constructor
  · intro h vm hvm huses hrunning
    have hmem : vm.id ∈ (n.store.rows.filter
        (fun vm => vm.usesVolume id && vm.state == .running)).map VmRecord.id :=
      List.mem_map_of_mem (List.mem_filter.mpr ⟨hvm, by simp [huses, hrunning]⟩)
    split at h
    · rename_i hnil
      rw [hnil] at hmem
      cases hmem
    · cases h
  · intro h
    have hnil : n.store.rows.filter (fun vm => vm.usesVolume id && vm.state == .running) = [] := by
      rw [List.filter_eq_nil_iff]
      intro vm hvm hboth
      simp only [Bool.and_eq_true, beq_iff_eq] at hboth
      exact h vm hvm hboth.1 hboth.2
    rw [hnil]
    rfl

end Node

namespace Volume

def cleanVolumeNotes : Option String → Except String (Option String)
  | none => .ok none
  | some notes =>
    let notes := PeerUrl.trim notes.toList
    if 500 < notes.length then .error "notes are limited to 500 characters"
    else .ok (if notes.isEmpty then none else some (String.ofList notes))

end Volume

end Pertisk
