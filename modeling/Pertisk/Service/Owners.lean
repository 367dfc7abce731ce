import Pertisk.Lib.Pairs
import Pertisk.Service.Aside

namespace Pertisk.Service
open Lib Op Volume Storage

/-- The volumes among the disks; an ISO has a name instead. -/
def volumeIds (vm : VmRecord) : List VolumeId := vm.spec.disks.filterMap DiskSpec.volumeId

def Alone (vm other : VmRecord) : Prop := ∀ v ∈ volumeIds vm, v ∉ volumeIds other

/-- No volume is among the disks of two guests. -/
def Exclusive (vms : Vms) : Prop := vms.Pairs (fun _ => True) Alone

/-- No guest has a volume of the list. -/
def Untaken (vms : Vms) (volumes : List VolumeId) : Prop :=
  ∀ vm ∈ vms.rows, ∀ v ∈ volumes, v ∉ volumeIds vm

/-- The volumes are exclusive, and the guest has these. -/
structure Holds (id : VmId) (volumes : List VolumeId) (vms : Vms) : Prop where
  exclusive : Exclusive vms
  has : ∃ vm, vms.get id = some vm ∧ volumeIds vm = volumes

/-- A record of the guest, with its volumes. -/
def Of (id : VmId) (volumes : List VolumeId) (r : VmRecord) : Prop :=
  r.id = id ∧ volumeIds r = volumes

variable {env : Env} {J : Vms → Prop} {vms : Vms} {vm r : VmRecord} {id : VmId}
  {volumes : List VolumeId} {b : Noted Book.generation} {α : Type}

theorem mem_volumeIds {v : VolumeId} : v ∈ volumeIds vm ↔ vm.usesVolume v = true := by
  simp [volumeIds, VmRecord.usesVolume]

/-- Other paths of the same volumes. -/
theorem volumeIds_of_map {disks : List DiskSpec}
    (h : disks.map DiskSpec.volumeId = vm.spec.disks.map DiskSpec.volumeId) :
    volumeIds { vm with spec := { vm.spec with disks := disks } } = volumeIds vm := by
  have heq := congrArg (List.filterMap (fun v => v)) h
  rwa [List.filterMap_map, List.filterMap_map] at heq

theorem alone_symm (x y : VmRecord) (h : Alone x y) : Alone y x := fun v hy hx => h v hx hy

theorem exclusive_insert (h : Exclusive vms)
    (hr : ∀ vm ∈ vms.rows, vm.id ≠ r.id → Alone r vm) : Exclusive (vms.insert r) :=
  (Table.pairs_insert_iff alone_symm h).mpr ⟨trivial, hr⟩

/-- A record that has no other volumes than the one it replaces. -/
theorem exclusive_replace (h : Exclusive vms) (hget : vms.get r.id = some vm)
    (hsub : ∀ v ∈ volumeIds r, v ∈ volumeIds vm) : Exclusive (vms.insert r) := by
  refine exclusive_insert h (fun other hother hne v hv => ?_)
  have hid : vm.id ≠ other.id := by
    rw [Table.key_of_get hget]
    exact hne.symm
  exact h.two vm (Table.mem_of_get hget) other hother hid v (hsub v hv)

theorem Holds.insert (h : Holds id volumes vms) (hid : r.id = id) (hr : volumeIds r = volumes) :
    Holds id volumes (vms.insert r) := by
  obtain ⟨vm, hget, hvm⟩ := h.has
  refine ⟨exclusive_replace h.exclusive (hid.symm ▸ hget) (fun v hv => ?_), r, ?_, hr⟩
  · rw [hvm, ← hr]
    exact hv
  · rw [Table.get_insert, if_pos hid]

theorem Holds.get (h : Holds id volumes vms) (hget : vms.get id = some vm) :
    volumeIds vm = volumes := by
  obtain ⟨found, hfound, hvm⟩ := h.has
  rw [hget] at hfound
  cases hfound
  exact hvm

theorem getVm_run (id : VmId) (b : Noted Book.generation) : getVm id b =
    match b.state.node.store.get id with
    | some vm => (.ok vm, b)
    | none => (.error (.other s!"vm not found: {id.text}"), b) := by
  unfold getVm
  rw [Proc.bind_run]
  cases h : b.state.node.store.get id with
  | none => simp only [Op.node, Proc.look, id_eq, h]; rfl
  | some vm => simp only [Op.node, Proc.look, id_eq, h]; rfl

/-- A record is read, and what follows keeps the guest's volumes as they are in it. -/
theorem exclusive_getVm_bind {f : VmRecord → Op α}
    (h : ∀ vm, vm.id = id → Proc.Upholds (OnStore (Holds id (volumeIds vm))) (f vm)) :
    Proc.Upholds (OnStore Exclusive) (getVm id >>= f) := by
  intro b hb
  rw [Proc.bind_run, getVm_run]
  cases hget : b.state.node.store.get id with
  | none => exact hb
  | some vm => exact (h vm (Table.key_of_get hget) b ⟨hb, vm, hget, rfl⟩).exclusive

theorem holds_getVm_bind {f : VmRecord → Op α}
    (h : ∀ vm, vm.id = id → volumeIds vm = volumes → Proc.Upholds (OnStore (Holds id volumes)) (f vm)) :
    Proc.Upholds (OnStore (Holds id volumes)) (getVm id >>= f) := by
  intro b hb
  rw [Proc.bind_run, getVm_run]
  cases hget : b.state.node.store.get id with
  | none => exact hb
  | some vm => exact h vm (Table.key_of_get hget) (hb.get hget) b hb

theorem holds_upsertVm (hr : Of id volumes r) :
    Proc.Upholds (OnStore (Holds id volumes)) (upsertVm r) :=
  .alter (fun _ h => Holds.insert h hr.1 hr.2)

theorem holds_upsertVm_pure (hr : Of id volumes r) :
    Proc.Upholds (OnStore (Holds id volumes)) (upsertVm r >>= fun _ => pure r) :=
  (holds_upsertVm hr).bind (fun _ => .pure _)

theorem volumeIds_withDisk (vm : VmRecord) (disk : DiskSpec) :
    volumeIds (withDisk vm disk) = volumeIds vm ++ disk.volumeId.toList := by
  unfold volumeIds withDisk
  rw [List.filterMap_append]
  cases h : disk.volumeId <;> simp [h]

theorem exclusive_attachIso (vmId : VmId) (iso : String) :
    Proc.Upholds (OnStore Exclusive) (attachIso env vmId iso) := by
  refine exclusive_getVm_bind (fun vm hid => (aside_demand _ _).bind (fun _ => ?_))
  split
  · exact .pure _
  · refine Proc.Upholds.bind (aside_ask.bind (fun o => ?_)) (fun iso => ?_)
    · split
      · exact .pure _
      · exact .check _
    · refine holds_upsertVm_pure ⟨hid, ?_⟩
      rw [volumeIds_withDisk]
      exact List.append_nil _

theorem exclusive_attachNic (vmId : VmId) (req : AttachNicRequest) :
    Proc.Upholds (OnStore Exclusive) (attachNic env vmId req) := by
  refine exclusive_getVm_bind (fun vm hid => (aside_demand _ _).bind (fun _ => ?_))
  refine aside_ask.bind (fun o => Proc.Upholds.bind (.check _) (fun nic => ?_))
  exact holds_upsertVm_pure ⟨hid, rfl⟩

theorem exclusive_updateVm {f : VmRecord → VmRecord} (hid : ∀ vm, (f vm).id = vm.id)
    (hf : ∀ vm, volumeIds (f vm) = volumeIds vm) (id : VmId) :
    Proc.Upholds (OnStore Exclusive) (updateVm id f) :=
  exclusive_getVm_bind (fun vm hvm => holds_upsertVm_pure ⟨(hid vm).trans hvm, hf vm⟩)

/-- A record is read, and what follows works on the store as it was then. -/
theorem exclusive_read {f : VmRecord → Op α} (h : ∀ vms vm, Exclusive vms → vms.get id = some vm →
      Proc.Leads (OnStore (· = vms)) (OnStore Exclusive) (f vm)) :
    Proc.Upholds (OnStore Exclusive) (getVm id >>= f) := by
  intro b hb
  rw [Proc.bind_run, getVm_run]
  cases hget : b.state.node.store.get id with
  | none => exact hb
  | some vm => exact h _ vm hb hget b rfl

theorem leads_demand {p : Prop} [Decidable p] {e : DaemonError} {f : Unit → Op α}
    (hv : Exclusive vms) (h : p → Proc.Leads (OnStore (· = vms)) (OnStore Exclusive) (f ())) :
    Proc.Leads (OnStore (· = vms)) (OnStore Exclusive) (demand p e >>= f) := by
  intro b hb
  by_cases hp : p
  · have hrun : demand p e b = (.ok (), b) := by simp [demand, hp, Op.check, Proc.check]
    rw [Proc.bind_run, hrun]
    exact h hp b hb
  · have hrun : demand p e b = (.error e, b) := by simp [demand, hp, Op.check, Proc.check]
    rw [Proc.bind_run, hrun]
    exact onStore_of_eq hb hv

theorem leads_node {f : Node → Op α}
    (h : ∀ n, n.store = vms → Proc.Leads (OnStore (· = vms)) (OnStore Exclusive) (f n)) :
    Proc.Leads (OnStore (· = vms)) (OnStore Exclusive) (node >>= f) :=
  fun b hb => h b.state.node hb b hb

theorem leads_getVolume {v : VolumeId} {f : VolumeRecord → Op α} (hv : Exclusive vms)
    (h : ∀ volume, volume.id = v → Proc.Leads (OnStore (· = vms)) (OnStore Exclusive) (f volume)) :
    Proc.Leads (OnStore (· = vms)) (OnStore Exclusive) (getVolume v >>= f) := by
  intro b hb
  have hm := aside_getVolume v b hb
  rw [Proc.bind_run]
  rcases hrun : getVolume v b with ⟨found, m⟩
  rw [hrun] at hm
  cases found with
  | error e => exact onStore_of_eq hm hv
  | ok volume =>
    obtain ⟨-, hget⟩ := getVolume_ok hrun
    exact h volume (Node.getVolume_id _ hget) m hm

theorem leads_upsertVm_pure (h : Exclusive (vms.insert r)) :
    Proc.Leads (OnStore (· = vms)) (OnStore Exclusive) (upsertVm r >>= fun _ => pure r) := by
  refine Proc.Leads.bind (fun b hb => ?_) (fun _ => .pure _)
  have hstore : b.state.node.store = vms := hb
  subst hstore
  exact h

/-- What is kept of the disks is no more than there was. -/
theorem exclusive_detachDisk (vmId : VmId) (v : VolumeId) :
    Proc.Upholds (OnStore Exclusive) (detachDisk vmId v) := by
  refine exclusive_read (fun vms vm hv hget => leads_demand hv (fun _ => leads_upsertVm_pure ?_))
  have hid : vm.id = vmId := Table.key_of_get hget
  refine exclusive_replace hv (hid.symm ▸ hget) (fun w hw => ?_)
  obtain ⟨disk, hdisk, hvol⟩ := List.mem_filterMap.mp hw
  exact List.mem_filterMap.mpr ⟨disk, (List.mem_filter.mp hdisk).1, hvol⟩

theorem untaken_of_users {n : Node} {v : VolumeId} (h : n.volumeUsers v = []) :
    Untaken n.store [v] := by
  intro vm hvm w hw hin
  rw [List.mem_singleton.mp hw] at hin
  have hmem : vm.id ∈ n.volumeUsers v :=
    List.mem_map_of_mem (List.mem_filter.mpr ⟨hvm, mem_volumeIds.mp hin⟩)
  rw [h] at hmem
  cases hmem

theorem exclusive_attachDisk (vmId : VmId) (v : VolumeId) :
    Proc.Upholds (OnStore Exclusive) (attachDisk vmId v) := by
  refine exclusive_read (fun vms vm hv hget => leads_demand hv (fun _ => ?_))
  split
  · exact fun b hb => onStore_of_eq hb hv
  · refine leads_node (fun n hn => leads_demand hv (fun husers => ?_))
    refine leads_getVolume hv (fun volume hvolume => leads_upsertVm_pure ?_)
    have huntaken : Untaken vms [v] := hn ▸ untaken_of_users husers
    refine exclusive_insert hv (fun other hother hne w hw => ?_)
    rw [volumeIds_withDisk] at hw
    rcases List.mem_append.mp hw with hw | hw
    · exact hv.two vm (Table.mem_of_get hget) other hother hne.symm w hw
    · have hwv : w = v := by
        rw [← hvolume]
        exact List.mem_singleton.mp hw
      exact huntaken other hother w (List.mem_singleton.mpr hwv)

theorem exclusive_destroy (id : VmId) : Proc.Upholds (OnStore Exclusive) (destroy env id) := by
  refine aside_requireQuorum.bind (fun _ => aside_node.bind (fun n => ?_))
  split
  · exact .pure _
  · refine aside_ask.bind (fun o => Proc.Upholds.bind (.check _) (fun _ => ?_))
    refine Proc.Upholds.bind (.alter (fun _ h => Table.Pairs.erase h)) (fun _ => ?_)
    refine Proc.Upholds.bind (.each (fun v _ => aside_node.bind (fun n => ?_))) (fun _ => aside_bump)
    split
    · exact .pure _
    · exact aside_ignore (aside_deleteVolume v)

theorem untaken_nil : Untaken vms [] := fun _ _ _ hv => nomatch hv

/-- A guest is new, with the disks of its spec. -/
theorem leads_createGuest (requested : Option VmId) (spec : VmSpec) :
    Proc.Leads (OnStore (fun vms => Exclusive vms ∧
      Untaken vms (spec.disks.filterMap DiskSpec.volumeId))) (OnStore Exclusive)
      (createGuest env requested spec) := by
  refine aside_requireQuorum.leads_bind (fun _ h => h.1) (fun _ => ?_)
  refine Proc.Upholds.leads_bind (.check _) (fun _ h => h.1) (fun notes => ?_)
  refine Proc.Upholds.leads_bind (.check _) (fun _ h => h.1) (fun _ => ?_)
  refine Proc.Upholds.leads_bind ?_ (fun _ h => h.1) (fun dest => ?_)
  · refine aside_ask.bind (fun o => aside_node.bind (fun n => ?_))
    dsimp only
    split
    · exact .pure _
    · exact .check _
  · refine Proc.Leads.bind ?_ (fun record => aside_bump_pure record)
    refine aside_ask.leads_bind (fun _ h => h.1) (fun o => ?_)
    refine aside_node.leads_bind (fun _ h => h.1) (fun n => ?_)
    refine Proc.Upholds.leads_bind (.check _) (fun _ h => h.1) (fun id => ?_)
    refine Proc.Leads.bind (fun b hb => ?_) (fun _ => .pure _)
    exact exclusive_insert hb.1 (fun vm hvm _ v hv hin => hb.2 vm hvm v hv hin)

theorem exclusive_createGuest {requested : Option VmId} {spec : VmSpec} (h : spec.disks = []) :
    Proc.Upholds (OnStore Exclusive) (createGuest env requested spec) := by
  intro b hb
  refine leads_createGuest requested spec b ⟨hb, ?_⟩
  rw [h]
  exact untaken_nil

theorem exclusive_cloneDisks (newId : VmId) (name : String) (linked : Bool)
    (grow : Option Nat) (volumes : List VolumeId) :
    Proc.Upholds (OnStore Exclusive) (cloneDisks env newId name linked grow volumes) := by
  induction volumes generalizing grow with
  | nil => exact .pure _
  | cons v rest ih =>
    refine (aside_getVolume v).bind (fun source => aside_ask.bind (fun o => aside_node.bind (fun n => ?_)))
    refine (aside_cloneLinked v _ linked).bind (fun cloned => Proc.Upholds.bind ?_ (fun cloned => ?_))
    · split
      · exact aside_resizeVolume _ _
      · exact .pure _
    · exact (exclusive_attachDisk newId cloned.id).bind (fun _ => ih none)

theorem exclusive_seedClonedGuest (source : VmRecord) (newId : VmId) (name : String)
    (user : Option String) :
    Proc.Upholds (OnStore Exclusive) (seedClonedGuest env source newId name user) := by
  refine aside_node.bind (fun n => (aside_run _).bind (fun _ => (aside_run _).bind (fun _ => ?_)))
  refine (exclusive_attachIso newId _).bind (fun _ => aside_ignore ?_)
  refine exclusive_updateVm ?_ ?_ newId <;> exact fun _ => rfl

theorem exclusive_finishClone (source : VmRecord) (newId : VmId) (name : String)
    (req : CloneVmRequest) :
    Proc.Upholds (OnStore Exclusive) (finishClone env source newId name req) := by
  refine (exclusive_cloneDisks newId name _ _ _).bind (fun _ => aside_ask.bind (fun o => ?_))
  dsimp only
  split
  · exact (exclusive_attachNic newId _).bind (fun _ => exclusive_seedClonedGuest source newId name _)
  · exact exclusive_seedClonedGuest source newId name _

theorem exclusive_orDestroy (id : VmId) {rest : Op Unit} (h : Proc.Upholds (OnStore Exclusive) rest) :
    Proc.Upholds (OnStore Exclusive) (orDestroy env id rest) := by
  refine h.attempt.bind (fun finished => ?_)
  split
  · exact .pure _
  · exact (aside_ignore (exclusive_destroy id)).bind (fun _ => .check _)

theorem exclusive_makeClone (id : VmId) (req : CloneVmRequest) :
    Proc.Upholds (OnStore Exclusive) (makeClone env id req) := by
  refine aside_requireQuorum.bind (fun _ => (aside_getVm id).bind (fun source => ?_))
  refine (aside_demand _ _).bind (fun _ => (aside_demand _ _).bind (fun _ => ?_))
  refine aside_node.bind (fun n => (aside_demand _ _).bind (fun _ => aside_ask.bind (fun o => ?_)))
  refine Proc.Upholds.bind (.check _) (fun _ => Proc.Upholds.bind (exclusive_createGuest rfl)
    (fun created => ?_))
  refine (exclusive_orDestroy created.id (exclusive_finishClone _ _ _ req)).bind (fun _ => ?_)
  exact aside_bump_pure created

end Pertisk.Service
