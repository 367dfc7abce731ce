import Pertisk.Net.Networks
import Pertisk.Store.File

namespace Pertisk.Store
open Lib

/-- What a call does to the map once its checks have passed, with the record that it answers. -/
inductive Write
  | insert (key : VmId) (record : VmRecord)
  | put (key : VmId) (record : VmRecord)
  | erase (key : VmId) (record : VmRecord)
  | all (records : List VmRecord)

namespace Write

def run (m : Vms) : Write → Vms
  | .insert key record => m.put key record
  | .put key record => m.put key record
  | .erase key _ => m.erase key
  | .all records => Table.ofList (records.map (fun record => ⟨record.id, record⟩))

/-- The write decides what is under the id. -/
def Touches (id : VmId) : Write → Prop
  | .insert key _ => key = id
  | .put key _ => key = id
  | .erase key _ => key = id
  | .all _ => True

instance (id : VmId) : (w : Write) → Decidable (w.Touches id)
  | .insert key _ => inferInstanceAs (Decidable (key = id))
  | .put key _ => inferInstanceAs (Decidable (key = id))
  | .erase key _ => inferInstanceAs (Decidable (key = id))
  | .all _ => inferInstanceAs (Decidable True)

def leaves (id : VmId) : Write → Option Slot
  | .insert key record => some ⟨key, record⟩
  | .put key record => some ⟨key, record⟩
  | .erase _ _ => none
  | .all records => (run Table.empty (.all records)).get id

end Write

/-- The part of a call that holds the lock for the change: the checks, and what it writes. -/
def resolve (m : Vms) : Op → Except String Write
  | .upsert record => .ok (.put record.id record)
  | .insertUnique requested name build fresh =>
    if m.rows.any (fun slot => slot.record.spec.name == name) then
      .error s!"name already exists: {name}"
    else
      match requested with
      | some id =>
        if (m.get id).isSome then .error s!"vm id already exists: {id.text}"
        else .ok (.insert id (build id))
      | none =>
        let id := nextNumericLocked m fresh
        .ok (.insert id (build id))
  | .update id f =>
    match m.get id with
    | some slot => .ok (.put id (f slot.record))
    | none => .error s!"vm not found: {id.text}"
  | .replaceAll records => .ok (.all records)
  | .remove id =>
    match m.get id with
    | some slot => .ok (.erase id slot.record)
    | none => .error s!"vm not found: {id.text}"

/-- The record that is built for a name has the name. -/
def Op.Named : Op → Prop
  | .insertUnique _ name build _ => ∀ id, (build id).spec.name = name
  | _ => True

variable {m : Vms} {op : Op} {w : Write} {id : VmId}

theorem insertUnique_resolve {requested : Option VmId} {name : String} {build : VmId → VmRecord}
    {fresh : Uuid} :
    insertUnique m requested name build fresh =
      (resolve m (.insertUnique requested name build fresh)).map (Write.run m) := by
  unfold insertUnique resolve
  dsimp only
  by_cases hname : (m.rows.any (fun slot => slot.record.spec.name == name)) = true
  · rw [if_pos hname, if_pos hname]
    rfl
  · rw [if_neg hname, if_neg hname]
    cases requested with
    | none => rfl
    | some id =>
      dsimp only
      by_cases hid : (m.get id).isSome = true
      · rw [if_pos hid, if_pos hid]
        rfl
      · rw [if_neg hid, if_neg hid]
        rfl

/-- The calls do what the operations of the map do. -/
theorem apply_resolve (m : Vms) (op : Op) :
    apply m op = match resolve m op with
      | .ok w => w.run m
      | .error _ => m := by
  cases op with
  | upsert record => rfl
  | insertUnique requested name build fresh =>
    unfold apply
    dsimp only
    rw [insertUnique_resolve]
    cases resolve m (.insertUnique requested name build fresh) <;> rfl
  | update id f =>
    unfold apply resolve
    dsimp only
    cases m.get id <;> rfl
  | replaceAll records => rfl
  | remove id =>
    unfold apply resolve
    dsimp only
    cases hget : m.get id with
    | some slot => rfl
    | none => exact Table.erase_of_none hget

theorem Write.get_run (h : w.Touches id) : (w.run m).get id = w.leaves id := by
  cases w with
  | insert key record =>
    subst h
    exact Table.get_insert_self m _
  | put key record =>
    subst h
    exact Table.get_insert_self m _
  | erase key record =>
    subst h
    exact (Table.get_erase m key key).trans (if_pos rfl)
  | all records => rfl

theorem Write.get_run_other (h : ¬ w.Touches id) : (w.run m).get id = m.get id := by
  cases w with
  | insert key record => exact Table.get_insert_ne m h
  | put key record => exact Table.get_insert_ne m h
  | erase key record => exact (Table.get_erase m key id).trans (if_neg (Ne.symm h))
  | all records => exact absurd trivial h

/-- A record is only inserted where no guest has its name. -/
theorem resolve_insert {key : VmId} {record : VmRecord} (hnamed : op.Named)
    (h : resolve m op = .ok (.insert key record)) :
    ∀ slot ∈ m.rows, slot.record.spec.name ≠ record.spec.name := by
  cases op with
  | upsert record => cases h
  | replaceAll records => cases h
  | update id f =>
    unfold resolve at h
    dsimp only at h
    split at h <;> cases h
  | remove id =>
    unfold resolve at h
    dsimp only at h
    split at h <;> cases h
  | insertUnique requested name build fresh =>
    unfold resolve at h
    dsimp only at h
    split at h
    · cases h
    · rename_i hfree
      have hname : record.spec.name = name := by
        split at h
        · split at h
          · cases h
          · cases h
            exact hnamed _
        · cases h
          exact hnamed _
      intro slot hin heq
      exact hfree (List.any_eq_true.mpr ⟨slot, hin, beq_iff_eq.mpr (heq.trans hname)⟩)

end Pertisk.Store

namespace Pertisk.Store
open Lib

/-- A call whose checks pass changes the map, and writes the file after. -/
def plan (m : Vms) (op : Op) : Plan Vms Write :=
  match resolve m op with
  | .error text => .refuse text
  | .ok w => .change (w.run m) w

/-- A call and how the write of the file ends. -/
def call (m : Vms) (op : Op) (disk : Except String Unit) : Vms × Except String Write :=
  (plan m op).run m disk

variable {m : Vms} {op : Op} {disk : Except String Unit}

/-- When the file is written a call does what its operation does. -/
theorem call_written (m : Vms) (op : Op) : (call m op (.ok ())).1 = apply m op := by
  rw [apply_resolve, call, plan]
  cases resolve m op <;> rfl

theorem plan_change {next : Vms} {w : Write} :
    plan m op = .change next w ↔ resolve m op = .ok w ∧ next = w.run m := by
  unfold plan
  cases resolve m op with
  | error text => exact iff_of_false nofun nofun
  | ok w' =>
    constructor
    · intro h
      cases h
      exact ⟨rfl, rfl⟩
    · rintro ⟨h, rfl⟩
      cases h
      rfl

theorem call_unchanged_iff (m : Vms) (op : Op) (disk : Except String Unit) :
    Plan.Unchanged m (call m op disk) ↔
      disk = .ok () ∨ ∀ w, resolve m op = .ok w → w.run m = m := by
  refine (Plan.unchanged_run_iff ..).trans (or_congr_right ?_)
  constructor
  · exact fun h w hw => h _ w (plan_change.mpr ⟨hw, rfl⟩)
  · intro h next w hplan
    obtain ⟨hw, rfl⟩ := plan_change.mp hplan
    exact h w hw

open Net in
/-- A call on the guests, or on the networks, that answers with an error leaves its map as it was
exactly when the file was written, or the call does not change the map. -/
theorem failed_call_iff (m : Vms) (op : Op) (pool : Networks) (c : PoolCall)
    (disk : Except String Unit) :
    (Plan.Unchanged m (call m op disk) ↔
      disk = .ok () ∨ ∀ w, resolve m op = .ok w → w.run m = m) ∧
    (Plan.Unchanged pool (c.run pool disk) ↔
      disk = .ok () ∨ ∀ next answer, c.plan pool = .change next answer → next = pool) :=
  ⟨call_unchanged_iff m op disk, Plan.unchanged_run_iff pool disk (c.plan pool)⟩

/-- The disk is full when the file of a new guest is written, and the guest stays in memory. -/
theorem full_disk_keeps_guest :
    ¬ ∀ (m : Vms) (op : Op) (disk : Except String Unit), Plan.Unchanged m (call m op disk) := by
  intro h
  have hsame := h Table.empty (.upsert (plainGuest (.numeric 100)))
    (.error "No space left on device (os error 28)") _ rfl
  have hget := congrArg (fun m : Vms => (m.get (.numeric 100)).isSome) hsame
  exact absurd hget (by decide)

end Pertisk.Store
