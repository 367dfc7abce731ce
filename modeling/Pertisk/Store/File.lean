import Pertisk.Store.Records

namespace Pertisk.Store
open Lib

/-- A row of the map of guests. -/
structure Slot where
  key : VmId
  record : VmRecord

abbrev Vms := Table Slot Slot.key

/-- The operations on the map; the file is written after each. -/
inductive Op
  | upsert (record : VmRecord)
  | insertUnique (requested : Option VmId) (name : String) (build : VmId → VmRecord) (fresh : Uuid)
  | update (id : VmId) (f : VmRecord → VmRecord)
  | replaceAll (records : List VmRecord)
  | remove (id : VmId)

def Vms.put (m : Vms) (key : VmId) (record : VmRecord) : Vms := m.insert ⟨key, record⟩

/-- The smallest number that is free, from 100 on. -/
def nextNumericLocked (m : Vms) (fresh : Uuid) : VmId :=
  let free := (List.range' 100 (m.rows.length + 1)).find?
    (fun k => !(m.rows.any (fun slot => slot.key == .numeric k)))
  match free with
  | some k => if k ≤ 9999999999 then .numeric k else .legacy fresh
  | none => .legacy fresh

def insertUnique (m : Vms) (requested : Option VmId) (name : String) (build : VmId → VmRecord)
    (fresh : Uuid) : Except String Vms :=
  if m.rows.any (fun slot => slot.record.spec.name == name) then
    .error s!"name already exists: {name}"
  else
    match requested with
    | some id =>
      if (m.get id).isSome then .error s!"vm id already exists: {id.text}"
      else .ok (m.put id (build id))
    | none =>
      let id := nextNumericLocked m fresh
      .ok (m.put id (build id))

/-- An operation that fails changes nothing. -/
def apply (m : Vms) : Op → Vms
  | .upsert record => m.put record.id record
  | .insertUnique requested name build fresh =>
    match insertUnique m requested name build fresh with
    | .ok m => m
    | .error _ => m
  | .update id f =>
    match m.get id with
    | some slot => m.put id (f slot.record)
    | none => m
  | .replaceAll records => Table.ofList (records.map (fun record => ⟨record.id, record⟩))
  | .remove id => m.erase id

def applyAll (ops : List Op) : Vms := ops.foldl apply Table.empty

section file
variable (u : UuidCrate) (path : Codec PathBuf)

/-- What the file holds after a write. -/
def flush (m : Vms) : Json :=
  .obj (m.rows.map (fun slot => (serializeKey slot.key, (recordCodec u path).ser slot.record)))

def readSlot (entry : String × Json) : Option Slot := do
  let key ← deserializeKey u entry.1
  let record ← (recordCodec u path).de entry.2
  return ⟨key, record⟩

def readMap : Json → Option Vms
  | .obj fields => (fields.mapM (readSlot u path)).map Table.ofList
  | _ => none

/-- A file that is not there, is no JSON or is not read as a map is put aside for an empty one. -/
def openFile (file : Option Json) : Vms := (file.bind (readMap u path)).getD Table.empty

/-- The record has an id that a user gave. -/
def Known (record : VmRecord) : Prop := Given u record.id ∧ Whole u path record

/-- Every id that the operation brings was given by a user or made by the store. -/
def Op.Known : Op → Prop
  | .upsert record => Store.Known u path record
  | .insertUnique requested _ build fresh => (∀ id, requested = some id → Given u id) ∧
      fresh < 2 ^ 128 ∧ ∀ id, Given u id → Store.Known u path (build id)
  | .update _ f => ∀ record, Store.Known u path record → Store.Known u path (f record)
  | .replaceAll records => ∀ record ∈ records, Store.Known u path record
  | .remove _ => True

def Vms.Known (m : Vms) : Prop :=
  ∀ slot ∈ m.rows, Given u slot.key ∧ Store.Known u path slot.record

end file

variable {u : UuidCrate} {path : Codec PathBuf} {m : Vms} {id : VmId}

theorem given_number {n : ℕ} (hge : 100 ≤ n) (hlt : n < 10 ^ 10) : Given u (.numeric n) :=
  ⟨toString n, (parse_number hlt).mpr hge⟩

theorem given_nextNumericLocked {fresh : Uuid} (h : fresh < 2 ^ 128) :
    Given u (nextNumericLocked m fresh) := by
  have hfresh : Given u (.legacy fresh) := ⟨uuidText fresh, parse_legacy h⟩
  unfold nextNumericLocked
  dsimp only
  split
  · rename_i k hk
    split
    · rename_i hle
      have hin := List.mem_of_find?_eq_some hk
      have hge := (List.mem_range'_1.mp hin).1
      exact given_number hge (by omega)
    · exact hfresh
  · exact hfresh

theorem Vms.Known.put {record : VmRecord} (hm : m.Known u path) (hid : Given u id)
    (hrecord : Store.Known u path record) : (m.put id record).Known u path := by
  intro slot hin
  rcases Table.mem_insert hin with rfl | hold
  · exact ⟨hid, hrecord⟩
  · exact hm slot hold

theorem Vms.Known.ofList {records : List VmRecord}
    (h : ∀ record ∈ records, Store.Known u path record) :
    Vms.Known u path (Table.ofList (records.map (fun record => ⟨record.id, record⟩))) := by
  intro slot hin
  obtain ⟨record, hrecord, rfl⟩ := List.mem_map.mp (Table.mem_of_mem_ofList hin)
  exact ⟨(h record hrecord).1, h record hrecord⟩

theorem Vms.Known.insertUnique {requested : Option VmId} {name : String}
    {build : VmId → VmRecord} {fresh : Uuid} {m' : Vms} (hm : m.Known u path)
    (hop : (Op.insertUnique requested name build fresh).Known u path)
    (h : Store.insertUnique m requested name build fresh = .ok m') : m'.Known u path := by
  obtain ⟨hrequested, hfresh, hbuild⟩ := hop
  unfold Store.insertUnique at h
  split at h
  · cases h
  · split at h
    · rename_i id
      split at h
      · cases h
      · cases h
        exact hm.put (hrequested id rfl) (hbuild id (hrequested id rfl))
    · cases h
      exact hm.put (given_nextNumericLocked hfresh) (hbuild _ (given_nextNumericLocked hfresh))

theorem Vms.Known.apply {op : Op} (hm : m.Known u path) (hop : op.Known u path) :
    (Store.apply m op).Known u path := by
  cases op with
  | upsert record => exact hm.put hop.1 hop
  | insertUnique requested name build fresh =>
    unfold Store.apply
    dsimp only
    split
    · rename_i hok
      exact hm.insertUnique hop hok
    · exact hm
  | update id f =>
    unfold Store.apply
    dsimp only
    split
    · rename_i slot hget
      have hin := hm slot (Table.mem_of_get hget)
      have hkey : slot.key = id := Table.key_of_get hget
      exact hm.put (hkey ▸ hin.1) (hop _ hin.2)
    · exact hm
  | replaceAll records => exact .ofList hop
  | remove id => exact fun slot hin => hm slot (List.mem_of_mem_filter hin)

/-- What the store reaches from empty has known ids only. -/
theorem known_applyAll {ops : List Op} (h : ∀ op ∈ ops, op.Known u path) :
    (applyAll ops).Known u path := by
  have hrun : ∀ m : Vms, m.Known u path → (ops.foldl Store.apply m).Known u path := by
    induction ops with
    | nil => exact fun _ hm => hm
    | cons op ops ih =>
      exact fun m hm => ih (fun o ho => h o (List.mem_cons_of_mem op ho)) _
        (hm.apply (h op List.mem_cons_self))
  refine hrun _ (fun slot hin => ?_)
  cases hin

theorem parse_none_of_short (h : Short id) : (parse u id.text).toOption = none := by
  obtain ⟨n, hn, rfl⟩ := h
  have hlen : (toString n).length ≤ 2 := (text_length_le (by decide)).mpr hn
  have hparse : parse u (toString n) = .error s!"invalid vm id: {toString n}" := by
    rw [parse_uuid (fun hd => by omega), u.parse_short (by omega)]
  rw [VmId.text, hparse]
  rfl

theorem readSlot_long {slot : Slot} (hkey : Given u slot.key) (hrecord : Known u path slot.record)
    (hlong : ¬ Short slot.key ∧ ¬ Short slot.record.id) :
    readSlot u path (serializeKey slot.key, (recordCodec u path).ser slot.record) = some slot := by
  have hde := (recordCodec u path).de_ser slot.record
    ⟨(parse_text_iff hrecord.1).mpr hlong.2, hrecord.2⟩
  have hback := ((comesBack_iff hkey).mpr hlong.1).2.2
  unfold readSlot
  rw [hback, hde]
  rfl

theorem readSlot_short {slot : Slot} (h : Short slot.key ∨ Short slot.record.id) :
    readSlot u path (serializeKey slot.key, (recordCodec u path).ser slot.record) = none := by
  unfold readSlot
  rcases h with hkey | hrecord
  · have hnone : deserializeKey u (serializeKey slot.key) = none := parse_none_of_short hkey
    rw [hnone]
    rfl
  · rw [recordCodec_none u path (parse_none_of_short hrecord)]
    cases deserializeKey u (serializeKey slot.key) <;> rfl

/-- The map comes back exactly when none of its ids is short. -/
theorem openFile_flush_iff (hm : m.Known u path) :
    openFile u path (some (flush u path m)) = m ↔
      ∀ slot ∈ m.rows, ¬ Short slot.key ∧ ¬ Short slot.record.id := by
  have hread : readMap u path (flush u path m) = (m.rows.mapM (fun slot =>
      readSlot u path (serializeKey slot.key, (recordCodec u path).ser slot.record))).map
        Table.ofList := by
    unfold readMap flush
    dsimp only
    rw [List.mapM_map]
    rfl
  have hopen : openFile u path (some (flush u path m)) =
      (readMap u path (flush u path m)).getD Table.empty := rfl
  rw [hopen, hread]
  constructor
  · intro h slot hin
    by_contra hnot
    have hshort : Short slot.key ∨ Short slot.record.id := by
      rwa [not_and_or, not_not, not_not] at hnot
    rw [Codec.mapM_none hin (readSlot_short hshort)] at h
    rw [← h] at hin
    cases hin
  · intro h
    have hall : m.rows.mapM (fun slot => readSlot u path
        (serializeKey slot.key, (recordCodec u path).ser slot.record)) = some m.rows := by
      have hmap := Codec.mapM_map (l := m.rows) (f := fun slot => slot) (g := fun slot =>
        readSlot u path (serializeKey slot.key, (recordCodec u path).ser slot.record))
        (fun slot hin => readSlot_long (hm slot hin).1 (hm slot hin).2 (h slot hin))
      rwa [List.map_id'] at hmap
    rw [hall]
    exact Table.ofList_rows m

/-- The map that a store of given ids has is read back from its file exactly when none of the ids
is a number of fewer than three digits, and those are the given ids that do not come back. -/
theorem survives_restart_iff (u : UuidCrate) (path : Codec PathBuf) (ops : List Op)
    (h : ∀ op ∈ ops, op.Known u path) :
    (openFile u path (some (flush u path (applyAll ops))) = applyAll ops ↔
      ∀ slot ∈ (applyAll ops).rows, ¬ Short slot.key ∧ ¬ Short slot.record.id) ∧
    ∀ id, Given u id → (ComesBack u id ↔ ¬ Short id) :=
  ⟨openFile_flush_iff (known_applyAll h), fun _ hid => comesBack_iff hid⟩

/-- Paths that are not below the storage root. -/
def hostPath : Codec PathBuf :=
  .text
    (fun
      | .text s => s
      | _ => "")
    (fun s => some (.text s)) (fun p => ∃ s, p = .text s) (fun p h => by
      obtain ⟨s, rfl⟩ := h
      rfl)

def plainGuest (id : VmId) : VmRecord where
  id := id
  spec := { name := "web" }
  state := .created

theorem plainGuest_known {id : VmId} (h : Given u id) : Known u hostPath (plainGuest id) := by
  refine ⟨h, ⟨nofun, ?_, ?_, nofun⟩, nofun, nofun, nofun, nofun, nofun⟩
  · intro disk hin
    cases hin
  · intro net hin
    cases hin

theorem survives_restart_web :
    (openFile hyphenatedCrate hostPath (some (flush hyphenatedCrate hostPath
        (applyAll [.upsert (plainGuest (.numeric 100))]))) =
          applyAll [.upsert (plainGuest (.numeric 100))] ↔
      ∀ slot ∈ (applyAll [.upsert (plainGuest (.numeric 100))]).rows,
        ¬ Short slot.key ∧ ¬ Short slot.record.id) ∧
    ∀ id, Given hyphenatedCrate id → (ComesBack hyphenatedCrate id ↔ ¬ Short id) := by
  refine survives_restart_iff hyphenatedCrate hostPath _ (fun op hin => ?_)
  rw [List.mem_singleton.mp hin]
  exact plainGuest_known (given_number (by decide) (by decide))

theorem given_seven : Given u (.numeric 7) := ⟨"007", parse_digits (by decide)⟩

/-- The id that was given as 007 is written as 7, and the file with it is not read again. -/
theorem leading_zeros_lose_all :
    ¬ ∀ (u : UuidCrate) (path : Codec PathBuf) (ops : List Op), (∀ op ∈ ops, op.Known u path) →
      openFile u path (some (flush u path (applyAll ops))) = applyAll ops := by
  intro h
  have hknown : ∀ op ∈ [Op.upsert (plainGuest (.numeric 7))], op.Known hyphenatedCrate hostPath := by
    intro op hin
    rw [List.mem_singleton.mp hin]
    exact plainGuest_known given_seven
  have hsame := h hyphenatedCrate hostPath _ hknown
  rw [openFile_flush_iff (known_applyAll hknown)] at hsame
  exact (hsame _ List.mem_cons_self).1 ⟨7, by decide, rfl⟩

end Pertisk.Store
