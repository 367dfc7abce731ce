import Pertisk.Lib.Lookup
import Pertisk.Net.Addresses
import Pertisk.Sizes.Provider
import Pertisk.Store.Ids

namespace Pertisk.Terraform
open Lib PeerUrl
open Provider (Unicode parseUint)

/-- Why a request failed; only an answer of the API has a status. -/
inductive Failure
  | api (status : ℕ) (message : String)
  | other (message : String)
  deriving DecidableEq, Repr

def isNotFound : Failure → Bool
  | .api status _ => status == 404
  | .other _ => false

def isLookupMiss : Failure → Bool
  | .api status _ => status == 404 || status == 400
  | .other _ => false

/-- No letter but A to F has one of a to f as its small form. -/
def isUUID (s : String) : Bool :=
  let cs := (trim s.toList).map Char.toLower
  cs.length == 36 && cs.zipIdx.all fun (c, i) =>
    if i = 8 ∨ i = 13 ∨ i = 18 ∨ i = 23 then c == '-' else c.isDigit || ('a' ≤ c && c ≤ 'f')

/-- The API's answers to the look-ups. -/
structure Api where
  listVMs : Except Failure (List VmRecord)
  getVM : String → Except Failure VmRecord
  listTemplates : Except Failure (List VmRecord)
  listNetworks : Except Failure (List Net.NetworkRecord)
  getNetwork : String → Except Failure Net.NetworkRecord
  listVolumes : Except Failure (List VolumeRecord)
  getVolume : String → Except Failure VolumeRecord

section named
variable {α : Type} (u : Unicode) (noun key : String)

/-- The end of each `Find` that has met no error. -/
def foundOr : Option α → Except Failure α
  | none => .error (.api 404 s!"{noun} {u.quote key} not found")
  | some x => .ok x

def findNamed (name : α → String) (xs : List α) : Except Failure α := do
  let found ← pick (fun x => decide (name x = key))
    (.other s!"multiple {noun}s named {u.quote key}") none xs
  foundOr u noun key found

/-- Ask for the id, and go on by name where nothing has it. -/
def getOr (asked : Bool) (get named : Except Failure α) : Except Failure α :=
  if asked then
    match get with
    | .ok x => .ok x
    | .error e => if isLookupMiss e then named else .error e
  else named

end named

section find
variable (u : Unicode) (api : Api) (idOrName : String)

def findVM : Except Failure VmRecord :=
  getOr (parseUint (trim idOrName.toList)).isSome (api.getVM idOrName) do
    findNamed u "guest" idOrName (·.spec.name) (← api.listVMs)

def findTemplateIn : Option VmRecord → List VmRecord → Except Failure (Option VmRecord)
  | found, [] => .ok found
  | found, t :: ts =>
    if t.id.text = idOrName ∨ t.spec.name = idOrName then
      if found.isSome ∧ t.id.text ≠ idOrName then
        .error (.other s!"multiple templates named {u.quote idOrName}")
      else if t.id.text = idOrName then .ok (some t)
      else findTemplateIn (some t) ts
    else findTemplateIn found ts

def findTemplate : Except Failure VmRecord := do
  foundOr u "template" idOrName (← findTemplateIn u idOrName none (← api.listTemplates))

def findNetwork : Except Failure Net.NetworkRecord :=
  getOr (isUUID idOrName) (api.getNetwork idOrName) do
    findNamed u "network" idOrName (·.name) (← api.listNetworks)

def findVolume : Except Failure VolumeRecord :=
  getOr (isUUID idOrName) (api.getVolume idOrName) do
    findNamed u "volume" idOrName (·.name) (← api.listVolumes)

end find

/-! ### The daemon's answers -/

/-- What a daemon has, in the order in which it lists it. -/
structure Inventory (c : Store.UuidCrate) where
  vms : List VmRecord
  networks : List Net.NetworkRecord
  volumes : List VolumeRecord
  given : ∀ vm ∈ vms, Store.Given c vm.id
  vmIds : (vms.map VmRecord.id).Nodup
  networkIds : (networks.map Net.NetworkRecord.id).Nodup
  volumeIds : (volumes.map VolumeRecord.id).Nodup
  networkBytes : ∀ net ∈ networks, net.id < 2 ^ 128
  volumeBytes : ∀ vol ∈ volumes, vol.id < 2 ^ 128

/-- `show`: an id that cannot be read is a bad request. -/
def showFrom {α ι : Type} (read : Option ι) (find : ι → Option α) : Except Failure α :=
  match read with
  | none => .error (.api 400 "invalid id")
  | some id =>
    match find id with
    | none => .error (.api 404 "not found")
    | some x => .ok x

def Inventory.api {c : Store.UuidCrate} (inv : Inventory c) : Api where
  listVMs := .ok inv.vms
  getVM key := showFrom (Store.parse c key).toOption fun id => inv.vms.find? (·.id = id)
  listTemplates := .ok (inv.vms.filter (·.template))
  listNetworks := .ok inv.networks
  getNetwork key := showFrom (c.parseStr key) fun id => inv.networks.find? (·.id = id)
  listVolumes := .ok inv.volumes
  getVolume key := showFrom (c.parseStr key) fun id => inv.volumes.find? (·.id = id)

open Store (UuidCrate Given uuidDigits)

/-! ### Keys that name an id -/

section keys
variable {c : UuidCrate} {id : VmId} {uuid : Uuid}

/-- A digit of a uuid, as it is written. -/
def isUuidDigit (ch : Char) : Bool := ch.isDigit || ('a' ≤ ch && ch ≤ 'f')

theorem isUuidDigit_digitChar : ∀ d < 16, isUuidDigit d.digitChar = true ∧
    d.digitChar.toLower = d.digitChar ∧ isWhiteSpace d.digitChar = false := by decide

theorem uuidDigits_digit {ch : Char} (h : ch ∈ uuidDigits uuid) :
    isUuidDigit ch = true ∧ ch.toLower = ch ∧ isWhiteSpace ch = false := by
  rcases List.mem_append.mp h with h | h
  · rw [List.eq_of_mem_replicate h]
    exact isUuidDigit_digitChar 0 (by decide)
  · obtain ⟨d, hd, rfl⟩ := Store.mem_toDigits h
    exact isUuidDigit_digitChar d hd

/-- The groups of a uuid between its hyphens. -/
theorem exists_groups (h : uuid < 2 ^ 128) : ∃ g₁ g₂ g₃ g₄ g₅ : List Char,
    (g₁.length = 8 ∧ g₂.length = 4 ∧ g₃.length = 4 ∧ g₄.length = 4 ∧ g₅.length = 12) ∧
      (∀ g ∈ [g₁, g₂, g₃, g₄, g₅], ∀ ch ∈ g, ch ∈ uuidDigits uuid) ∧
      (uuidText uuid).toList = g₁ ++ '-' :: (g₂ ++ '-' :: (g₃ ++ '-' :: (g₄ ++ '-' :: g₅))) := by
  have hlen := Store.uuidDigits_length h
  have hgroup : ∀ a k, ∀ ch ∈ ((uuidDigits uuid).drop a).take k, ch ∈ uuidDigits uuid :=
    fun a k ch hch => List.mem_of_mem_drop (List.mem_of_mem_take hch)
  refine ⟨(uuidDigits uuid).take 8, ((uuidDigits uuid).drop 8).take 4,
    ((uuidDigits uuid).drop 12).take 4, ((uuidDigits uuid).drop 16).take 4,
    ((uuidDigits uuid).drop 20).take 12, ?_, ?_, ?_⟩
  · simp only [List.length_take, List.length_drop, hlen]
    decide
  · simp only [List.forall_mem_cons]
    exact ⟨fun ch => List.mem_of_mem_take, hgroup _ _, hgroup _ _, hgroup _ _, hgroup _ _, nofun⟩
  · rw [Store.uuidText_toList]
    simp only [List.append_assoc, List.cons_append]

theorem group_all {g : List Char} {start : ℕ} (hdigits : ∀ ch ∈ g, isUuidDigit ch = true)
    (hsep : ∀ i, start ≤ i → i < start + g.length → ¬ (i = 8 ∨ i = 13 ∨ i = 18 ∨ i = 23)) :
    ((g.zipIdx start).all fun (ch, i) =>
      if i = 8 ∨ i = 13 ∨ i = 18 ∨ i = 23 then ch == '-' else
        ch.isDigit || ('a' ≤ ch && ch ≤ 'f')) = true := by
  rw [List.all_eq_true]
  rintro ⟨ch, i⟩ hmem
  have hi := hsep i (List.le_snd_of_mem_zipIdx hmem) (List.snd_lt_add_of_mem_zipIdx hmem)
  exact (if_neg hi).trans (hdigits ch (List.fst_mem_of_mem_zipIdx hmem))

/-- A uuid is recognised as the daemon writes it. -/
theorem isUUID_uuidText (h : uuid < 2 ^ 128) : isUUID (uuidText uuid) = true := by
  obtain ⟨g₁, g₂, g₃, g₄, g₅, ⟨h₁, h₂, h₃, h₄, h₅⟩, hmem, htext⟩ := exists_groups h
  simp only [List.forall_mem_cons] at hmem
  obtain ⟨m₁, m₂, m₃, m₄, m₅, -⟩ := hmem
  have hall : ∀ ch ∈ (uuidText uuid).toList, ch.toLower = ch ∧ isWhiteSpace ch = false := by
    intro ch hch
    by_cases hhyphen : ch = '-'
    · rw [hhyphen]
      exact ⟨rfl, rfl⟩
    · have hdigit : ch ∈ uuidDigits uuid := by
        rw [← Store.uuidText_filter h]
        exact List.mem_filter.mpr ⟨hch, decide_eq_true hhyphen⟩
      exact (uuidDigits_digit hdigit).2
  have htrim : trim (uuidText uuid).toList = (uuidText uuid).toList :=
    trim_eq_self (fun ch hch => (hall ch (List.mem_of_mem_head? hch)).2)
      (fun ch hch => (hall ch (List.mem_of_getLast? hch)).2)
  have hlower : (uuidText uuid).toList.map Char.toLower = (uuidText uuid).toList :=
    (List.map_congr_left (g := id) fun ch hch => (hall ch hch).1).trans (List.map_id _)
  have hdigit : ∀ g : List Char, (∀ ch ∈ g, ch ∈ uuidDigits uuid) →
      ∀ ch ∈ g, isUuidDigit ch = true := fun g hg ch hch => (uuidDigits_digit (hg ch hch)).1
  unfold isUUID
  rw [htrim, hlower, Bool.and_eq_true, beq_iff_eq, Store.uuidText_length h, htext]
  refine ⟨rfl, ?_⟩
  simp only [List.zipIdx_append, List.zipIdx_cons, List.all_append, List.all_cons,
    Bool.and_eq_true, h₁, h₂, h₃, h₄, Nat.zero_add]
  refine ⟨group_all (hdigit _ m₁) (by omega), rfl, group_all (hdigit _ m₂) (by omega), rfl,
    group_all (hdigit _ m₃) (by omega), rfl, group_all (hdigit _ m₄) (by omega), rfl,
    group_all (hdigit _ m₅) (by omega)⟩

/-- A guest's id, as it is written, is asked for exactly when it is a number that the daemon
reads. -/
theorem asked_text_iff (h : Given c id) :
    ((parseUint (trim id.text.toList)).isSome = true ∧ (Store.parse c id.text).toOption = some id) ↔
      ∃ n ≥ 100, id = .numeric n := by
  rcases Store.given_cases h with ⟨n, rfl, hn⟩ | ⟨uuid, rfl, huuid⟩
  · have hdigits := Store.text_digits n
    have hspace : ∀ ch ∈ (toString n).toList, isWhiteSpace ch = false := fun ch hch =>
      not_whiteSpace_of_isDigit (List.all_eq_true.mp hdigits ch hch)
    have htrim : trim (toString n).toList = (toString n).toList :=
      trim_eq_self (fun ch hch => hspace ch (List.mem_of_mem_head? hch))
        (fun ch hch => hspace ch (List.mem_of_getLast? hch))
    have hvalue : parseUint (toString n).toList = some (.ofNat n) := by
      refine Types.parseU64_some.mpr ?_
      have hsize : n < UInt64.size := Nat.lt_trans hn (by decide)
      rw [UInt64.toNat_ofNat_of_lt' hsize]
      refine decimal_eq_some.mpr ⟨?_, hdigits, ?_⟩
      · rw [Net.toList_digits]
        exact Nat.toDigits_ne_nil
      · rw [Net.toList_digits, Nat.ofDigitChars_ten_toDigits]
    have hread : (Store.parse c (toString n)).toOption = some (.numeric n) ↔ 100 ≤ n := by
      rw [← Store.parse_number hn]
      exact ⟨toOption_some, fun h => by rw [h]; rfl⟩
    simp only [VmId.text, htrim, hvalue, Option.isSome_some, true_and, hread]
    constructor
    · exact fun h => ⟨n, h, rfl⟩
    · rintro ⟨m, hm, heq⟩
      exact (VmId.numeric.inj heq) ▸ hm
  · refine iff_of_false (fun hasked => ?_) (by rintro ⟨n, -, heq⟩; cases heq)
    obtain ⟨n, hn⟩ := Option.isSome_iff_exists.mp hasked.1
    have hhyphen : '-' ∈ trim (uuidText uuid).toList := by
      refine Provider.mem_trim ?_ (by decide)
      rw [Store.uuidText_toList]
      simp
    have hdigit := Types.all_digits (Types.parseU64_some.mp hn) '-' hhyphen
    exact absurd hdigit (by decide)

/-- Ids that are written alike are one id. -/
theorem text_inj {a b : VmId} (ha : Given c a) (hb : Given c b) (h : a.text = b.text) : a = b := by
  rcases Store.given_cases ha with ⟨n, rfl, -⟩ | ⟨p, rfl, hp⟩ <;>
    rcases Store.given_cases hb with ⟨m, rfl, -⟩ | ⟨q, rfl, hq⟩
  · have hdigits := congrArg (fun s : String => Nat.ofDigitChars 10 s.toList 0) h
    simp only [VmId.text, Net.toList_digits, Nat.ofDigitChars_ten_toDigits] at hdigits
    rw [hdigits]
  · have hdigits := Store.text_digits n
    rw [show toString n = uuidText q from h, Store.uuid_not_digits] at hdigits
    cases hdigits
  · have hdigits := Store.text_digits m
    rw [← show uuidText p = toString m from h, Store.uuid_not_digits] at hdigits
    cases hdigits
  · rw [Store.uuidText_inj hp hq h]

end keys

/-! ### Look-ups by id and by name -/

section lookups
variable {u : Unicode} {c : UuidCrate} {inv : Inventory c} {key noun : String} {α ι : Type}
  {name ident : α → String} {xs : List α}

theorem toOption_pick (h : xs.Nodup) (many : Failure) {x : α} :
    ((pick (fun x => decide (name x = key)) many none xs).bind (foundOr u noun key)).toOption =
      some x ↔ Only name xs key x := by
  rw [← filter_eq_singleton h]
  cases hpick : pick (fun x => decide (name x = key)) many none xs with
  | error e =>
    refine iff_of_false (fun h => nomatch h) fun hone => ?_
    rw [pick_none.mpr (show _ = (some x).toList from hone)] at hpick
    cases hpick
  | ok found =>
    rw [pick_none.mp hpick]
    cases found with
    | none => exact iff_of_false (fun h => nomatch h) (fun h => nomatch h)
    | some y =>
      rw [Option.toList_some, List.singleton_inj]
      exact Option.some_inj

theorem toOption_findNamed (h : xs.Nodup) {x : α} :
    (findNamed u noun key name xs).toOption = some x ↔ Only name xs key x := toOption_pick h _

theorem showFrom_ok [DecidableEq ι] {get : α → ι} {read : Option ι} {x : α}
    (hids : (xs.map get).Nodup) :
    (showFrom read fun id => xs.find? (get · = id)) = .ok x ↔ x ∈ xs ∧ read = some (get x) := by
  unfold showFrom
  cases read with
  | none => exact iff_of_false (fun h => nomatch h) (fun h => nomatch h.2)
  | some id =>
    dsimp only
    cases hfind : xs.find? (get · = id) with
    | none =>
      refine iff_of_false (fun h => nomatch h) fun h => ?_
      exact absurd (Option.some.inj h.2).symm
        (fun heq => List.find?_eq_none.mp hfind x h.1 (decide_eq_true heq))
    | some y =>
      have hy := List.mem_of_find?_eq_some hfind
      have hid := List.find?_some hfind
      rw [decide_eq_true_eq] at hid
      constructor
      · intro h
        obtain rfl := Except.ok.inj h
        exact ⟨hy, congrArg some hid.symm⟩
      · rintro ⟨hx, heq⟩
        have hsame := List.inj_on_of_nodup_map hids hx hy
          ((Option.some.inj heq).symm.trans hid.symm)
        rw [hsame]

theorem isLookupMiss_showFrom {read : Option ι} {find : ι → Option α} {e : Failure}
    (h : showFrom read find = .error e) : isLookupMiss e = true := by
  unfold showFrom at h
  split at h
  · cases h
    rfl
  · split at h
    · cases h
      rfl
    · cases h

/-- An id that is asked for comes before the names. -/
theorem getOr_exact_iff [DecidableEq ι] {get : α → ι} {read : Option ι} {asked : Bool}
    (hids : (xs.map get).Nodup) (hident : ∀ x ∈ xs, ∀ y ∈ xs, ident x = ident y → get x = get y) :
    Exact ident name xs key (getOr asked (showFrom read fun id => xs.find? (get · = id))
        (findNamed u noun key name xs)).toOption ↔
      ∀ x ∈ xs, (ident x = key ↔ asked = true ∧ read = some (get x)) ∨ Only name xs key x := by
  refine exact_iff_of_read
    (fun x hx y hy h => List.inj_on_of_nodup_map hids hx hy (hident x hx y hy h)) ?_ ?_
  · rintro x hx ⟨hasked, hread⟩
    unfold getOr
    rw [if_pos hasked, (showFrom_ok hids).mpr ⟨hx, hread⟩]
    rfl
  · intro hnone x
    rw [← toOption_findNamed hids.of_map]
    unfold getOr
    split
    · rename_i hasked
      cases hget : showFrom read fun id => xs.find? (get · = id) with
      | ok y =>
        obtain ⟨hy, hread⟩ := (showFrom_ok hids).mp hget
        exact absurd ⟨hasked, hread⟩ (hnone y hy)
      | error e =>
        dsimp only
        rw [if_pos (isLookupMiss_showFrom hget)]
    · exact Iff.rfl

/-- The key is the guest's id, but no number that is asked for: a UUID, or fewer than three
digits. -/
def Unasked (key : String) (vm : VmRecord) : Prop :=
  vm.id.text = key ∧ ¬ ∃ n ≥ 100, vm.id = .numeric n

/-- The key is asked for and read as the guest's id, which is written otherwise. -/
def Respelled (c : UuidCrate) (key : String) (vm : VmRecord) : Prop :=
  vm.id.text ≠ key ∧ (parseUint (trim key.toList)).isSome = true ∧
    (Store.parse c key).toOption = some vm.id

/-- The key is a UUID that is read as this one, which is written otherwise. -/
def RespelledUuid (c : UuidCrate) (key : String) (uuid : Uuid) : Prop :=
  uuidText uuid ≠ key ∧ isUUID key = true ∧ c.parseStr key = some uuid

theorem findVM_exact_iff (u : Unicode) (inv : Inventory c) (key : String) :
    Exact (·.id.text) (·.spec.name) inv.vms key (findVM u inv.api key).toOption ↔
      ∀ vm ∈ inv.vms, Unasked key vm ∨ Respelled c key vm → Only (·.spec.name) inv.vms key vm := by
  refine (getOr_exact_iff inv.vmIds fun x hx y hy => text_inj (inv.given x hx)
    (inv.given y hy)).trans (forall₂_congr fun vm hvm => ?_)
  rw [or_iff_not_imp_left]
  refine imp_congr_left ?_
  by_cases hkey : vm.id.text = key
  · have hasked := asked_text_iff (inv.given vm hvm)
    rw [hkey] at hasked
    simp only [Unasked, Respelled, hkey, hasked, true_iff, true_and, ne_eq, not_true_eq_false,
      false_and, or_false]
  · simp only [Unasked, Respelled, hkey, false_iff, not_not, false_and, false_or, ne_eq,
      not_false_eq_true, true_and]

theorem respelledUuid_iff {uuid : Uuid} (h : uuid < 2 ^ 128) :
    ¬ (uuidText uuid = key ↔ isUUID key = true ∧ c.parseStr key = some uuid) ↔
      RespelledUuid c key uuid := by
  by_cases hkey : uuidText uuid = key
  · have hasked := isUUID_uuidText h
    have hread := c.parse_text h
    rw [hkey] at hasked hread
    simp only [RespelledUuid, hkey, hasked, hread, and_self, not_true_eq_false, ne_eq, false_and]
  · simp only [RespelledUuid, hkey, false_iff, not_not, ne_eq, not_false_eq_true, true_and]

theorem findNetwork_exact_iff (u : Unicode) (inv : Inventory c) (key : String) :
    Exact (fun net : Net.NetworkRecord => uuidText net.id) (·.name) inv.networks key
        (findNetwork u inv.api key).toOption ↔
      ∀ net ∈ inv.networks, RespelledUuid c key net.id → Only (·.name) inv.networks key net := by
  refine (getOr_exact_iff inv.networkIds fun x hx y hy =>
    Store.uuidText_inj (inv.networkBytes x hx) (inv.networkBytes y hy)).trans
    (forall₂_congr fun net hnet => ?_)
  rw [or_iff_not_imp_left, respelledUuid_iff (inv.networkBytes net hnet)]

theorem findVolume_exact_iff (u : Unicode) (inv : Inventory c) (key : String) :
    Exact (fun vol : VolumeRecord => uuidText vol.id) (·.name) inv.volumes key
        (findVolume u inv.api key).toOption ↔
      ∀ vol ∈ inv.volumes, RespelledUuid c key vol.id → Only (·.name) inv.volumes key vol := by
  refine (getOr_exact_iff inv.volumeIds fun x hx y hy =>
    Store.uuidText_inj (inv.volumeBytes x hx) (inv.volumeBytes y hy)).trans
    (forall₂_congr fun vol hvol => ?_)
  rw [or_iff_not_imp_left, respelledUuid_iff (inv.volumeBytes vol hvol)]

/-! ### Templates -/

variable {found : Option VmRecord} {t : VmRecord} {before after ts : List VmRecord}

/-- Without the id in the listing, the names are gone through. -/
theorem findTemplateIn_named (h : ∀ t ∈ ts, t.id.text ≠ key) : findTemplateIn u key found ts =
    pick (fun t => decide (t.spec.name = key))
      (.other s!"multiple templates named {u.quote key}") found ts := by
  induction ts generalizing found with
  | nil => rfl
  | cons t ts ih =>
    obtain ⟨ht, hrest⟩ := List.forall_mem_cons.mp h
    rw [findTemplateIn, pick]
    simp only [ht, false_or, ne_eq, not_false_eq_true, and_true, if_false, decide_eq_true_eq,
      ih hrest]

/-- Up to the id no more than one name may match. -/
theorem findTemplateIn_id (hbefore : ∀ t ∈ before, t.id.text ≠ key) (ht : t.id.text = key) :
    findTemplateIn u key found (before ++ t :: after) =
      if (found.toList ++ before.filter (·.spec.name = key)).length ≤ 1 then .ok (some t)
      else .error (.other s!"multiple templates named {u.quote key}") := by
  induction before generalizing found with
  | nil =>
    have hone : (found.toList ++ ([] : List VmRecord).filter (·.spec.name = key)).length ≤ 1 := by
      cases found <;> simp
    rw [if_pos hone, List.nil_append, findTemplateIn]
    simp only [ht, true_or, if_true, ne_eq, not_true_eq_false, and_false, if_false]
  | cons b before ih =>
    obtain ⟨hb, hrest⟩ := List.forall_mem_cons.mp hbefore
    rw [List.cons_append, findTemplateIn]
    simp only [hb, false_or, ne_eq, not_false_eq_true, and_true, if_false]
    by_cases hname : b.spec.name = key
    · rw [if_pos hname, List.filter_cons_of_pos (by simpa using hname)]
      cases found with
      | some first =>
        rw [Option.isSome_some, if_pos rfl, if_neg]
        simp
      | none =>
        rw [Option.isSome_none, if_neg Bool.false_ne_true, ih hrest]
        rfl
    · rw [if_neg hname, ih hrest, List.filter_cons_of_neg (by simpa using hname)]

/-- Two templates of the name stand before the template whose id is the key. -/
def Crowded (key : String) (ts : List VmRecord) : Prop :=
  ∃ before t after, ts = before ++ t :: after ∧ t.id.text = key ∧
    2 ≤ (before.filter (·.spec.name = key)).length

theorem findTemplate_exact_iff (u : Unicode) (inv : Inventory c) (key : String) :
    Exact (·.id.text) (·.spec.name) (inv.vms.filter (·.template)) key
        (findTemplate u inv.api key).toOption ↔
      ¬ Crowded key (inv.vms.filter (·.template)) := by
  have hgiven : ∀ t ∈ inv.vms.filter (·.template), Given c t.id := fun t ht =>
    inv.given t (List.mem_of_mem_filter ht)
  have hids : ((inv.vms.filter (·.template)).map VmRecord.id).Nodup :=
    inv.vmIds.sublist (List.filter_sublist.map _)
  have hfind : findTemplate u inv.api key = (findTemplateIn u key none
      (inv.vms.filter (·.template))).bind (foundOr u "template" key) := rfl
  rw [hfind]
  generalize inv.vms.filter (·.template) = ts at hgiven hids
  have hsplit : ∀ before t after, ts = before ++ t :: after → t.id.text = key →
      ∀ b ∈ before, b.id.text ≠ key := by
    rintro before t after rfl ht b hb hkey
    have hb' := List.mem_append_left (t :: after) hb
    have ht' := List.mem_append_right before (List.mem_cons_self (a := t) (l := after))
    have hsame := text_inj (hgiven b hb') (hgiven t ht') (hkey.trans ht.symm)
    rw [List.map_append, List.map_cons] at hids
    exact List.disjoint_of_nodup_append hids (List.mem_map_of_mem hb) (hsame ▸ List.mem_cons_self)
  constructor
  · rintro hexact ⟨before, t, after, rfl, ht, htwo⟩
    have hbyId := hexact.byId t (List.mem_append_right _ List.mem_cons_self) ht
    rw [findTemplateIn_id (hsplit before t after rfl ht) ht, if_neg] at hbyId
    · cases hbyId
    · rw [Option.toList_none, List.nil_append]
      omega
  · intro hfew
    refine ⟨fun t ht hkey => ?_, fun hnone t => ?_⟩
    · obtain ⟨before, after, rfl⟩ := List.append_of_mem ht
      have hone : ¬ 2 ≤ (before.filter (·.spec.name = key)).length := fun htwo =>
        hfew ⟨before, t, after, rfl, hkey, htwo⟩
      rw [findTemplateIn_id (hsplit before t after rfl hkey) hkey, if_pos]
      · rfl
      · rw [Option.toList_none, List.nil_append]
        omega
    · rw [findTemplateIn_named hnone]
      exact toOption_pick hids.of_map _

end lookups

/-- Each look-up finds what its key stands for, whatever the order of the listing, exactly when the
key is not a guest's id that is not asked for, nor another spelling of an id, nor the id of a
template that stands behind two of that name. -/
theorem lookups_exact_iff (u : Unicode) {c : UuidCrate} (inv : Inventory c) (key : String) :
    (Exact (·.id.text) (·.spec.name) (inv.vms.filter (·.template)) key
        (findTemplate u inv.api key).toOption ↔
      ¬ Crowded key (inv.vms.filter (·.template))) ∧
    (Exact (·.id.text) (·.spec.name) inv.vms key (findVM u inv.api key).toOption ↔
      ∀ vm ∈ inv.vms, Unasked key vm ∨ Respelled c key vm → Only (·.spec.name) inv.vms key vm) ∧
    (Exact (fun net : Net.NetworkRecord => uuidText net.id) (·.name) inv.networks key
        (findNetwork u inv.api key).toOption ↔
      ∀ net ∈ inv.networks, RespelledUuid c key net.id → Only (·.name) inv.networks key net) ∧
    (Exact (fun vol : VolumeRecord => uuidText vol.id) (·.name) inv.volumes key
        (findVolume u inv.api key).toOption ↔
      ∀ vol ∈ inv.volumes, RespelledUuid c key vol.id → Only (·.name) inv.volumes key vol) :=
  ⟨findTemplate_exact_iff u inv key, findVM_exact_iff u inv key, findNetwork_exact_iff u inv key,
    findVolume_exact_iff u inv key⟩

def oldGuest : VmRecord where
  id := .legacy 7
  spec := { name := "web" }
  state := .stopped

theorem noNetwork_bytes : ∀ net ∈ ([] : List Net.NetworkRecord), net.id < 2 ^ 128 :=
  fun _ h => absurd h List.not_mem_nil

theorem noVolume_bytes : ∀ vol ∈ ([] : List VolumeRecord), vol.id < 2 ^ 128 :=
  fun _ h => absurd h List.not_mem_nil

/-- One guest, which has a UUID for its id. -/
def oldInventory : Inventory Store.hyphenatedCrate where
  vms := [oldGuest]
  networks := []
  volumes := []
  given := List.forall_mem_singleton.mpr ⟨uuidText 7, by decide⟩
  vmIds := List.nodup_singleton _
  networkIds := List.nodup_nil
  volumeIds := List.nodup_nil
  networkBytes := noNetwork_bytes
  volumeBytes := noVolume_bytes

/-- A guest is not found by its UUID. -/
theorem uuid_guest_not_found : ¬ ∀ (u : Unicode) (c : UuidCrate) (inv : Inventory c) (key : String),
    Exact (·.id.text) (·.spec.name) inv.vms key (findVM u inv.api key).toOption := by
  intro h
  have hexact := h Provider.go Store.hyphenatedCrate oldInventory (uuidText 7)
  have hfound := hexact.byId oldGuest List.mem_cons_self rfl
  exact absurd hfound (by decide)

end Pertisk.Terraform
