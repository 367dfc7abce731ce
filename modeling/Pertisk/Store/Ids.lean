import Mathlib.Data.Nat.Digits.Defs
import Pertisk.Lib.Calls
import Pertisk.Lib.Serde
import Pertisk.Types

namespace Pertisk.Store
open Lib

/-- The `uuid` crate's `Uuid::parse_str`: it reads what `Display` writes, and the shortest of the
forms that it takes has 32 characters. -/
structure UuidCrate where
  parseStr : String → Option Uuid
  parse_lt : ∀ {s id}, parseStr s = some id → id < 2 ^ 128
  parse_text : ∀ {id}, id < 2 ^ 128 → parseStr (uuidText id) = some id
  parse_short : ∀ {s}, s.length < 32 → parseStr s = none

variable (u : UuidCrate)

/-- `FromStr`; three to ten digits are a number. -/
def parse (s : String) : Except String VmId :=
  if 3 ≤ s.length ∧ s.length ≤ 10 ∧ s.toList.all Char.isDigit then
    .ok (.numeric (Nat.ofDigitChars 10 s.toList 0))
  else
    match u.parseStr s with
    | some id => .ok (.legacy id)
    | none => .error s!"invalid vm id: {s}"

def serialize : VmId → Json
  | .numeric n => .num n
  | .legacy id => .str (uuidText id)

/-- The visitor takes a number by way of its digits. -/
def deserialize : Json → Option VmId
  | .num n => (parse u (toString n)).toOption
  | .str s => (parse u s).toOption
  | _ => none

/-- An id is written as a key of a map as its text, and a key is read as any text is. -/
def serializeKey (id : VmId) : String := id.text

def deserializeKey (s : String) : Option VmId := (parse u s).toOption

/-- An id that came from a user: every other way in goes through the text. -/
def Given (id : VmId) : Prop := ∃ s, parse u s = .ok id

/-- The number has fewer than three digits. -/
def Short (id : VmId) : Prop := ∃ n < 100, id = .numeric n

/-- The id comes back from its text, from its value and from a key of a map. -/
def ComesBack (id : VmId) : Prop :=
  parse u id.text = .ok id ∧ deserialize u (serialize id) = some id ∧
    deserializeKey u (serializeKey id) = some id

variable {u} {id : VmId}

theorem deserialize_given {j : Json} (h : deserialize u j = some id) : Given u id := by
  unfold deserialize at h
  split at h
  · exact ⟨_, toOption_some h⟩
  · exact ⟨_, toOption_some h⟩
  · cases h

theorem parse_digits {s : String} (h : 3 ≤ s.length ∧ s.length ≤ 10 ∧ s.toList.all Char.isDigit) :
    parse u s = .ok (.numeric (Nat.ofDigitChars 10 s.toList 0)) := if_pos h

theorem parse_uuid {s : String}
    (h : ¬ (3 ≤ s.length ∧ s.length ≤ 10 ∧ s.toList.all Char.isDigit)) :
    parse u s = match u.parseStr s with
      | some id => .ok (.legacy id)
      | none => .error s!"invalid vm id: {s}" := if_neg h

theorem text_length_le {n k : ℕ} (hk : 0 < k) : (toString n).length ≤ k ↔ n < 10 ^ k :=
  Nat.length_repr_le_iff hk

theorem text_digits (n : ℕ) : (toString n).toList.all Char.isDigit = true := by
  rw [List.all_eq_true]
  intro c hc
  rw [Nat.toString_eq_repr, Nat.toList_repr] at hc
  exact Nat.isDigit_of_mem_toDigits (by decide) (by decide) hc

/-- The digits of a number are read as the number when there are three to ten of them. -/
theorem parse_number {n : ℕ} (hn : n < 10 ^ 10) :
    parse u (toString n) = .ok (.numeric n) ↔ 100 ≤ n := by
  have hlong : (toString n).length ≤ 10 := (text_length_le (by decide)).mpr hn
  have hthree : 3 ≤ (toString n).length ↔ 100 ≤ n := by
    have htwo : (toString n).length ≤ 2 ↔ n < 10 ^ 2 := text_length_le (by decide)
    omega
  by_cases hge : 100 ≤ n
  · refine iff_of_true ?_ hge
    rw [parse_digits ⟨hthree.mpr hge, hlong, text_digits n⟩, Nat.toString_eq_repr, Nat.toList_repr,
      Nat.ofDigitChars_ten_toDigits]
  · refine iff_of_false ?_ hge
    rw [parse_uuid (fun h => hge (hthree.mp h.1)), u.parse_short (by omega)]
    exact nofun

/-- What the digits of a text stand for has no more digits. -/
theorem ofDigitChars_lt {cs : List Char} (h : cs.all Char.isDigit = true) :
    Nat.ofDigitChars 10 cs 0 < 10 ^ cs.length := by
  induction cs with
  | nil => exact Nat.zero_lt_one
  | cons c cs ih =>
    rw [List.all_cons, Bool.and_eq_true] at h
    have hc : c.toNat - '0'.toNat < 10 := by
      have hle : c.val.toNat ≤ 57 := by
        have hdigit := h.1
        simp only [Char.isDigit, Bool.and_eq_true, decide_eq_true_eq] at hdigit
        exact UInt32.le_iff_toNat_le.mp hdigit.2
      have hzero : '0'.toNat = 48 := rfl
      have hnat : c.toNat = c.val.toNat := rfl
      omega
    have hrest := ih h.2
    rw [Nat.ofDigitChars_cons, Nat.ofDigitChars_eq_ofDigitChars_zero, List.length_cons, pow_succ]
    generalize c.toNat - '0'.toNat = d at hc
    have hmul : 10 ^ cs.length * (10 * 0 + d) ≤ 10 ^ cs.length * 9 :=
      Nat.mul_le_mul_left _ (by omega)
    omega

/-- The 32 digits of a uuid. -/
def uuidDigits (id : Uuid) : List Char :=
  List.replicate (32 - (Nat.toDigits 16 id).length) '0' ++ Nat.toDigits 16 id

theorem uuidText_toList (id : Uuid) :
    (uuidText id).toList = (uuidDigits id).take 8 ++ '-' :: ((uuidDigits id).drop 8).take 4 ++
      '-' :: ((uuidDigits id).drop 12).take 4 ++ '-' :: ((uuidDigits id).drop 16).take 4 ++
        '-' :: ((uuidDigits id).drop 20).take 12 := by
  have hgroups : uuidText id = String.ofList (((uuidDigits id).drop 0).take 8) ++ "-" ++
      String.ofList (((uuidDigits id).drop 8).take 4) ++ "-" ++
      String.ofList (((uuidDigits id).drop 12).take 4) ++ "-" ++
      String.ofList (((uuidDigits id).drop 16).take 4) ++ "-" ++
      String.ofList (((uuidDigits id).drop 20).take 12) := rfl
  rw [hgroups]
  simp [String.toList_append]

/-- The hyphens of a uuid keep it apart from a number. -/
theorem uuid_not_digits (id : Uuid) : (uuidText id).toList.all Char.isDigit = false := by
  rw [List.all_eq_false]
  refine ⟨'-', ?_, by decide⟩
  rw [uuidText_toList]
  simp

theorem parse_legacy {id : Uuid} (h : id < 2 ^ 128) : parse u (uuidText id) = .ok (.legacy id) := by
  rw [parse_uuid (fun hd => by rw [uuid_not_digits] at hd; exact Bool.false_ne_true hd.2.2),
    u.parse_text h]

/-- A given number has ten digits at most, and a given uuid 128 bits. -/
theorem given_cases (h : Given u id) :
    (∃ n, id = .numeric n ∧ n < 10 ^ 10) ∨ ∃ uuid, id = .legacy uuid ∧ uuid < 2 ^ 128 := by
  obtain ⟨s, h⟩ := h
  unfold parse at h
  split at h
  · rename_i hd
    cases h
    refine .inl ⟨_, rfl, (ofDigitChars_lt hd.2.2).trans_le ?_⟩
    exact Nat.pow_le_pow_right (by decide) hd.2.1
  · split at h
    · rename_i uuid huuid
      cases h
      exact .inr ⟨uuid, rfl, u.parse_lt huuid⟩
    · cases h

/-- A given id is read from its own text unless it is a number of fewer than three digits. -/
theorem parse_text_iff (h : Given u id) : parse u id.text = .ok id ↔ ¬ Short id := by
  rcases given_cases h with ⟨n, rfl, hn⟩ | ⟨uuid, rfl, huuid⟩
  · refine (parse_number hn).trans ?_
    constructor
    · rintro hge ⟨m, hm, heq⟩
      cases heq
      omega
    · intro hlong
      by_contra hlt
      exact hlong ⟨n, by omega, rfl⟩
  · have hparse : parse u (VmId.legacy uuid).text = .ok (.legacy uuid) := by
      rw [VmId.text]
      exact parse_legacy huuid
    refine iff_of_true hparse ?_
    rintro ⟨n, -, heq⟩
    cases heq

theorem deserialize_serialize (id : VmId) :
    deserialize u (serialize id) = (parse u id.text).toOption := by
  cases id with
  | numeric n =>
    show (parse u (toString n)).toOption = (parse u (VmId.numeric n).text).toOption
    rw [VmId.text]
  | legacy uuid =>
    show (parse u (uuidText uuid)).toOption = (parse u (VmId.legacy uuid).text).toOption
    rw [VmId.text]

theorem comesBack_iff (h : Given u id) : ComesBack u id ↔ ¬ Short id := by
  rw [← parse_text_iff h]
  refine ⟨And.left, fun hparse => ⟨hparse, ?_, ?_⟩⟩
  · rw [deserialize_serialize, hparse]
    rfl
  · rw [deserializeKey, serializeKey, hparse]
    rfl

section reading

def hexVal (c : Char) : ℕ := if c.isDigit then c.toNat - 48 else c.toNat - 87

def ofHex (cs : List Char) : ℕ := cs.foldl (fun n c => 16 * n + hexVal c) 0

theorem hexVal_digitChar : ∀ d < 16, hexVal d.digitChar = d := by decide

theorem hyphen_ne_digitChar : ∀ d < 16, d.digitChar ≠ '-' := by decide

theorem ofHex_toDigits (n : ℕ) : ofHex (Nat.toDigits 16 n) = n := by
  induction n using Nat.strong_induction_on with
  | _ n ih =>
    rw [Nat.toDigits_eq_if (by decide)]
    split
    · rename_i hlt
      simp [ofHex, hexVal_digitChar n hlt]
    · rename_i hge
      have hdiv := ih (n / 16) (Nat.div_lt_self (by omega) (by decide))
      unfold ofHex at hdiv ⊢
      rw [List.foldl_append, hdiv, List.foldl_cons, List.foldl_nil,
        hexVal_digitChar _ (Nat.mod_lt n (by decide))]
      omega

theorem mem_toDigits {c : Char} {n : ℕ} (hc : c ∈ Nat.toDigits 16 n) :
    ∃ d < 16, c = Nat.digitChar d := by
  induction n using Nat.strong_induction_on with
  | _ n ih =>
    rw [Nat.toDigits_eq_if (by decide)] at hc
    split at hc
    · rename_i hlt
      exact ⟨n, hlt, List.mem_singleton.mp hc⟩
    · rename_i hge
      rcases List.mem_append.mp hc with hc | hc
      · exact ih (n / 16) (Nat.div_lt_self (by omega) (by decide)) hc
      · exact ⟨n % 16, Nat.mod_lt n (by decide), List.mem_singleton.mp hc⟩

theorem toDigits_no_hyphen (n : ℕ) : ∀ c ∈ Nat.toDigits 16 n, c ≠ '-' := by
  intro c hc
  obtain ⟨d, hd, rfl⟩ := mem_toDigits hc
  exact hyphen_ne_digitChar d hd

theorem uuidDigits_length {uuid : Uuid} (h : uuid < 2 ^ 128) : (uuidDigits uuid).length = 32 := by
  have hlen : (Nat.toDigits 16 uuid).length ≤ 32 :=
    (Nat.length_toDigits_le_iff (by decide) (by decide)).mpr h
  rw [uuidDigits, List.length_append, List.length_replicate]
  omega

theorem ofHex_uuidDigits (uuid : Uuid) : ofHex (uuidDigits uuid) = uuid := by
  have hzeros : ∀ k, (List.replicate k '0').foldl (fun n c => 16 * n + hexVal c) 0 = 0 := by
    intro k
    induction k with
    | zero => rfl
    | succ k ih => exact ih
  rw [ofHex, uuidDigits, List.foldl_append, hzeros]
  exact ofHex_toDigits uuid

theorem uuidDigits_no_hyphen (uuid : Uuid) : ∀ c ∈ uuidDigits uuid, c ≠ '-' := by
  intro c hc
  rcases List.mem_append.mp hc with hc | hc
  · rw [List.eq_of_mem_replicate hc]
    decide
  · exact toDigits_no_hyphen uuid c hc

/-- The groups of a uuid, put together. -/
theorem groups_eq {cs : List Char} (h : cs.length = 32) :
    cs.take 8 ++ ((cs.drop 8).take 4 ++ ((cs.drop 12).take 4 ++ ((cs.drop 16).take 4 ++
      (cs.drop 20).take 12))) = cs := by
  have hnext : ∀ a k, (cs.drop a).take k ++ cs.drop (a + k) = cs.drop a := by
    intro a k
    rw [← List.drop_drop, List.take_append_drop]
  have hlast : (cs.drop 20).take 12 = cs.drop 20 := by
    apply List.take_of_length_le
    rw [List.length_drop]
    omega
  rw [hlast, hnext 16 4, hnext 12 4, hnext 8 4, List.take_append_drop]

/-- Without its hyphens a uuid is its digits. -/
theorem uuidText_filter {uuid : Uuid} (h : uuid < 2 ^ 128) :
    (uuidText uuid).toList.filter (fun c => c ≠ '-') = uuidDigits uuid := by
  have hkeep : ∀ cs : List Char, cs.Sublist (uuidDigits uuid) →
      cs.filter (fun c => decide (c ≠ '-')) = cs := by
    intro cs hsub
    refine List.filter_eq_self.mpr (fun c hc => ?_)
    exact decide_eq_true (uuidDigits_no_hyphen uuid c (hsub.subset hc))
  have hgroup : ∀ a k, ((uuidDigits uuid).drop a).take k |>.Sublist (uuidDigits uuid) :=
    fun a k => (List.take_sublist k _).trans (List.drop_sublist a _)
  rw [uuidText_toList]
  simp only [List.append_assoc, List.filter_append, List.cons_append, List.filter_cons,
    hkeep _ (List.take_sublist 8 _), hkeep _ (hgroup _ _), ne_eq, not_true_eq_false, decide_false,
    Bool.false_eq_true, if_false]
  exact groups_eq (uuidDigits_length h)

theorem uuidText_inj {a b : Uuid} (ha : a < 2 ^ 128) (hb : b < 2 ^ 128)
    (h : uuidText a = uuidText b) : a = b := by
  have hdigits : uuidDigits a = uuidDigits b := by
    rw [← uuidText_filter ha, ← uuidText_filter hb, h]
  rw [← ofHex_uuidDigits a, ← ofHex_uuidDigits b, hdigits]

theorem uuidText_length {uuid : Uuid} (h : uuid < 2 ^ 128) : (uuidText uuid).toList.length = 36 := by
  rw [uuidText_toList]
  simp [List.length_append, List.length_take, List.length_drop, uuidDigits_length h]

/-- The form that `Display` writes. -/
def hyphenated (s : String) : Option Uuid :=
  let uuid := ofHex (s.toList.filter (fun c => c ≠ '-'))
  if uuid < 2 ^ 128 ∧ uuidText uuid = s then some uuid else none

/-- A reader of uuids that takes this form only. -/
def hyphenatedCrate : UuidCrate where
  parseStr := hyphenated
  parse_lt h := by
    unfold hyphenated at h
    dsimp only at h
    split at h
    · rename_i hlt
      cases h
      exact hlt.1
    · cases h
  parse_text h := by
    unfold hyphenated
    dsimp only
    rw [uuidText_filter h, ofHex_uuidDigits, if_pos ⟨h, rfl⟩]
  parse_short {s} h := by
    unfold hyphenated
    dsimp only
    rw [if_neg]
    rintro ⟨hlt, htext⟩
    have hlen := congrArg List.length (uuidText_filter hlt)
    rw [htext, uuidDigits_length hlt] at hlen
    have hle := List.length_filter_le (fun c => decide (c ≠ '-')) s.toList
    rw [hlen, String.length_toList] at hle
    omega

end reading

end Pertisk.Store
