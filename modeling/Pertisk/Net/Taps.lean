import Pertisk.Net.Addresses
import Pertisk.Store.Ids

namespace Pertisk.Net
open Store (UuidCrate Given uuidDigits)

/-- What a tap's name takes from an id. -/
def tapDigits (id : VmId) : List Char := id.text.toList.filter (· ≠ '-')

def tapStart (id : VmId) : List Char := (tapDigits id).take 8

/-- Two ids of eight digits or more that begin alike, at one index. -/
structure CutAlike (a : VmId) (i : ℕ) (b : VmId) (j : ℕ) : Prop where
  ne : a ≠ b
  index : i = j
  long : 8 ≤ (tapDigits a).length ∧ 8 ≤ (tapDigits b).length
  start : tapStart a = tapStart b

/-- A number of fewer than eight digits begins the other id, and the digits that follow there stand
before the other index. -/
def DigitsMove (a : VmId) (i : ℕ) (b : VmId) (j : ℕ) : Prop :=
  ∃ n < 10 ^ 7, ∃ moved ≠ [], a = .numeric n ∧
    tapStart b = (toString n).toList ++ moved ∧ (toString i).toList = moved ++ (toString j).toList

section names
variable {u : UuidCrate} {a b : VmId} {i j : ℕ}

theorem toList_tapName (id : VmId) (i : ℕ) :
    (tapName id i).toList = 'p' :: (tapStart id ++ (toString i).toList) := by
  have hself : ∀ s : String, toString s = s := fun _ => rfl
  simp [tapName, tapStart, tapDigits, hself]

theorem tapName_eq_iff : tapName a i = tapName b j ↔
    tapStart a ++ (toString i).toList = tapStart b ++ (toString j).toList := by
  rw [← String.toList_inj, toList_tapName, toList_tapName, List.cons_inj_right]

theorem digits_inj (h : (toString i).toList = (toString j).toList) : i = j := by
  rw [toList_digits, toList_digits] at h
  rw [← Nat.ofDigitChars_ten_toDigits (n := i), h, Nat.ofDigitChars_ten_toDigits]

theorem tapDigits_numeric (n : ℕ) : tapDigits (.numeric n) = (toString n).toList := by
  refine List.filter_eq_self.mpr fun c hc => ?_
  have hdigit := isDigit_digits hc
  refine decide_eq_true ?_
  rintro rfl
  exact absurd hdigit (by decide)

theorem tapDigits_legacy {uuid : Uuid} (h : uuid < 2 ^ 128) :
    tapDigits (.legacy uuid) = uuidDigits uuid := by
  unfold tapDigits VmId.text
  exact Store.uuidText_filter h

/-- An id of fewer than eight digits is a number, and stands whole in the name. -/
theorem numeric_of_short (h : Given u a) (hshort : (tapDigits a).length < 8) :
    ∃ n < 10 ^ 7, a = .numeric n ∧ tapStart a = (toString n).toList := by
  rcases Store.given_cases h with ⟨n, rfl, -⟩ | ⟨uuid, rfl, huuid⟩
  · rw [tapDigits_numeric] at hshort
    refine ⟨n, ?_, rfl, ?_⟩
    · refine (Store.text_length_le (k := 7) (by decide)).mp ?_
      rw [String.length_toList] at hshort
      omega
    · rw [tapStart, tapDigits_numeric, List.take_of_length_le (by omega)]
  · rw [tapDigits_legacy huuid, Store.uuidDigits_length huuid] at hshort
    omega

theorem length_tapStart (a : VmId) : (tapStart a).length = min 8 (tapDigits a).length :=
  List.length_take

/-- Ids of one start are one id unless both were cut. -/
theorem eq_of_short (ha : Given u a) (hb : Given u b) (h : tapStart a = tapStart b)
    (hshort : (tapDigits a).length < 8) : a = b := by
  have hlen := congrArg List.length h
  rw [length_tapStart, length_tapStart] at hlen
  obtain ⟨n, -, rfl, hn⟩ := numeric_of_short ha hshort
  obtain ⟨m, -, rfl, hm⟩ := numeric_of_short hb (by omega)
  rw [hn, hm] at h
  rw [digits_inj h]

theorem cutAlike_of_start (ha : Given u a) (hb : Given u b) (hne : a ≠ b) (hi : i = j)
    (h : tapStart a = tapStart b) : CutAlike a i b j := by
  refine ⟨hne, hi, ⟨?_, ?_⟩, h⟩
  · exact Nat.not_lt.mp fun hshort => hne (eq_of_short ha hb h hshort)
  · exact Nat.not_lt.mp fun hshort => hne (eq_of_short hb ha h.symm hshort).symm

/-- The longer start begins with the shorter one. -/
theorem digitsMove_of_lt (ha : Given u a) (h : tapName a i = tapName b j)
    (hlt : (tapStart a).length < (tapStart b).length) : DigitsMove a i b j := by
  rw [tapName_eq_iff] at h
  rcases List.append_eq_append_iff.mp h with ⟨moved, hstart, hindex⟩ | ⟨moved, hstart, -⟩
  · have hlen := congrArg List.length hstart
    rw [List.length_append] at hlen
    have hb := length_tapStart b
    have ha' := length_tapStart a
    obtain ⟨n, hn, hnum, htext⟩ := numeric_of_short ha (by omega)
    refine ⟨n, hn, moved, ?_, hnum, htext ▸ hstart, hindex⟩
    rintro rfl
    rw [List.length_nil] at hlen
    omega
  · have hlen := congrArg List.length hstart
    rw [List.length_append] at hlen
    omega

theorem not_digitsMove_self : ¬ DigitsMove a i a i := by
  rintro ⟨n, -, moved, hne, -, -, hindex⟩
  exact hne (List.self_eq_append_left.mp hindex)

theorem tapName_of_cutAlike (h : CutAlike a i b j) : tapName a i = tapName b j := by
  rw [tapName_eq_iff, h.start, h.index]

theorem tapName_of_digitsMove (h : DigitsMove a i b j) : tapName a i = tapName b j := by
  obtain ⟨n, hn, moved, -, rfl, hstart, hindex⟩ := h
  have hshort : tapStart (.numeric n) = (toString n).toList := by
    have hlen := (Store.text_length_le (k := 7) (by decide)).mpr hn
    rw [tapStart, tapDigits_numeric, List.take_of_length_le]
    rw [String.length_toList]
    omega
  rw [tapName_eq_iff, hshort, hstart, hindex, List.append_assoc]

end names

/-- Two NICs share a name exactly when both ids are cut and begin alike, or when digits of one id
stand before the other's index. -/
theorem tapName_inj_iff (u : UuidCrate) (a b : VmId) (i j : ℕ) (ha : Given u a) (hb : Given u b) :
    (tapName a i = tapName b j → a = b ∧ i = j) ↔
      ¬ CutAlike a i b j ∧ ¬ DigitsMove a i b j ∧ ¬ DigitsMove b j a i := by
  constructor
  · intro h
    refine ⟨fun hcut => hcut.ne (h (tapName_of_cutAlike hcut)).1, fun hmove => ?_, fun hmove => ?_⟩
    · obtain ⟨rfl, rfl⟩ := h (tapName_of_digitsMove hmove)
      exact not_digitsMove_self hmove
    · obtain ⟨rfl, rfl⟩ := h (tapName_of_digitsMove hmove).symm
      exact not_digitsMove_self hmove
  · rintro ⟨hcut, hmove, hmove'⟩ h
    rcases Nat.lt_trichotomy (tapStart a).length (tapStart b).length with hlt | heq | hlt
    · exact absurd (digitsMove_of_lt ha h hlt) hmove
    · obtain ⟨hstart, hindex⟩ := List.append_inj (tapName_eq_iff.mp h) heq
      have hi := digits_inj hindex
      exact ⟨by_contra fun hne => hcut (cutAlike_of_start ha hb hne hi hstart), hi⟩
    · exact absurd (digitsMove_of_lt hb h.symm hlt) hmove'

theorem tapName_inj_of_short :
    (tapName (.numeric 100) 1 = tapName (.numeric 101) 1 →
      VmId.numeric 100 = .numeric 101 ∧ 1 = 1) ↔
      ¬ CutAlike (.numeric 100) 1 (.numeric 101) 1 ∧
        ¬ DigitsMove (.numeric 100) 1 (.numeric 101) 1 ∧
        ¬ DigitsMove (.numeric 101) 1 (.numeric 100) 1 :=
  tapName_inj_iff Store.hyphenatedCrate (.numeric 100) (.numeric 101) 1 1
    ⟨"100", by decide⟩ ⟨"101", by decide⟩

/-- The last digit of one id goes on to the other's index. -/
theorem digit_moves_to_index : ¬ ∀ (u : UuidCrate) (a b : VmId) (i j : ℕ), Given u a → Given u b →
    tapName a i = tapName b j → a = b ∧ i = j := by
  intro h
  have hsame := h Store.hyphenatedCrate (.numeric 100) (.numeric 1001) 10 0
    ⟨"100", by decide⟩ ⟨"1001", by decide⟩ (by decide)
  exact absurd hsame.1 (by decide)

end Pertisk.Net
