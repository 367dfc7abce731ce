import Mathlib.Data.UInt
import Pertisk.Lib.Text
import Pertisk.PeerUrl

namespace Pertisk.Types
open Lib PeerUrl

/-- `u64`'s `FromStr`, for what is digits only. -/
def parseU64 (digits : List Char) : Option UInt64 :=
  match decimal digits with
  | some n => if n < UInt64.size then some (.ofNat n) else none
  | none => none

def checkedMul (n m : UInt64) : Option UInt64 :=
  if n.toNat * m.toNat < UInt64.size then some (n * m) else none

def sizeUnit (suffix : String) : Option UInt64 :=
  match suffix with
  | "" | "b" => some 1
  | "k" | "kb" | "kib" => some 1024
  | "m" | "mb" | "mib" => some (1024 * 1024)
  | "g" | "gb" | "gib" => some (1024 * 1024 * 1024)
  | "t" | "tb" | "tib" => some (1024 ^ 4)
  | _ => none

/-- A failure is the text of an invalid spec. -/
def parseSize (input : String) : Except String UInt64 :=
  let raw := trim input.toList
  if raw.isEmpty then .error "size is required"
  else
    let digits := raw.takeWhile Char.isDigit
    let suffix := raw.dropWhile Char.isDigit
    match parseU64 digits with
    | none => .error s!"invalid size '{input}'"
    | some n =>
      let unit := String.ofList ((trim suffix).map Char.toLower)
      match sizeUnit unit with
      | none => .error s!"unknown size suffix '{unit}'"
      | some mul =>
        match checkedMul n mul with
        | none => .error "size overflow"
        | some bytes => .ok bytes

def kib : UInt64 := 1024
def mib : UInt64 := 1024 * 1024
def gib : UInt64 := 1024 * 1024 * 1024
def tib : UInt64 := 1024 ^ 4

/-- The largest unit that the size is a multiple of. -/
def formatSize (bytes : UInt64) : String :=
  if tib ≤ bytes ∧ bytes % tib = 0 then s!"{bytes / tib}TiB"
  else if gib ≤ bytes ∧ bytes % gib = 0 then s!"{bytes / gib}GiB"
  else if mib ≤ bytes ∧ bytes % mib = 0 then s!"{bytes / mib}MiB"
  else if kib ≤ bytes ∧ bytes % kib = 0 then s!"{bytes / kib}KiB"
  else s!"{bytes}B"

/-- How many bytes a spelling stands for. -/
def spellings : List (String × ℕ) :=
  [("", 1), ("b", 1), ("k", 1024), ("kb", 1024), ("kib", 1024), ("m", 1024 ^ 2), ("mb", 1024 ^ 2),
    ("mib", 1024 ^ 2), ("g", 1024 ^ 3), ("gb", 1024 ^ 3), ("gib", 1024 ^ 3), ("t", 1024 ^ 4),
    ("tb", 1024 ^ 4), ("tib", 1024 ^ 4)]

/-- The input is a number of units, with spaces around the number and around the unit, whose letters
are folded before they are read. -/
def SaysWith (fold : Char → Char) (input : String) (n unit : ℕ) : Prop :=
  ∃ digits suffix spelling, trim input.toList = digits ++ suffix ∧ decimal digits = some n ∧
    (∀ c ∈ suffix.head?, c.isDigit = false) ∧ (spelling, unit) ∈ spellings ∧
    (trim suffix).map fold = spelling.toList

def Says : String → ℕ → ℕ → Prop := SaysWith Char.toLower

variable {input : String} {n unit : ℕ} {digits suffix : List Char} {fold : Char → Char}

theorem sizeUnit_some {text : String} {mul : UInt64} :
    sizeUnit text = some mul ↔ (text, mul.toNat) ∈ spellings := by
  constructor
  · intro h
    unfold sizeUnit at h
    split at h
    all_goals first
      | cases h; decide
      | cases h
  · intro h
    have hall : ∀ p ∈ spellings, sizeUnit p.1 = some (.ofNat p.2) := by decide
    have htext := hall _ h
    rwa [UInt64.ofNat_toNat] at htext

theorem parseU64_some {n : UInt64} : parseU64 digits = some n ↔ decimal digits = some n.toNat := by
  unfold parseU64
  cases hdecimal : decimal digits with
  | none => exact ⟨fun h => (nomatch h), fun h => (nomatch h)⟩
  | some value =>
    dsimp only
    by_cases hlt : value < UInt64.size
    · rw [if_pos hlt, Option.some.injEq, Option.some.injEq, ← UInt64.toNat_inj,
        UInt64.toNat_ofNat_of_lt' hlt]
    · rw [if_neg hlt, Option.some.injEq]
      exact ⟨fun h => (nomatch h), fun h => absurd (h ▸ n.toNat_lt_size) hlt⟩

theorem checkedMul_some {n m product : UInt64} :
    checkedMul n m = some product ↔ product.toNat = n.toNat * m.toNat := by
  unfold checkedMul
  by_cases hlt : n.toNat * m.toNat < UInt64.size
  · have hmul : (n * m).toNat = n.toNat * m.toNat := by
      rw [UInt64.toNat_mul]
      exact Nat.mod_eq_of_lt hlt
    rw [if_pos hlt, Option.some.injEq, ← UInt64.toNat_inj, hmul]
    exact eq_comm
  · rw [if_neg hlt]
    exact ⟨fun h => (nomatch h), fun h => absurd (h ▸ product.toNat_lt_size) hlt⟩

theorem cut_at {p : Char → Bool} (hall : ∀ c ∈ digits, p c = true)
    (hhead : ∀ c ∈ suffix.head?, p c = false) :
    (digits ++ suffix).takeWhile p = digits ∧ (digits ++ suffix).dropWhile p = suffix := by
  rw [List.takeWhile_append_of_pos hall, List.dropWhile_append_of_pos hall, dropWhile_eq_self hhead]
  refine ⟨?_, rfl⟩
  cases suffix with
  | nil => exact List.append_nil _
  | cons c suffix =>
    rw [List.takeWhile_cons_of_neg (by simp [hhead c rfl])]
    exact List.append_nil _

theorem all_digits (h : decimal digits = some n) : ∀ c ∈ digits, c.isDigit = true :=
  List.all_eq_true.mp (decimal_eq_some.mp h).2.1

/-- The number and the suffix are cut apart where the digits end. -/
theorem parseSize_of_split (hraw : trim input.toList = digits ++ suffix)
    (hdigits : decimal digits = some n) (hhead : ∀ c ∈ suffix.head?, c.isDigit = false) :
    parseSize input =
      match parseU64 digits with
      | none => .error s!"invalid size '{input}'"
      | some n =>
        let unit := String.ofList ((trim suffix).map Char.toLower)
        match sizeUnit unit with
        | none => .error s!"unknown size suffix '{unit}'"
        | some mul =>
          match checkedMul n mul with
          | none => .error "size overflow"
          | some bytes => .ok bytes := by
  obtain ⟨hne, -, -⟩ := decimal_eq_some.mp hdigits
  obtain ⟨htake, hdrop⟩ := cut_at (all_digits hdigits) hhead
  have hsome : (digits ++ suffix).isEmpty = false :=
    List.isEmpty_eq_false_iff.mpr (List.append_ne_nil_of_left_ne_nil hne suffix)
  rw [parseSize, hraw, hsome, htake, hdrop]
  rfl

theorem sizeUnit_says {spelling : String} (h : (spelling, unit) ∈ spellings) :
    ∃ mul, sizeUnit spelling = some mul ∧ mul.toNat = unit ∧ 0 < unit := by
  have hall : ∀ p ∈ spellings, 0 < p.2 ∧ p.2 < UInt64.size := by decide
  obtain ⟨hpos, hlt⟩ := hall _ h
  have hunit : (UInt64.ofNat unit).toNat = unit := UInt64.toNat_ofNat_of_lt' hlt
  exact ⟨.ofNat unit, sizeUnit_some.mpr (hunit.symm ▸ h), hunit, hpos⟩

theorem parseSize_fits (h : Says input n unit) (hfits : n * unit < UInt64.size) :
    parseSize input = .ok (.ofNat (n * unit)) := by
  obtain ⟨digits, suffix, spelling, hraw, hdigits, hhead, hspell, hunit⟩ := h
  obtain ⟨mul, hmul, hsame, hpos⟩ := sizeUnit_says hspell
  have hlt : n < UInt64.size := Nat.lt_of_le_of_lt (Nat.le_mul_of_pos_right n hpos) hfits
  have hnum : (UInt64.ofNat n).toNat = n := UInt64.toNat_ofNat_of_lt' hlt
  have hread : parseU64 digits = some (.ofNat n) := parseU64_some.mpr (hnum.symm ▸ hdigits)
  have hproduct : checkedMul (.ofNat n) mul = some (.ofNat (n * unit)) := by
    rw [checkedMul_some, UInt64.toNat_ofNat_of_lt' hfits, hnum, hsame]
  rw [parseSize_of_split hraw hdigits hhead, hread, hunit, String.ofList_toList]
  dsimp only
  rw [hmul]
  dsimp only
  rw [hproduct]

theorem says_of_parseSize {bytes : UInt64} (h : parseSize input = .ok bytes) :
    ∃ n unit, Says input n unit ∧ bytes.toNat = n * unit := by
  unfold parseSize at h
  dsimp only at h
  split at h
  · cases h
  split at h
  · cases h
  rename_i n hn
  split at h
  · cases h
  rename_i mul hmul
  split at h
  · cases h
  rename_i product hproduct
  cases h
  have hhead : ∀ c ∈ ((trim input.toList).dropWhile Char.isDigit).head?, c.isDigit = false := by
    intro c hc
    have hfirst := List.head?_dropWhile_not Char.isDigit (trim input.toList)
    rw [hc] at hfirst
    exact hfirst
  exact ⟨n.toNat, mul.toNat, ⟨_, _, _, List.takeWhile_append_dropWhile.symm, parseU64_some.mp hn,
    hhead, sizeUnit_some.mp hmul, String.toList_ofList.symm⟩, checkedMul_some.mp hproduct⟩

/-- Digits and the letters of a unit read back what they say. -/
theorem says_text {letters spelling : String} (hspell : (spelling, unit) ∈ spellings)
    (hlower : (trim letters.toList).map Char.toLower = spelling.toList)
    (hends : letters.toList.head?.all (!·.isDigit) = true ∧
      letters.toList.getLast?.all (!isWhiteSpace ·) = true) (hne : letters.toList ≠ []) :
    Says (toString n ++ letters) n unit := by
  simp only [Option.all_eq_true, Bool.not_eq_true'] at hends
  obtain ⟨hhead, hlast⟩ := hends
  refine ⟨(toString n).toList, letters.toList, spelling, ?_, decimal_toString n, hhead, hspell,
    hlower⟩
  rw [String.toList_append]
  refine trim_eq_self (fun c hc => ?_) (fun c hc => ?_)
  · rw [List.head?_append_of_ne_nil _ (toString_ne_nil n)] at hc
    exact not_whiteSpace_of_isDigit (isDigit_of_mem_toString (List.mem_of_mem_head? hc))
  · rw [List.getLast?_append_of_ne_nil _ hne] at hc
    exact hlast c hc

/-- An input is cut in one way. -/
theorem split_unique {digits' suffix' : List Char} {m : ℕ} (hraw : digits ++ suffix = digits' ++ suffix')
    (hdigits : decimal digits = some n) (hhead : ∀ c ∈ suffix.head?, c.isDigit = false)
    (hdigits' : decimal digits' = some m) (hhead' : ∀ c ∈ suffix'.head?, c.isDigit = false) :
    digits = digits' ∧ suffix = suffix' := by
  have hcut := cut_at (all_digits hdigits) hhead
  have hcut' := cut_at (all_digits hdigits') hhead'
  rw [hraw] at hcut
  exact ⟨hcut.1.symm.trans hcut'.1, hcut.2.symm.trans hcut'.2⟩

/-- An input says one thing. -/
theorem says_unique {m u : ℕ} (h : SaysWith fold input n unit) (h' : SaysWith fold input m u) :
    n = m ∧ unit = u := by
  obtain ⟨digits, suffix, spelling, hraw, hdigits, hhead, hspell, hunit⟩ := h
  obtain ⟨digits', suffix', spelling', hraw', hdigits', hhead', hspell', hunit'⟩ := h'
  obtain ⟨rfl, rfl⟩ := split_unique (hraw.symm.trans hraw') hdigits hhead hdigits' hhead'
  rw [hdigits] at hdigits'
  have hspelling : spelling = spelling' := String.toList_inj.mp (hunit.symm.trans hunit')
  subst hspelling
  have hkeys : ∀ p ∈ spellings, ∀ q ∈ spellings, p.1 = q.1 → p.2 = q.2 := by decide
  exact ⟨Option.some.inj hdigits', hkeys _ hspell _ hspell' rfl⟩

/-- A multiple of a unit, in that unit. -/
theorem says_multiple {bytes unit : UInt64} {letters spelling : String}
    (hmod : bytes % unit = 0) (hspell : (spelling, unit.toNat) ∈ spellings)
    (hlower : (trim letters.toList).map Char.toLower = spelling.toList)
    (hends : letters.toList.head?.all (!·.isDigit) = true ∧
      letters.toList.getLast?.all (!isWhiteSpace ·) = true) (hne : letters.toList ≠ []) :
    ∃ n u, Says (toString (bytes / unit) ++ letters) n u ∧ n * u = bytes.toNat := by
  refine ⟨(bytes / unit).toNat, unit.toNat, says_text hspell hlower hends hne, ?_⟩
  have hdvd : bytes.toNat % unit.toNat = 0 := by
    rw [← UInt64.toNat_mod, hmod]
    rfl
  rw [UInt64.toNat_div]
  exact Nat.div_mul_cancel (Nat.dvd_of_mod_eq_zero hdvd)

theorem formatSize_says (bytes : UInt64) :
    ∃ n unit, Says (formatSize bytes) n unit ∧ n * unit = bytes.toNat := by
  unfold formatSize
  split
  · rename_i h
    have hspell : ("tib", tib.toNat) ∈ spellings := by decide
    exact says_multiple h.2 hspell (by decide) (by decide) (by decide)
  split
  · rename_i h
    have hspell : ("gib", gib.toNat) ∈ spellings := by decide
    exact says_multiple h.2 hspell (by decide) (by decide) (by decide)
  split
  · rename_i h
    have hspell : ("mib", mib.toNat) ∈ spellings := by decide
    exact says_multiple h.2 hspell (by decide) (by decide) (by decide)
  split
  · rename_i h
    have hspell : ("kib", kib.toNat) ∈ spellings := by decide
    exact says_multiple h.2 hspell (by decide) (by decide) (by decide)
  · have hspell : ("b", 1) ∈ spellings := by decide
    refine ⟨bytes.toNat, 1, ?_, Nat.mul_one _⟩
    exact says_text hspell (by decide) (by decide) (by decide)

/-- A size is read back from its text, and a text is read as what it says or, past 64 bits, not at
all. -/
theorem size_exact :
    (∀ bytes : UInt64, parseSize (formatSize bytes) = .ok bytes) ∧
      (∀ input n unit, Says input n unit →
        (n * unit < 2 ^ 64 → parseSize input = .ok (.ofNat (n * unit))) ∧
          (2 ^ 64 ≤ n * unit → ∃ err, parseSize input = .error err)) ∧
      ∀ input bytes, parseSize input = .ok bytes →
        ∃ n unit, Says input n unit ∧ bytes.toNat = n * unit := by
  refine ⟨fun bytes => ?_, fun input n unit h => ⟨parseSize_fits h, fun hlarge => ?_⟩,
    fun input bytes => says_of_parseSize⟩
  · obtain ⟨n, unit, hsays, hbytes⟩ := formatSize_says bytes
    rw [parseSize_fits hsays (hbytes ▸ bytes.toNat_lt_size), hbytes, UInt64.ofNat_toNat]
  · cases hparse : parseSize input with
    | error err => exact ⟨err, rfl⟩
    | ok bytes =>
      obtain ⟨m, u, hother, hbytes⟩ := says_of_parseSize hparse
      obtain ⟨rfl, rfl⟩ := says_unique h hother
      have hlt := bytes.toNat_lt
      omega

theorem size_exact_lab : parseSize " 10 GiB" = .ok (.ofNat (10 * 1024 ^ 3)) :=
  (size_exact.2.1 " 10 GiB" 10 (1024 ^ 3) ⟨['1', '0'], [' ', 'G', 'i', 'B'], "gib", by decide,
    by decide, fun _ hc => Option.some.inj hc ▸ by decide, by decide, by decide⟩).1 (by decide)

end Pertisk.Types
