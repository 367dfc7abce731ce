import Pertisk.Sizes.Parse
import Pertisk.Text

namespace Pertisk.Provider
open Lib PeerUrl Text Types

/-- What the provider uses of Go's library of characters, and `%q`. -/
structure Unicode where
  isDigit : Char → Bool
  toLower : Char → Char
  quote : String → String

/-- The Kelvin sign, which Go lowers to a `k`. -/
def kelvin : Char := Char.ofNat 0x212A

/-- The capital I with a dot, which Go lowers to an `i`. -/
def dotted : Char := Char.ofNat 0x130

/-- On ASCII it does as the daemon's does; no space is a digit; and but for two characters, what is
not ASCII stays so. -/
structure Unicode.Lawful (u : Unicode) : Prop where
  digit : ∀ c, c.toNat < 128 → u.isDigit c = c.isDigit
  space : ∀ c, u.isDigit c = true → isWhiteSpace c = false
  lower : ∀ c, c.toNat < 128 → u.toLower c = c.toLower
  kelvin : u.toLower kelvin = 'k' ∧ u.isDigit kelvin = false
  dotted : u.toLower dotted = 'i' ∧ u.isDigit dotted = false
  other : ∀ c, 128 ≤ c.toNat → c ≠ Provider.kelvin → c ≠ Provider.dotted → 128 ≤ (u.toLower c).toNat

/-- `strconv.ParseUint` in base ten. -/
def parseUint (digits : List Char) : Option UInt64 := parseU64 digits

/-- The number times its unit, which wraps. -/
def product (n : UInt64) (suffix : String) : Option UInt64 :=
  match suffix with
  | "" | "b" => some n
  | "k" | "kb" | "kib" => some (n * 1024)
  | "m" | "mb" | "mib" => some (n * 1024 * 1024)
  | "g" | "gb" | "gib" => some (n * 1024 * 1024 * 1024)
  | "t" | "tb" | "tib" => some (n * 1024 * 1024 * 1024 * 1024)
  | _ => none

def parseSize (u : Unicode) (input : String) : Except String UInt64 :=
  let raw := trim input.toList
  if raw.isEmpty then .error "size is required"
  else
    let digits := raw.takeWhile u.isDigit
    let suffix := raw.dropWhile u.isDigit
    if digits.isEmpty then .error s!"invalid size {u.quote input}"
    else
      match parseUint digits with
      | none => .error s!"invalid size {u.quote input}"
      | some n =>
        match product n (String.ofList ((trim suffix).map u.toLower)) with
        | none => .error s!"unknown size suffix in {u.quote input}"
        | some bytes => .ok bytes

def formatSize (bytes : UInt64) : String :=
  if tib ≤ bytes ∧ bytes % tib = 0 then s!"{bytes / gib}G"
  else if gib ≤ bytes ∧ bytes % gib = 0 then s!"{bytes / gib}G"
  else if mib ≤ bytes ∧ bytes % mib = 0 then s!"{bytes / mib}M"
  else if kib ≤ bytes ∧ bytes % kib = 0 then s!"{bytes / kib}K"
  else toString bytes

/-- Both fail, or both return the same. -/
def Agree (u : Unicode) (input : String) : Prop :=
  (parseSize u input).toOption = (Types.parseSize input).toOption

/-- What the provider takes for a number and a unit fits in 64 bits, and is spelled in ASCII. -/
def Plain (u : Unicode) (input : String) : Prop := ∀ n unit, SaysWith u.toLower input n unit →
  n < 2 ^ 64 → n * unit < 2 ^ 64 ∧ kelvin ∉ trim input.toList ∧ dotted ∉ trim input.toList

variable {u : Unicode} {input : String} {n : ℕ} {digits suffix : List Char} {c : Char}

/-! ### Characters -/

theorem ascii_of_isDigit (h : c.isDigit = true) : c.toNat < 128 := by
  have hnat : c.toNat = c.val.toNat := rfl
  simp only [Char.isDigit, Bool.and_eq_true, decide_eq_true_eq, UInt32.le_iff_toNat_le] at h
  have hhigh : c.toNat ≤ 57 := h.2
  omega

theorem toLower_of_large (h : 128 ≤ c.toNat) : c.toLower = c := by
  unfold Char.toLower
  refine dif_neg fun hupper => ?_
  have hhigh : c.toNat ≤ 90 := UInt32.le_iff_toNat_le.mp hupper.2
  omega

theorem ascii_spelling {spelling : String} {unit : ℕ} (h : (spelling, unit) ∈ spellings)
    (hc : c ∈ spelling.toList) : c.toNat < 128 := by
  have hall : ∀ p ∈ spellings, p.1.toList.all (fun c => decide (c.toNat < 128)) = true := by decide
  exact PeerUrl.forall_of_all (hall _ h) c hc

theorem mem_dropWhile {p : Char → Bool} {s : List Char} (hc : c ∈ s) (hp : p c = false) :
    c ∈ s.dropWhile p := by
  induction s with
  | nil => exact hc
  | cons d s ih =>
    rw [List.dropWhile_cons]
    split
    · rename_i hd
      rcases List.mem_cons.mp hc with rfl | hc
      · rw [hp] at hd
        cases hd
      · exact ih hc
    · exact hc

theorem mem_trim {s : List Char} (hc : c ∈ s) (hspace : isWhiteSpace c = false) : c ∈ trim s := by
  have hstart := List.mem_reverse.mpr (mem_dropWhile hc hspace)
  exact List.mem_reverse.mpr (mem_dropWhile hstart hspace)

/-! ### Both readers -/

/-- No unit is spelled with a character that stays outside ASCII. -/
theorem not_spelled {fold : Char → Char} {t : List Char} {mul : UInt64} (hc : c ∈ t)
    (hfold : 128 ≤ (fold c).toNat) : sizeUnit (String.ofList (t.map fold)) ≠ some mul := by
  intro hsome
  have hmem : fold c ∈ (String.ofList (t.map fold)).toList := by
    rw [String.toList_ofList]
    exact List.mem_map_of_mem hc
  have hascii := ascii_spelling (sizeUnit_some.mp hsome) hmem
  omega

theorem product_eq (n : UInt64) (suffix : String) :
    product n suffix = (sizeUnit suffix).map (n * ·) := by
  unfold product sizeUnit
  split
  all_goals simp only [Option.map_some, Option.map_none, Option.some.injEq, UInt64.mul_assoc]
  case h_1 | h_2 => exact (UInt64.mul_one n).symm
  case h_12 | h_13 | h_14 => exact congrArg (n * ·) (by decide)

theorem large_of_odd (hlaw : u.Lawful) (hdigit : u.isDigit c = true) (hodd : c.isDigit = false) :
    128 ≤ c.toNat := by
  rcases Nat.lt_or_ge c.toNat 128 with hlt | hle
  · rw [hlaw.digit c hlt, hodd] at hdigit
    cases hdigit
  · exact hle

theorem isDigit_of_ascii (hlaw : u.Lawful) (h : c.isDigit = true) : u.isDigit c = true := by
  rw [hlaw.digit c (ascii_of_isDigit h), h]

/-- Where the provider finds no number, the input says nothing. -/
theorem not_said {fold : Char → Char} {unit : ℕ} (hlaw : u.Lawful)
    (hfold : ∀ c, u.isDigit c = true → 128 ≤ c.toNat → 128 ≤ (fold c).toNat)
    (hnone : decimal ((trim input.toList).takeWhile u.isDigit) = none) :
    ¬SaysWith fold input n unit := by
  rintro ⟨digits, suffix, spelling, hraw, hdigits, hhead, hspell, hunit⟩
  obtain ⟨-, hall, -⟩ := decimal_eq_some.mp hdigits
  have hgo : ∀ c ∈ digits, u.isDigit c = true :=
    fun c hc => isDigit_of_ascii hlaw (List.all_eq_true.mp hall c hc)
  rw [hraw, List.takeWhile_append_of_pos hgo] at hnone
  cases suffix with
  | nil =>
    rw [List.takeWhile_nil, List.append_nil, hdigits] at hnone
    cases hnone
  | cons c suffix =>
    cases hc : u.isDigit c with
    | false =>
      rw [List.takeWhile_cons_of_neg (by simp [hc]), List.append_nil, hdigits] at hnone
      cases hnone
    | true =>
      have hlarge := hfold c hc (large_of_odd hlaw hc (hhead c rfl))
      have hmem : fold c ∈ spelling.toList :=
        hunit ▸ List.mem_map_of_mem (mem_trim List.mem_cons_self (hlaw.space c hc))
      have hascii := ascii_spelling hspell hmem
      omega

theorem lower_large (hlaw : u.Lawful) (hc : u.isDigit c = true) (hlarge : 128 ≤ c.toNat) :
    128 ≤ (u.toLower c).toNat := by
  refine hlaw.other c hlarge ?_ ?_
  · rintro rfl
    rw [hlaw.kelvin.2] at hc
    cases hc
  · rintro rfl
    rw [hlaw.dotted.2] at hc
    cases hc

theorem ofOption_fails (h : ∀ bytes, Types.parseSize input ≠ .ok bytes) :
    (Types.parseSize input).toOption = none := by
  cases hparse : Types.parseSize input with
  | error err => rfl
  | ok bytes => exact absurd hparse (h bytes)

/-- A number with a digit that is not ASCII, or no number, is refused by both. -/
theorem agree_odd (hlaw : u.Lawful)
    (hnone : decimal ((trim input.toList).takeWhile u.isDigit) = none) :
    Agree u input ∧ Plain u input := by
  have hread : parseU64 ((trim input.toList).takeWhile u.isDigit) = none := by
    rw [parseU64, hnone]
  constructor
  · have hgo : (parseSize u input).toOption = none := by
      unfold parseSize parseUint
      dsimp only
      rw [hread]
      split
      · rfl
      · split <;> rfl
    rw [Agree, hgo]
    refine (ofOption_fails fun bytes hok => ?_).symm
    obtain ⟨n, unit, hsays, -⟩ := says_of_parseSize hok
    refine not_said hlaw (fun c _ hlarge => ?_) hnone hsays
    rw [toLower_of_large hlarge]
    exact hlarge
  · intro n unit hsays
    exact absurd hsays (not_said hlaw (fun c => lower_large hlaw) hnone)

/-- A suffix of ASCII letters is folded alike. -/
theorem fold_ascii (hlaw : u.Lawful) {t : List Char} (h : ∀ c ∈ t, c.toNat < 128) :
    t.map u.toLower = t.map Char.toLower :=
  List.map_congr_left fun c hc => hlaw.lower c (h c hc)

/-- What the daemon spells is ASCII, and what the provider spells is but for two characters. -/
theorem ascii_of_spelled {fold : Char → Char} {t : List Char} {mul : UInt64}
    (hfold : ∀ c ∈ t, 128 ≤ c.toNat → 128 ≤ (fold c).toNat)
    (h : sizeUnit (String.ofList (t.map fold)) = some mul) : ∀ c ∈ t, c.toNat < 128 := by
  intro c hc
  rcases Nat.lt_or_ge c.toNat 128 with hlt | hle
  · exact hlt
  · exact absurd h (not_spelled hc (hfold c hc hle))

theorem toLower_large (h : 128 ≤ c.toNat) : 128 ≤ c.toLower.toNat := by
  rw [toLower_of_large h]
  exact h

theorem parseSize_cut (hlaw : u.Lawful) (hraw : trim input.toList = digits ++ suffix)
    (hdigits : decimal digits = some n) (hgo : ∀ c ∈ suffix.head?, u.isDigit c = false) :
    parseSize u input =
      match parseU64 digits with
      | none => .error s!"invalid size {u.quote input}"
      | some n =>
        match (sizeUnit (String.ofList ((trim suffix).map u.toLower))).map (n * ·) with
        | none => .error s!"unknown size suffix in {u.quote input}"
        | some bytes => .ok bytes := by
  obtain ⟨hne, -, -⟩ := decimal_eq_some.mp hdigits
  obtain ⟨htake, hdrop⟩ :=
    cut_at (fun c hc => isDigit_of_ascii hlaw (all_digits hdigits c hc)) hgo
  have hsome : (digits ++ suffix).isEmpty = false :=
    List.isEmpty_eq_false_iff.mpr (List.append_ne_nil_of_left_ne_nil hne suffix)
  unfold parseSize parseUint
  dsimp only
  rw [hraw, hsome, htake, hdrop, List.isEmpty_eq_false_iff.mpr hne, if_neg Bool.false_ne_true,
    if_neg Bool.false_ne_true]
  cases parseU64 digits with
  | none => rfl
  | some n =>
    dsimp only
    rw [product_eq]

theorem mem_suffix (hdigits : decimal digits = some n) (hc : c ∈ digits ++ suffix)
    (hodd : c.isDigit = false) : c ∈ suffix := by
  rcases List.mem_append.mp hc with hin | hin
  · rw [all_digits hdigits c hin] at hodd
    cases hodd
  · exact hin

/-- A unit that the provider does not know is none of the daemon's. -/
theorem sizeUnit_daemon (hlaw : u.Lawful)
    (h : sizeUnit (String.ofList ((trim suffix).map u.toLower)) = none) :
    sizeUnit (String.ofList ((trim suffix).map Char.toLower)) = none := by
  rw [Option.eq_none_iff_forall_ne_some]
  intro mul hsome
  have hascii := ascii_of_spelled (fun c _ => toLower_large) hsome
  rw [← fold_ascii hlaw hascii, h] at hsome
  cases hsome

/-- The daemon knows no unit with one of the two letters. -/
theorem sizeUnit_special (hdigits : decimal digits = some n)
    (h : kelvin ∈ digits ++ suffix ∨ dotted ∈ digits ++ suffix) :
    sizeUnit (String.ofList ((trim suffix).map Char.toLower)) = none := by
  rw [Option.eq_none_iff_forall_ne_some]
  intro mul
  rcases h with hin | hin
  · exact not_spelled (mem_trim (mem_suffix hdigits hin (by decide)) (by decide)) (by decide)
  · exact not_spelled (mem_trim (mem_suffix hdigits hin (by decide)) (by decide)) (by decide)

theorem plain_iff {number mul : UInt64} (hraw : trim input.toList = digits ++ suffix)
    (hdigits : decimal digits = some number.toNat) (hhead : ∀ c ∈ suffix.head?, c.isDigit = false)
    (hunit : sizeUnit (String.ofList ((trim suffix).map u.toLower)) = some mul) :
    Plain u input ↔ number.toNat * mul.toNat < 2 ^ 64 ∧
      kelvin ∉ trim input.toList ∧ dotted ∉ trim input.toList := by
  have hsays : SaysWith u.toLower input number.toNat mul.toNat :=
    ⟨digits, suffix, _, hraw, hdigits, hhead, sizeUnit_some.mp hunit, String.toList_ofList.symm⟩
  refine ⟨fun h => h _ _ hsays number.toNat_lt, fun h m unit hother _ => ?_⟩
  obtain ⟨rfl, rfl⟩ := says_unique hsays hother
  exact h

/-- The product that wraps is the checked one when it fits. -/
theorem wraps_iff (number mul : UInt64) :
    (Except.ok (number * mul) : Except String UInt64).toOption =
        (match checkedMul number mul with
          | none => Except.error "size overflow"
          | some bytes => Except.ok bytes).toOption ↔
      number.toNat * mul.toNat < 2 ^ 64 := by
  cases hproduct : checkedMul number mul with
  | none =>
    refine ⟨fun habs => (nomatch habs), fun hlt => ?_⟩
    have hmul : checkedMul number mul = some (number * mul) := if_pos hlt
    rw [hproduct] at hmul
    cases hmul
  | some bytes =>
    have hfits := checkedMul_some.mp hproduct
    have hlt : number.toNat * mul.toNat < 2 ^ 64 := hfits ▸ bytes.toNat_lt
    have hsame : number * mul = bytes := by
      rw [← UInt64.toNat_inj, UInt64.toNat_mul, hfits]
      exact Nat.mod_eq_of_lt hlt
    rw [hsame]
    exact ⟨fun _ => hlt, fun _ => rfl⟩

/-- Both cut the input in one place. -/
theorem agree_cut (hlaw : u.Lawful) (hraw : trim input.toList = digits ++ suffix)
    (hdigits : decimal digits = some n) (hgo : ∀ c ∈ suffix.head?, u.isDigit c = false) :
    Agree u input ↔ Plain u input := by
  have hhead : ∀ c ∈ suffix.head?, c.isDigit = false := by
    intro c hc
    rw [Bool.eq_false_iff]
    intro hdigit
    have hno := hgo c hc
    rw [isDigit_of_ascii hlaw hdigit] at hno
    cases hno
  have hthere := parseSize_of_split hraw hdigits hhead
  have hhere := parseSize_cut hlaw hraw hdigits hgo
  cases hread : parseU64 digits with
  | none =>
    rw [hread] at hthere hhere
    refine ⟨fun _ m unit hsays hlt => ?_, fun _ => by rw [Agree, hthere, hhere]; rfl⟩
    obtain ⟨digits', suffix', spelling, hraw', hdigits', hhead', -, -⟩ := hsays
    obtain ⟨rfl, -⟩ := split_unique (hraw.symm.trans hraw') hdigits hhead hdigits' hhead'
    have hsome : parseU64 digits = some (.ofNat m) := by
      rw [parseU64_some, UInt64.toNat_ofNat_of_lt' hlt]
      exact hdigits'
    rw [hread] at hsome
    cases hsome
  | some number =>
    rw [hread] at hthere hhere
    dsimp only at hthere hhere
    have hvalue : n = number.toNat := by
      have hnumber := parseU64_some.mp hread
      rw [hdigits] at hnumber
      exact Option.some.inj hnumber
    subst hvalue
    cases hunit : sizeUnit (String.ofList ((trim suffix).map u.toLower)) with
    | none =>
      rw [hunit] at hhere
      rw [sizeUnit_daemon hlaw hunit] at hthere
      refine ⟨fun _ m unit hsays => ?_, fun _ => by rw [Agree, hthere, hhere]; rfl⟩
      obtain ⟨digits', suffix', spelling, hraw', hdigits', hhead', hspell, hfold⟩ := hsays
      obtain ⟨-, rfl⟩ := split_unique (hraw.symm.trans hraw') hdigits hhead hdigits' hhead'
      obtain ⟨mul, hmul, -, -⟩ := sizeUnit_says hspell
      rw [hfold, String.ofList_toList, hmul] at hunit
      cases hunit
    | some mul =>
      rw [hunit] at hhere
      rw [plain_iff hraw hdigits hhead hunit]
      by_cases hspecial : kelvin ∈ trim input.toList ∨ dotted ∈ trim input.toList
      · rw [hraw] at hspecial
        rw [sizeUnit_special hdigits hspecial] at hthere
        rw [Agree, hthere, hhere, hraw]
        exact ⟨fun habs => (nomatch habs), fun h => (hspecial.elim h.2.1 h.2.2).elim⟩
      · rw [not_or] at hspecial
        have hascii : ∀ c ∈ trim suffix, c.toNat < 128 := by
          refine ascii_of_spelled (fun c hc hlarge => hlaw.other c hlarge ?_ ?_) hunit
          · rintro rfl
            exact hspecial.1 (hraw ▸ List.mem_append_right _ (mem_of_mem_trim hc))
          · rintro rfl
            exact hspecial.2 (hraw ▸ List.mem_append_right _ (mem_of_mem_trim hc))
        rw [fold_ascii hlaw hascii] at hunit
        rw [hunit] at hthere
        have hfits : Agree u input ↔ number.toNat * mul.toNat < 2 ^ 64 := by
          rw [Agree, hthere, hhere]
          exact wraps_iff number mul
        exact hfits.trans ⟨fun h => ⟨h, hspecial⟩, And.left⟩

theorem agree_iff (hlaw : u.Lawful) (input : String) : Agree u input ↔ Plain u input := by
  cases hdigits : decimal ((trim input.toList).takeWhile u.isDigit) with
  | none =>
    obtain ⟨hagree, hplain⟩ := agree_odd hlaw hdigits
    exact ⟨fun _ => hplain, fun _ => hagree⟩
  | some n =>
    refine agree_cut hlaw List.takeWhile_append_dropWhile.symm hdigits fun c hc => ?_
    have hfirst := List.head?_dropWhile_not u.isDigit (trim input.toList)
    rw [hc] at hfirst
    exact hfirst

/-! ### Sizes that the provider writes -/

theorem parseSize_text {letters : String} {mul : UInt64} (hlaw : u.Lawful) (number : UInt64)
    (hunit : sizeUnit (String.ofList ((trim letters.toList).map u.toLower)) = some mul)
    (hhead : ∀ c ∈ letters.toList.head?, u.isDigit c = false)
    (hlast : ∀ c ∈ letters.toList.getLast?, isWhiteSpace c = false) :
    parseSize u (toString number ++ letters) = .ok (number * mul) := by
  have hraw : trim (toString number ++ letters).toList =
      (toString number.toNat).toList ++ letters.toList := by
    have hspace (c : Char) (hc : c ∈ (toString number.toNat).toList) : isWhiteSpace c = false :=
      not_whiteSpace_of_isDigit (isDigit_of_mem_toString hc)
    rw [String.toList_append]
    refine trim_eq_self (fun c hc => ?_) (fun c hc => ?_)
    · have hne : (toString number).toList ≠ [] := toString_ne_nil number.toNat
      rw [List.head?_append_of_ne_nil _ hne] at hc
      exact hspace c (List.mem_of_mem_head? hc)
    · by_cases hletters : letters.toList = []
      · rw [hletters, List.append_nil] at hc
        exact hspace c (List.mem_of_getLast? hc)
      · rw [List.getLast?_append_of_ne_nil _ hletters] at hc
        exact hlast c hc
  have hread : parseU64 (toString number.toNat).toList = some number :=
    parseU64_some.mpr (decimal_toString _)
  rw [parseSize_cut hlaw hraw (decimal_toString _) hhead, hread]
  dsimp only
  rw [hunit]
  rfl

theorem div_mul_unit {bytes unit : UInt64} (h : unit.toNat ∣ bytes.toNat) :
    bytes / unit * unit = bytes := by
  rw [← UInt64.toNat_inj, UInt64.toNat_mul, UInt64.toNat_div, Nat.div_mul_cancel h]
  exact Nat.mod_eq_of_lt bytes.toNat_lt

theorem dvd_of_mod {bytes unit : UInt64} (h : bytes % unit = 0) : unit.toNat ∣ bytes.toNat := by
  refine Nat.dvd_of_mod_eq_zero ?_
  rw [← UInt64.toNat_mod, h]
  rfl

/-- A multiple of a unit, with the letter of that unit. -/
theorem parseSize_letter {letters : String} {letter : Char} {bytes unit : UInt64} (hlaw : u.Lawful)
    (hdvd : unit.toNat ∣ bytes.toNat) (hletters : letters.toList = [letter])
    (hlt : letter.toNat < 128) (hodd : letter.isDigit = false)
    (hspace : isWhiteSpace letter = false)
    (hspell : sizeUnit (String.ofList [letter.toLower]) = some unit) :
    parseSize u (toString (bytes / unit) ++ letters) = .ok bytes := by
  have hone (c : Char) (hc : letter = c) : u.isDigit c = false ∧ isWhiteSpace c = false := by
    subst hc
    exact ⟨(hlaw.digit letter hlt).trans hodd, hspace⟩
  have htrim : trim [letter] = [letter] :=
    trim_eq_self (fun c hc => (hone c (Option.some.inj hc)).2)
      (fun c hc => (hone c (Option.some.inj hc)).2)
  have hunit : sizeUnit (String.ofList ((trim letters.toList).map u.toLower)) = some unit := by
    rw [hletters, htrim, List.map_singleton, hlaw.lower letter hlt]
    exact hspell
  rw [parseSize_text hlaw _ hunit, div_mul_unit hdvd]
  · rw [hletters]
    exact fun c hc => (hone c (Option.some.inj hc)).1
  · rw [hletters]
    exact fun c hc => (hone c (Option.some.inj hc)).2

theorem parseSize_formatSize (hlaw : u.Lawful) (bytes : UInt64) :
    parseSize u (formatSize bytes) = .ok bytes := by
  have hletter {letters : String} {letter : Char} {unit : UInt64}
      (hdvd : unit.toNat ∣ bytes.toNat) (hletters : letters.toList = [letter])
      (hlt : letter.toNat < 128 ∧ letter.isDigit = false ∧ isWhiteSpace letter = false)
      (hspell : sizeUnit (String.ofList [letter.toLower]) = some unit) :
      parseSize u (toString (bytes / unit) ++ letters) = .ok bytes :=
    parseSize_letter hlaw hdvd hletters hlt.1 hlt.2.1 hlt.2.2 hspell
  unfold formatSize
  split
  · rename_i h
    have hdvd : gib.toNat ∣ bytes.toNat := Nat.dvd_trans (by decide) (dvd_of_mod h.2)
    exact hletter hdvd rfl (by decide) (by decide)
  split
  · rename_i h
    exact hletter (dvd_of_mod h.2) rfl (by decide) (by decide)
  split
  · rename_i h
    exact hletter (dvd_of_mod h.2) rfl (by decide) (by decide)
  split
  · rename_i h
    exact hletter (dvd_of_mod h.2) rfl (by decide) (by decide)
  · have hread : parseSize u (toString bytes ++ "") = .ok (bytes * 1) :=
      parseSize_text hlaw bytes rfl (fun _ hc => nomatch hc) (fun _ hc => nomatch hc)
    rwa [String.append_empty, UInt64.mul_one] at hread

/-- The provider reads a size as the daemon does when the product fits and its unit is spelled in
ASCII; what it writes it reads back. -/
theorem parseSize_agree_iff (hlaw : u.Lawful) :
    (∀ input, Agree u input ↔ Plain u input) ∧
      ∀ bytes, parseSize u (formatSize bytes) = .ok bytes :=
  ⟨agree_iff hlaw, parseSize_formatSize hlaw⟩

def go : Unicode where
  isDigit := Char.isDigit
  toLower c := if c = kelvin then 'k' else if c = dotted then 'i' else c.toLower
  quote text := "\"" ++ text ++ "\""

theorem go_lawful : go.Lawful where
  digit _ _ := rfl
  space _ h := not_whiteSpace_of_isDigit h
  lower c h := by
    have hkelvin : c ≠ kelvin := fun heq => absurd (heq ▸ h) (by decide)
    have hdotted : c ≠ dotted := fun heq => absurd (heq ▸ h) (by decide)
    exact (if_neg hkelvin).trans (if_neg hdotted)
  kelvin := by decide
  dotted := by decide
  other c hlarge hkelvin hdotted := by
    have hsame : go.toLower c = c.toLower := (if_neg hkelvin).trans (if_neg hdotted)
    rw [hsame]
    exact toLower_large hlarge

theorem parseSize_agree_iff_go :
    (∀ input, Agree go input ↔ Plain go input) ∧
      ∀ bytes, parseSize go (formatSize bytes) = .ok bytes :=
  parseSize_agree_iff go_lawful

/-- Twenty million tebibytes wrap to another size, which the daemon refuses. -/
theorem provider_wraps : ¬Agree go "20000000T" := by
  unfold Agree
  decide +kernel

end Pertisk.Provider
