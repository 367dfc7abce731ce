import Mathlib.Data.Int.Log
import Mathlib.Data.Rat.Floor
import Mathlib.Tactic.FieldSimp
import Mathlib.Tactic.NormNum
import Mathlib.Tactic.Positivity
import Pertisk.Installer.Kickstart
import Pertisk.Lib.Serde

namespace Pertisk.Installer
open PeerUrl Volume

/-- What JavaScript takes for a space or for the end of a line. -/
def jsSpace (c : Char) : Bool := (isWhiteSpace c && c.toNat != 0x85) || c.toNat == 0xFEFF

def jsTrim (s : List Char) : List Char := trimMatches jsSpace s

/-! ### `Number` of a text -/

def radixOf (c : Char) : Option ℕ :=
  if c = 'x' ∨ c = 'X' then some 16
  else if c = 'o' ∨ c = 'O' then some 8
  else if c = 'b' ∨ c = 'B' then some 2
  else none

def radixDigit (radix : ℕ) (c : Char) : Option ℕ :=
  let digit :=
    if c.isDigit then c.toNat - 48
    else if 'a' ≤ c ∧ c ≤ 'f' then c.toNat - 87
    else if 'A' ≤ c ∧ c ≤ 'F' then c.toNat - 55
    else 16
  if digit < radix then some digit else none

def radixLiteral : List Char → Option ℚ
  | '0' :: x :: s =>
    (radixOf x).bind fun radix =>
      if s = [] then none
      else (s.mapM (radixDigit radix)).map fun ds =>
        ((ds.foldl (fun n d => radix * n + d) 0 : ℕ) : ℚ)
  | _ => none

/-- A sign, and what follows it. -/
def signed (s : List Char) : ℤ × List Char :=
  if s.head? = some '-' then (-1, s.tail) else if s.head? = some '+' then (1, s.tail) else (1, s)

def digitValue (s : List Char) : ℕ := natOf (s.map fun c => c.toNat - 48)

def exponent : List Char → Option ℤ
  | [] => some 0
  | c :: s =>
    let (sign, ds) := signed s
    if (c = 'e' ∨ c = 'E') ∧ ds ≠ [] ∧ ds.all Char.isDigit then some (sign * digitValue ds) else none

def decimalLiteral (s : List Char) : Option ℚ :=
  let (sign, s) := signed s
  let whole := s.takeWhile Char.isDigit
  let rest := s.dropWhile Char.isDigit
  let frac := if rest.head? = some '.' then rest.tail.takeWhile Char.isDigit else []
  let rest := if rest.head? = some '.' then rest.tail.dropWhile Char.isDigit else rest
  if whole = [] ∧ frac = [] then none
  else (exponent rest).map fun e =>
    (sign : ℚ) * (digitValue (whole ++ frac) * 10 ^ (e - (frac.length : ℤ)))

/-- To the next integer, to the even one from half way. -/
def roundEven (q : ℚ) : ℤ :=
  let n := ⌊q⌋
  if q - n < 1 / 2 then n else if 1 / 2 < q - n then n + 1 else if Even n then n else n + 1

/-- The double next to a number. -/
def toDouble (q : ℚ) : ℚ :=
  let step : ℚ := 2 ^ max (Int.log 2 |q| - 52) (-1074)
  roundEven (q / step) * step

/-- `Number` of a text, where it is a finite number; the largest double is below `2 ^ 1024`. -/
def number (s : List Char) : Option ℚ :=
  let s := jsTrim s
  if s = [] then some 0
  else ((radixLiteral s).orElse fun _ => decimalLiteral s).bind fun q =>
    if |toDouble q| < 2 ^ 1024 then some (toDouble q) else none

/-- The form's check of the prefix. -/
def prefixOk (s : List Char) : Bool :=
  match number s with
  | none => false
  | some q => q.isInt && decide (1 ≤ q) && decide (q ≤ 32)

/-! ### Rounding -/

section rounding
variable {q : ℚ} {n : ℕ}

theorem roundEven_intCast (z : ℤ) : roundEven z = z := by
  simp [roundEven]

theorem floor_le_roundEven (q : ℚ) : ⌊q⌋ ≤ roundEven q := by
  unfold roundEven
  dsimp only
  split_ifs <;> omega

theorem roundEven_nonpos (h : q ≤ 0) : roundEven q ≤ 0 := by
  unfold roundEven
  dsimp only
  have hfloor : ⌊q⌋ ≤ 0 := Int.floor_nonpos h
  by_cases hzero : ⌊q⌋ = 0
  · have hq : q = 0 := le_antisymm h (Int.floor_eq_zero_iff.mp hzero).1
    subst hq
    simp
  · split_ifs <;> omega

theorem toDouble_nonpos (h : q ≤ 0) : toDouble q ≤ 0 := by
  unfold toDouble
  dsimp only
  have hstep : (0 : ℚ) < 2 ^ max (Int.log 2 |q| - 52) (-1074) :=
    zpow_pos zero_lt_two _
  refine mul_nonpos_of_nonpos_of_nonneg ?_ hstep.le
  exact_mod_cast roundEven_nonpos (div_nonpos_of_nonpos_of_nonneg h hstep.le)

/-- A whole number of 53 bits is a double. -/
theorem toDouble_natCast (h : n < 2 ^ 53) : toDouble n = n := by
  have hlog : Nat.log 2 n ≤ 52 := Nat.lt_succ_iff.mp (Nat.log_lt_of_lt_pow' (by decide) h)
  have hexp : max (Int.log 2 |(n : ℚ)| - 52) (-1074) = -((52 - Nat.log 2 n : ℕ) : ℤ) := by
    rw [Nat.abs_cast, Int.log_natCast]
    omega
  unfold toDouble
  dsimp only
  rw [hexp, zpow_neg, zpow_natCast, div_inv_eq_mul]
  have hint : (n : ℚ) * 2 ^ (52 - Nat.log 2 n) = ((n * 2 ^ (52 - Nat.log 2 n) : ℤ) : ℚ) := by
    push_cast
    rfl
  rw [hint, roundEven_intCast]
  push_cast
  field_simp

/-- What is large stays so. -/
theorem le_toDouble (h : 64 ≤ q) : 64 ≤ toDouble q := by
  have hpos : (0 : ℚ) < q := lt_of_lt_of_le (by norm_num) h
  have hlog : 6 ≤ Int.log 2 q := by
    rw [← Int.zpow_le_iff_le_log (by decide) hpos]
    exact le_trans (by norm_num) h
  unfold toDouble
  dsimp only
  rw [abs_of_pos hpos, max_eq_left (by omega)]
  have hstep : (0 : ℚ) < 2 ^ (Int.log 2 q - 52) := zpow_pos zero_lt_two _
  have htop : (((2 : ℤ) ^ 52 : ℤ) : ℚ) * 2 ^ (Int.log 2 q - 52) = 2 ^ Int.log 2 q := by
    rw [Int.cast_pow, Int.cast_ofNat, ← zpow_natCast, ← zpow_add₀ two_ne_zero, Nat.cast_ofNat,
      add_sub_cancel]
  have hfloor : (2 : ℤ) ^ 52 ≤ ⌊q / 2 ^ (Int.log 2 q - 52)⌋ := by
    rw [Int.le_floor, le_div_iff₀ hstep]
    have hself := Int.zpow_log_le_self (b := 2) (by decide) hpos
    calc (((2 : ℤ) ^ 52 : ℤ) : ℚ) * 2 ^ (Int.log 2 q - 52) = 2 ^ Int.log 2 q := htop
      _ ≤ q := hself
  have hround : (((2 : ℤ) ^ 52 : ℤ) : ℚ) ≤ roundEven (q / 2 ^ (Int.log 2 q - 52)) :=
    Int.cast_le.mpr (le_trans hfloor (floor_le_roundEven _))
  calc (64 : ℚ) = 2 ^ (6 : ℤ) := by norm_num
    _ ≤ 2 ^ Int.log 2 q := zpow_le_zpow_right₀ one_le_two hlog
    _ = (((2 : ℤ) ^ 52 : ℤ) : ℚ) * 2 ^ (Int.log 2 q - 52) := htop.symm
    _ ≤ _ := mul_le_mul_of_nonneg_right hround hstep.le

end rounding

/-! ### The characters of a number -/

section literals
variable {s ds : List Char} {q : ℚ} {z : ℤ}

def numberChar (c : Char) : Prop := c.isAlphanum = true ∨ c = '.' ∨ c = '+' ∨ c = '-'

theorem isAlphanum_of_isDigit {c : Char} (h : c.isDigit = true) : c.isAlphanum = true := by
  simp [Char.isAlphanum, h]

theorem numberChar_of_isDigit {c : Char} (h : c.isDigit = true) : numberChar c :=
  .inl (isAlphanum_of_isDigit h)

theorem signed_cases (s : List Char) :
    (s.head? ≠ some '-' ∧ s.head? ≠ some '+' ∧ signed s = (1, s)) ∨ (∃ t, s = '-' :: t ∧ signed s = (-1, t)) ∨
      ∃ t, s = '+' :: t ∧ signed s = (1, t) := by
  unfold signed
  split
  · rename_i h
    obtain ⟨t, rfl⟩ := List.head?_eq_some_iff.mp h
    exact .inr (.inl ⟨t, rfl, rfl⟩)
  · rename_i hminus
    split
    · rename_i h
      obtain ⟨t, rfl⟩ := List.head?_eq_some_iff.mp h
      exact .inr (.inr ⟨t, rfl, rfl⟩)
    · rename_i hplus
      exact .inl ⟨hminus, hplus, rfl⟩

theorem numberChar_signed (h : ∀ c ∈ (signed s).2, numberChar c) : ∀ c ∈ s, numberChar c := by
  rcases signed_cases s with ⟨-, -, hs⟩ | ⟨t, rfl, hs⟩ | ⟨t, rfl, hs⟩
  · rwa [hs] at h
  · rw [hs] at h
    exact List.forall_mem_cons.mpr ⟨.inr (.inr (.inr rfl)), h⟩
  · rw [hs] at h
    exact List.forall_mem_cons.mpr ⟨.inr (.inr (.inl rfl)), h⟩

theorem numberChar_radixDigit {radix n : ℕ} {c : Char} (hr : radix ≤ 16)
    (h : radixDigit radix c = some n) : numberChar c := by
  unfold radixDigit at h
  dsimp only at h
  by_cases hdigit : c.isDigit = true
  · exact numberChar_of_isDigit hdigit
  · rw [if_neg hdigit] at h
    refine .inl ?_
    by_cases hlow : 'a' ≤ c ∧ c ≤ 'f'
    · have hz : c ≤ 'z' := Char.le_trans hlow.2 (by decide)
      exact Lib.isAlphanum_iff.mpr (.inl (.inr (Lib.isLower_iff.mpr ⟨hlow.1, hz⟩)))
    · rw [if_neg hlow] at h
      by_cases hup : 'A' ≤ c ∧ c ≤ 'F'
      · have hz : c ≤ 'Z' := Char.le_trans hup.2 (by decide)
        exact Lib.isAlphanum_iff.mpr (.inl (.inl (Lib.isUpper_iff.mpr ⟨hup.1, hz⟩)))
      · rw [if_neg hup, if_neg (by omega)] at h
        cases h

theorem numberChar_radixLiteral (h : radixLiteral s = some q) : ∀ c ∈ s, numberChar c := by
  unfold radixLiteral at h
  split at h
  · rename_i x s
    obtain ⟨radix, hradix, h⟩ := Option.bind_eq_some_iff.mp h
    split at h
    · cases h
    · obtain ⟨ns, hns, -⟩ := Option.map_eq_some_iff.mp h
      have hx : numberChar x ∧ radix ≤ 16 := by
        unfold radixOf at hradix
        split_ifs at hradix with h₁ h₂ h₃
        · cases hradix
          rcases h₁ with rfl | rfl <;> exact ⟨.inl rfl, by decide⟩
        · cases hradix
          rcases h₂ with rfl | rfl <;> exact ⟨.inl rfl, by decide⟩
        · cases hradix
          rcases h₃ with rfl | rfl <;> exact ⟨.inl rfl, by decide⟩
      refine List.forall_mem_cons.mpr ⟨.inl rfl, List.forall_mem_cons.mpr ⟨hx.1, fun c hc => ?_⟩⟩
      cases hn : radixDigit radix c with
      | some n => exact numberChar_radixDigit hx.2 hn
      | none =>
        rw [Lib.Codec.mapM_none hc hn] at hns
        cases hns
  · cases h

theorem numberChar_exponent {e : ℤ} (h : exponent s = some e) : ∀ c ∈ s, numberChar c := by
  cases s with
  | nil => exact nofun
  | cons c s =>
    unfold exponent at h
    dsimp only at h
    split at h
    · rename_i hall
      obtain ⟨hc, -, hdigits⟩ := hall
      refine List.forall_mem_cons.mpr ⟨?_, numberChar_signed fun x hx => ?_⟩
      · rcases hc with rfl | rfl <;> exact .inl rfl
      · exact numberChar_of_isDigit (List.all_eq_true.mp hdigits x hx)
    · cases h

theorem numberChar_decimalLiteral (h : decimalLiteral s = some q) : ∀ c ∈ s, numberChar c := by
  refine numberChar_signed fun c hc => ?_
  have hdigit : ∀ {t : List Char} {c : Char}, c ∈ t.takeWhile Char.isDigit → numberChar c :=
    fun hc => numberChar_of_isDigit (List.mem_takeWhile_imp hc)
  have hparts : ∀ t : List Char, t = t.takeWhile Char.isDigit ++ t.dropWhile Char.isDigit :=
    fun t => List.takeWhile_append_dropWhile.symm
  unfold decimalLiteral at h
  dsimp only at h
  rw [hparts (signed s).2] at hc
  rcases List.mem_append.mp hc with hc | hc
  · exact hdigit hc
  · by_cases hdot : ((signed s).2.dropWhile Char.isDigit).head? = some '.'
    · obtain ⟨t, ht⟩ := List.head?_eq_some_iff.mp hdot
      rw [ht] at hc
      rw [ht] at h
      simp only [List.head?_cons, if_true, List.tail_cons] at h
      obtain ⟨-, h⟩ := Option.ite_none_left_eq_some.mp h
      obtain ⟨e, he, -⟩ := Option.map_eq_some_iff.mp h
      rcases List.mem_cons.mp hc with rfl | hc
      · exact .inr (.inl rfl)
      · rw [hparts t] at hc
        rcases List.mem_append.mp hc with hc | hc
        · exact hdigit hc
        · exact numberChar_exponent he c hc
    · rw [if_neg hdot, if_neg hdot] at h
      obtain ⟨-, h⟩ := Option.ite_none_left_eq_some.mp h
      obtain ⟨e, he, -⟩ := Option.map_eq_some_iff.mp h
      exact numberChar_exponent he c hc

theorem numberChar_number (h : number s = some q) : ∀ c ∈ jsTrim s, numberChar c := by
  unfold number at h
  dsimp only at h
  split at h
  · rename_i hnil
    rw [hnil]
    exact nofun
  · obtain ⟨r, hr, -⟩ := Option.bind_eq_some_iff.mp h
    cases hradix : radixLiteral (jsTrim s) with
    | some r => exact numberChar_radixLiteral hradix
    | none =>
      rw [hradix] at hr
      exact numberChar_decimalLiteral hr

/-! ### Whole numbers -/

theorem radixLiteral_digits (h : ∀ c ∈ (signed s).2, c.isDigit = true) : radixLiteral s = none := by
  unfold radixLiteral
  split
  · rename_i x s
    have hx : x.isDigit = true := by
      have hs : signed ('0' :: x :: s) = (1, '0' :: x :: s) := rfl
      rw [hs] at h
      exact h x (by simp)
    have hnone : radixOf x = none := by
      unfold radixOf
      split_ifs with h₁ h₂ h₃
      · rcases h₁ with rfl | rfl <;> cases hx
      · rcases h₂ with rfl | rfl <;> cases hx
      · rcases h₃ with rfl | rfl <;> cases hx
      · rfl
    rw [hnone]
    rfl
  · rfl

theorem decimalLiteral_digits (hs : signed s = (z, ds)) (hne : ds ≠ [])
    (h : ∀ c ∈ ds, c.isDigit = true) : decimalLiteral s = some ((z : ℚ) * digitValue ds) := by
  unfold decimalLiteral
  rw [hs]
  dsimp only
  rw [List.takeWhile_eq_self_iff.mpr h, List.dropWhile_eq_nil_iff.mpr h, if_neg fun hnil => hne hnil.1]
  simp [exponent]

/-- A prefix of digits alone is read as it stands. -/
theorem prefixOk_digits (hs : signed (jsTrim s) = (z, ds)) (hne : ds ≠ [])
    (h : ∀ c ∈ ds, c.isDigit = true) :
    prefixOk s = true ↔ z = 1 ∧ 1 ≤ digitValue ds ∧ digitValue ds ≤ 32 := by
  have htrim : jsTrim s ≠ [] := by
    intro hnil
    rw [hnil] at hs
    cases hs
    exact hne rfl
  have hnumber : number s = if |toDouble ((z : ℚ) * digitValue ds)| < 2 ^ 1024 then
      some (toDouble ((z : ℚ) * digitValue ds)) else none := by
    unfold number
    dsimp only
    rw [if_neg htrim, radixLiteral_digits (by rw [hs]; exact h), decimalLiteral_digits hs hne h]
    rfl
  have hsign : z = 1 ∨ z = -1 := by
    rcases signed_cases (jsTrim s) with ⟨-, -, heq⟩ | ⟨t, -, heq⟩ | ⟨t, -, heq⟩ <;>
      rw [heq] at hs <;> cases hs
    · exact .inl rfl
    · exact .inr rfl
    · exact .inl rfl
  unfold prefixOk
  rw [hnumber]
  rcases hsign with rfl | rfl
  · rw [Int.cast_one, one_mul]
    by_cases hsmall : digitValue ds < 64
    · have hnat : toDouble (digitValue ds) = digitValue ds :=
        toDouble_natCast (lt_trans hsmall (by norm_num))
      have hfinite : |(digitValue ds : ℚ)| < 2 ^ 1024 := by
        have hpow : (2 : ℚ) ^ 6 ≤ 2 ^ 1024 := pow_le_pow_right₀ one_le_two (by decide)
        rw [Nat.abs_cast]
        exact lt_of_lt_of_le (by exact_mod_cast hsmall) hpow
      rw [hnat, if_pos hfinite]
      simp [Rat.isInt]
    · have hlarge := le_toDouble (q := digitValue ds) (by exact_mod_cast Nat.le_of_not_lt hsmall)
      refine iff_of_false ?_ fun hle => hsmall (lt_of_le_of_lt hle.2.2 (by decide))
      split
      · exact Bool.false_ne_true
      · rename_i q hq
        obtain ⟨-, heq⟩ := Option.ite_none_right_eq_some.mp hq
        cases heq
        simp only [Bool.and_eq_true, decide_eq_true_eq, not_and, not_le]
        exact fun _ => lt_of_lt_of_le (by norm_num) hlarge
  · have hnonpos : toDouble ((-1 : ℤ) * digitValue ds) ≤ 0 := by
      refine toDouble_nonpos ?_
      rw [Int.cast_neg, Int.cast_one, neg_one_mul]
      exact neg_nonpos.mpr (Nat.cast_nonneg _)
    refine iff_of_false ?_ fun hz => absurd hz.1 (by decide)
    split
    · exact Bool.false_ne_true
    · rename_i q hq
      obtain ⟨-, heq⟩ := Option.ite_none_right_eq_some.mp hq
      cases heq
      simp only [Bool.and_eq_true, decide_eq_true_eq, not_and]
      intro hone
      exact absurd (le_trans hone.2 hnonpos) (by norm_num)

end literals

end Pertisk.Installer
