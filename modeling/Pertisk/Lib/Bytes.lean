import Mathlib.Algebra.BigOperators.Group.List.Basic
import Mathlib.Algebra.GroupWithZero.Nat
import Mathlib.Algebra.Order.Group.Nat
import Mathlib.Data.List.Basic

namespace Pertisk.Lib.Utf16

def High (u : ℕ) : Prop := 0xD800 ≤ u ∧ u < 0xDC00

def Low (u : ℕ) : Prop := 0xDC00 ≤ u ∧ u < 0xE000

instance (u : ℕ) : Decidable (High u) := inferInstanceAs (Decidable (_ ∧ _))

instance (u : ℕ) : Decidable (Low u) := inferInstanceAs (Decidable (_ ∧ _))

/-- The units of a character. -/
def units (c : Char) : List ℕ :=
  if c.toNat < 0x10000 then [c.toNat]
  else [0xD800 + (c.toNat - 0x10000) / 0x400, 0xDC00 + (c.toNat - 0x10000) % 0x400]

def encode (cs : List Char) : List ℕ := cs.flatMap units

def replacement : Char := Char.ofNat 0xFFFD

/-- The characters of units, with a replacement for each half of a pair that is alone. -/
def decode : Option ℕ → List ℕ → List Char
  | none, [] => []
  | some _, [] => [replacement]
  | none, u :: us =>
    if High u then decode (some u) us
    else if Low u then replacement :: decode none us
    else Char.ofNat u :: decode none us
  | some high, u :: us =>
    if Low u then
      Char.ofNat (0x10000 + (high - 0xD800) * 0x400 + (u - 0xDC00)) :: decode none us
    else if High u then replacement :: decode (some u) us
    else replacement :: Char.ofNat u :: decode none us

def lossy (us : List ℕ) : List Char := decode none us

theorem units_lt (c : Char) : ∀ u ∈ units c, u < 2 ^ 16 := by
  have hvalid : c.toNat < 0xD800 ∨ 0xDFFF < c.toNat ∧ c.toNat < 0x110000 := c.valid
  unfold units
  intro u hu
  split at hu
  · rw [List.mem_singleton] at hu
    omega
  · rcases List.mem_pair.mp hu with hu | hu
    · omega
    · omega

theorem encode_lt {cs : List Char} : ∀ u ∈ encode cs, u < 2 ^ 16 := by
  intro u hu
  obtain ⟨c, -, hu⟩ := List.mem_flatMap.mp hu
  exact units_lt c u hu

theorem decode_single {u : ℕ} (hhigh : ¬ High u) (hlow : ¬ Low u) (us : List ℕ) :
    decode none (u :: us) = Char.ofNat u :: decode none us := by
  rw [decode, if_neg hhigh, if_neg hlow]

theorem decode_pair {u v : ℕ} (hhigh : High u) (hlow : Low v) (us : List ℕ) :
    decode none (u :: v :: us) =
      Char.ofNat (0x10000 + (u - 0xD800) * 0x400 + (v - 0xDC00)) :: decode none us := by
  rw [decode, if_pos hhigh, decode, if_pos hlow]

theorem decode_units (c : Char) (us : List ℕ) : decode none (units c ++ us) = c :: decode none us := by
  have hvalid : c.toNat < 0xD800 ∨ 0xDFFF < c.toNat ∧ c.toNat < 0x110000 := c.valid
  unfold units
  split
  · have hhigh : ¬ High c.toNat := by
      unfold High
      omega
    have hlow : ¬ Low c.toNat := by
      unfold Low
      omega
    rw [List.singleton_append, decode_single hhigh hlow, Char.ofNat_toNat]
  · have hhigh : High (0xD800 + (c.toNat - 0x10000) / 0x400) := by
      unfold High
      omega
    have hlow : Low (0xDC00 + (c.toNat - 0x10000) % 0x400) := by
      unfold Low
      omega
    have hvalue : 0x10000 + (0xD800 + (c.toNat - 0x10000) / 0x400 - 0xD800) * 0x400 +
        (0xDC00 + (c.toNat - 0x10000) % 0x400 - 0xDC00) = c.toNat := by omega
    rw [List.cons_append, List.singleton_append, decode_pair hhigh hlow, hvalue, Char.ofNat_toNat]

/-- The characters of a text come back from its units. -/
theorem lossy_encode (cs : List Char) : lossy (encode cs) = cs := by
  unfold lossy encode
  induction cs with
  | nil => rfl
  | cons c cs ih => rw [List.flatMap_cons, decode_units, ih]

end Pertisk.Lib.Utf16

namespace Pertisk.Lib

/-- How many bytes a text has in UTF-8. -/
def utf8Len (s : List Char) : ℕ := (s.map Char.utf8Size).sum

/-- The text from a byte on; nothing where no character begins at that byte. -/
def sliceFrom : List Char → ℕ → Option (List Char)
  | s, 0 => some s
  | [], _ + 1 => none
  | c :: cs, n + 1 => if n + 1 < c.utf8Size then none else sliceFrom cs (n + 1 - c.utf8Size)

/-- A character begins at this byte, or the text ends there. -/
def Boundary (s : List Char) (n : ℕ) : Prop := ∃ a b, s = a ++ b ∧ utf8Len a = n

variable {s t a : List Char} {n : ℕ} {c : Char}

@[simp] theorem utf8Len_nil : utf8Len [] = 0 := rfl

@[simp] theorem utf8Len_cons : utf8Len (c :: s) = c.utf8Size + utf8Len s := by
  simp only [utf8Len, List.map_cons, List.sum_cons]

@[simp] theorem utf8Len_append : utf8Len (s ++ t) = utf8Len s + utf8Len t := by
  simp only [utf8Len, List.map_append, List.sum_append]

theorem sliceFrom_append : sliceFrom (a ++ t) (utf8Len a) = some t := by
  induction a with
  | nil => cases t <;> rfl
  | cons c a ih =>
    have hpos : 0 < c.utf8Size := c.utf8Size_pos
    obtain ⟨m, hm⟩ := Nat.exists_eq_succ_of_ne_zero (n := c.utf8Size + utf8Len a) (by omega)
    rw [utf8Len_cons, List.cons_append, hm, sliceFrom, if_neg (by omega)]
    rw [show m + 1 - c.utf8Size = utf8Len a by omega]
    exact ih

theorem eq_append_of_sliceFrom (h : sliceFrom s n = some t) : ∃ a, s = a ++ t ∧ utf8Len a = n := by
  induction s generalizing n with
  | nil =>
    cases n with
    | zero =>
      cases h
      exact ⟨[], rfl, rfl⟩
    | succ n => cases h
  | cons c s ih =>
    cases n with
    | zero =>
      cases h
      exact ⟨[], rfl, rfl⟩
    | succ n =>
      rw [sliceFrom] at h
      split at h
      · cases h
      · obtain ⟨a, rfl, ha⟩ := ih h
        refine ⟨c :: a, rfl, ?_⟩
        rw [utf8Len_cons, ha]
        omega

theorem sliceFrom_isSome_iff : (sliceFrom s n).isSome = true ↔ Boundary s n := by
  constructor
  · intro h
    obtain ⟨t, ht⟩ := Option.isSome_iff_exists.mp h
    obtain ⟨a, hs, ha⟩ := eq_append_of_sliceFrom ht
    exact ⟨a, t, hs, ha⟩
  · rintro ⟨a, b, rfl, rfl⟩
    rw [sliceFrom_append]
    rfl

/-! ### The bytes themselves -/

def bytesOf (s : List Char) : List UInt8 := s.flatMap String.utf8EncodeChar

/-- A byte as the character of that number. -/
def byteChar (b : UInt8) : Char := Char.ofNat b.toNat

theorem encode_ascii (h : c.toNat < 0x80) : String.utf8EncodeChar c = [UInt8.ofNat c.toNat] :=
  if_pos (Nat.le_of_lt_succ h)

theorem toNat_encode_ascii (h : c.toNat < 0x80) : (UInt8.ofNat c.toNat).toNat = c.toNat := by
  rw [UInt8.toNat_ofNat']
  omega

theorem byteChar_encode (h : c.toNat < 0x80) : byteChar (UInt8.ofNat c.toNat) = c := by
  rw [byteChar, toNat_encode_ascii h, Char.ofNat_toNat]

/-- The bytes of a character beyond ASCII are not ASCII either. -/
theorem high_of_mem_encode (h : 0x80 ≤ c.toNat) : ∀ b ∈ String.utf8EncodeChar c, 0x80 ≤ b.toNat := by
  have hsmall : ∀ n, n < 256 → (UInt8.ofNat n).toNat = n := by
    intro n hn
    rw [UInt8.toNat_ofNat']
    omega
  have hv : ¬ c.val.toNat ≤ 0x7f := by
    have hnat : c.toNat = c.val.toNat := rfl
    omega
  unfold String.utf8EncodeChar
  intro b hb
  simp only [if_neg hv] at hb
  split at hb
  · simp only [List.mem_cons, List.not_mem_nil, or_false] at hb
    rcases hb with rfl | rfl <;> rw [hsmall _ (by omega)] <;> omega
  · split at hb
    · simp only [List.mem_cons, List.not_mem_nil, or_false] at hb
      rcases hb with rfl | rfl | rfl <;> rw [hsmall _ (by omega)] <;> omega
    · simp only [List.mem_cons, List.not_mem_nil, or_false] at hb
      rcases hb with rfl | rfl | rfl | rfl <;> rw [hsmall _ (by omega)] <;> omega

@[simp] theorem bytesOf_nil : bytesOf [] = [] := rfl

@[simp] theorem bytesOf_cons : bytesOf (c :: s) = String.utf8EncodeChar c ++ bytesOf s := rfl

theorem bytesOf_append : bytesOf (s ++ t) = bytesOf s ++ bytesOf t := List.flatMap_append

theorem bytesOf_ascii (h : ∀ c ∈ s, c.toNat < 0x80) :
    (bytesOf s).map byteChar = s ∧ ∀ b ∈ bytesOf s, b.toNat < 0x80 := by
  induction s with
  | nil => exact ⟨rfl, nofun⟩
  | cons c s ih =>
    have hc := h c List.mem_cons_self
    obtain ⟨hmap, hlow⟩ := ih fun d hd => h d (List.mem_cons_of_mem _ hd)
    rw [bytesOf_cons, encode_ascii hc]
    refine ⟨?_, ?_⟩
    · rw [List.map_append, hmap, List.map_singleton, byteChar_encode hc]
      rfl
    · intro b hb
      rcases List.mem_cons.mp hb with rfl | hb
      · rwa [toNat_encode_ascii hc]
      · exact hlow b hb

/-- ASCII bytes at the front are characters at the front. -/
theorem prefix_of_bytes {w : List UInt8} (hw : ∀ b ∈ w, b.toNat < 0x80) (h : w <+: bytesOf s) :
    w.map byteChar <+: s := by
  induction s generalizing w with
  | nil =>
    rw [bytesOf_nil, List.prefix_nil] at h
    rw [h]
    exact List.nil_prefix
  | cons c s ih =>
    cases w with
    | nil => exact List.nil_prefix
    | cons b w =>
      have hb := hw b List.mem_cons_self
      by_cases hc : c.toNat < 0x80
      · rw [bytesOf_cons, encode_ascii hc, List.singleton_append, List.cons_prefix_cons] at h
        rw [List.map_cons, h.1, byteChar_encode hc, List.cons_prefix_cons]
        exact ⟨rfl, ih (fun b' hb' => hw b' (List.mem_cons_of_mem _ hb')) h.2⟩
      · exfalso
        have hmem : b ∈ String.utf8EncodeChar c := by
          obtain ⟨b', bs, hbs⟩ := List.exists_cons_of_ne_nil (String.utf8EncodeChar_ne_nil (c := c))
          rw [bytesOf_cons, hbs, List.cons_append, List.cons_prefix_cons] at h
          rw [hbs, h.1]
          exact List.mem_cons_self
        have := high_of_mem_encode (Nat.not_lt.mp hc) b hmem
        omega

/-- ASCII bytes among those of a text are characters of it. -/
theorem infix_of_bytes {w : List UInt8} (hw : ∀ b ∈ w, b.toNat < 0x80) (hne : w ≠ [])
    (h : w <:+: bytesOf s) : w.map byteChar <:+: s := by
  induction s with
  | nil =>
    rw [bytesOf_nil, List.infix_nil] at h
    exact absurd h hne
  | cons c s ih =>
    obtain ⟨u, v, huv⟩ := h
    rw [bytesOf_cons, List.append_assoc, List.append_eq_append_iff] at huv
    rcases huv with ⟨rest, henc, hrest⟩ | ⟨rest, hu, hrest⟩
    · cases rest with
      | nil =>
        rw [List.nil_append] at hrest
        exact (ih (hrest ▸ (List.prefix_append w v).isInfix)).trans (List.suffix_cons c s).isInfix
      | cons b rest =>
        obtain ⟨b', w', rfl⟩ := List.exists_cons_of_ne_nil hne
        rw [List.cons_append, List.cons_append, List.cons.injEq] at hrest
        have hmem : b ∈ String.utf8EncodeChar c := henc ▸ by simp
        have hb := hw b' List.mem_cons_self
        rw [hrest.1] at hb
        by_cases hc : c.toNat < 0x80
        · have hu : u = [] := by
            rw [encode_ascii hc] at henc
            have hlen := congrArg List.length henc
            simp only [List.length_append, List.length_cons, List.length_nil] at hlen
            exact List.length_eq_zero_iff.mp (by omega)
          refine (prefix_of_bytes (s := c :: s) hw ?_).isInfix
          rw [hu, List.nil_append] at henc
          rw [bytesOf_cons, henc]
          refine ⟨v, ?_⟩
          rw [List.cons_append, List.cons_append, hrest.1, hrest.2]
        · have := high_of_mem_encode (Nat.not_lt.mp hc) b hmem
          omega
    · refine (ih ⟨rest, v, ?_⟩).trans (List.suffix_cons c s).isInfix
      rw [List.append_assoc, hrest]

end Pertisk.Lib
