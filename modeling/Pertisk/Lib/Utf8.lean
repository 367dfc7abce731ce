import Mathlib.Algebra.GroupWithZero.Nat
import Mathlib.Data.List.Basic

namespace Pertisk.Lib

/-- A character of which the first bytes have come: so many are left, and the next one's bounds. -/
structure Pending where
  left : ℕ
  low : ℕ
  high : ℕ
  value : ℕ
  tail : 0x80 ≤ low ∧ high ≤ 0xBF

namespace Utf8

def replacement : Char := Char.ofNat 0xFFFD

/-- The first byte of a character. -/
def lead (b : ℕ) : List Char × Option Pending :=
  if b < 0x80 then ([Char.ofNat b], none)
  else if 0xC2 ≤ b ∧ b ≤ 0xDF then ([], some ⟨1, 0x80, 0xBF, b % 0x20, by decide⟩)
  else if b = 0xE0 then ([], some ⟨2, 0xA0, 0xBF, 0, by decide⟩)
  else if b = 0xED then ([], some ⟨2, 0x80, 0x9F, 0xD, by decide⟩)
  else if 0xE1 ≤ b ∧ b ≤ 0xEF then ([], some ⟨2, 0x80, 0xBF, b % 0x10, by decide⟩)
  else if b = 0xF0 then ([], some ⟨3, 0x90, 0xBF, 0, by decide⟩)
  else if 0xF1 ≤ b ∧ b ≤ 0xF3 then ([], some ⟨3, 0x80, 0xBF, b % 0x8, by decide⟩)
  else if b = 0xF4 then ([], some ⟨3, 0x80, 0x8F, 4, by decide⟩)
  else ([replacement], none)

def Accepts (p : Pending) (b : ℕ) : Prop := p.low ≤ b ∧ b ≤ p.high

instance (p : Pending) (b : ℕ) : Decidable (Accepts p b) := inferInstanceAs (Decidable (_ ∧ _))

/-- A byte that goes on with a character. -/
def more (p : Pending) (b : ℕ) : List Char × Option Pending :=
  let value := p.value * 0x40 + b % 0x40
  if p.left ≤ 1 then ([Char.ofNat value], none)
  else ([], some ⟨p.left - 1, 0x80, 0xBF, value, by decide⟩)

/-- One byte more. One that does not go on with the character is the first of another, and what came
before it is replaced. -/
def next : Option Pending → ℕ → List Char × Option Pending
  | none, b => lead b
  | some p, b => if Accepts p b then more p b else (replacement :: (lead b).1, (lead b).2)

/-- What is left of a character at the end is replaced. -/
def finish : Option Pending → List Char
  | none => []
  | some _ => [replacement]

/-- The characters of the bytes, with a replacement for each part that is none's. -/
def decode : Option Pending → List UInt8 → List Char
  | s, [] => finish s
  | s, b :: bs => (next s b.toNat).1 ++ decode (next s b.toNat).2 bs

def lossy (bytes : List UInt8) : List Char := decode none bytes

/-- Where the decoder stands after the bytes. -/
def after : Option Pending → List UInt8 → Option Pending
  | s, [] => s
  | s, b :: bs => after (next s b.toNat).2 bs

/-- The bytes that follow do not go on with the character. -/
def Whole (s : Option Pending) (bs : List UInt8) : Prop :=
  ∀ p ∈ s, ∀ b ∈ bs.head?, ¬ Accepts p b.toNat

variable {s : Option Pending} {p : Pending} {a b : List UInt8} {x : UInt8}

theorem decode_cons (s : Option Pending) (x : UInt8) (a : List UInt8) :
    decode s (x :: a) = (next s x.toNat).1 ++ decode (next s x.toNat).2 a := rfl

theorem after_cons (s : Option Pending) (x : UInt8) (a : List UInt8) :
    after s (x :: a) = after (next s x.toNat).2 a := rfl

theorem decode_append : ∃ out, decode s a = out ++ finish (after s a) ∧
    decode s (a ++ b) = out ++ decode (after s a) b := by
  induction a generalizing s with
  | nil => exact ⟨[], rfl, rfl⟩
  | cons x a ih =>
    obtain ⟨out, hout, hmore⟩ := ih (s := (next s x.toNat).2)
    refine ⟨(next s x.toNat).1 ++ out, ?_, ?_⟩
    · rw [decode_cons, after_cons, hout, List.append_assoc]
    · rw [List.cons_append, decode_cons, after_cons, hmore, List.append_assoc]

/-- A byte that goes on with a character begins none. -/
theorem lead_of_accepts {b : ℕ} (h : Accepts p b) : lead b = ([replacement], none) := by
  obtain ⟨hlow, hhigh⟩ := h
  obtain ⟨hlow', hhigh'⟩ := p.tail
  unfold lead
  rw [if_neg (by omega), if_neg (by omega), if_neg (by omega), if_neg (by omega),
    if_neg (by omega), if_neg (by omega), if_neg (by omega), if_neg (by omega)]

/-- From a whole character on, the bytes are decoded as if nothing were before them. -/
theorem decode_of_whole (h : Whole s b) : decode s b = finish s ++ decode none b := by
  cases s with
  | none => rfl
  | some p =>
    cases b with
    | nil => rfl
    | cons x b =>
      have hnot : ¬ Accepts p x.toNat := h p rfl x rfl
      have hnext : next (some p) x.toNat = (replacement :: (lead x.toNat).1, (lead x.toNat).2) :=
        if_neg hnot
      rw [decode_cons, hnext]
      rfl

theorem accepts_of_not_whole (h : ¬ Whole (some p) (x :: b)) : Accepts p x.toNat := by
  by_contra hnot
  refine h (fun q hq y hy => ?_)
  cases hq
  cases hy
  exact hnot

/-- A character that the bytes go on with is one, and its parts are more. -/
theorem length_decode_lt (h : ¬ Whole s b) :
    (decode s b).length < (finish s).length + (decode none b).length := by
  induction b generalizing s with
  | nil => exact absurd (fun p _ b hb => nomatch hb) h
  | cons x b ih =>
    cases s with
    | none => exact absurd (fun p hp => nomatch hp) h
    | some p =>
      have haccepts := accepts_of_not_whole h
      have hrest (s : Option Pending) :
          (decode s b).length ≤ (finish s).length + (decode none b).length := by
        by_cases hw : Whole s b
        · exact Nat.le_of_eq (by rw [decode_of_whole hw, List.length_append])
        · exact Nat.le_of_lt (ih hw)
      have hnext : next (some p) x.toNat = more p x.toNat := if_pos haccepts
      have hlead : next none x.toNat = ([replacement], none) := lead_of_accepts haccepts
      rw [decode_cons, decode_cons, hnext, hlead]
      have hmore : (more p x.toNat).1.length + (finish (more p x.toNat).2).length ≤ 1 := by
        unfold more
        dsimp only
        split
        · exact Nat.le_refl 1
        · exact Nat.le_refl 1
      have := hrest (more p x.toNat).2
      have hone : (finish (some p)).length = 1 := rfl
      rw [List.length_append, List.length_append, List.length_singleton]
      dsimp only
      omega

theorem lossy_append (h : Whole (after none a) b) : lossy (a ++ b) = lossy a ++ lossy b := by
  obtain ⟨out, ha, hab⟩ := decode_append (s := none) (a := a) (b := b)
  unfold lossy
  rw [ha, hab, decode_of_whole h, List.append_assoc]

theorem length_lossy_lt (h : ¬ Whole (after none a) b) :
    (lossy (a ++ b)).length < (lossy a).length + (lossy b).length := by
  obtain ⟨out, ha, hab⟩ := decode_append (s := none) (a := a) (b := b)
  have := length_decode_lt h
  unfold lossy
  rw [ha, hab, List.length_append, List.length_append]
  omega

/-- No part ends within a character that the next ones go on with. -/
def CutWell : List (List UInt8) → Prop
  | [] => True
  | a :: parts => Whole (after none a) parts.flatten ∧ CutWell parts

/-- Parts that are decoded each for itself have at least as many characters. -/
theorem length_lossy_flatten (parts : List (List UInt8)) :
    (lossy parts.flatten).length ≤ (parts.flatMap lossy).length := by
  induction parts with
  | nil => exact Nat.le_refl _
  | cons a parts ih =>
    rw [List.flatten_cons, List.flatMap_cons, List.length_append]
    by_cases h : Whole (after none a) parts.flatten
    · rw [lossy_append h, List.length_append]
      omega
    · have := length_lossy_lt h
      omega

/-- Parts are decoded each for itself as they are together exactly when they are cut well. -/
theorem lossy_flatten_iff (parts : List (List UInt8)) :
    parts.flatMap lossy = lossy parts.flatten ↔ CutWell parts := by
  induction parts with
  | nil => exact iff_of_true rfl trivial
  | cons a parts ih =>
    unfold CutWell
    rw [← ih, List.flatten_cons, List.flatMap_cons]
    by_cases h : Whole (after none a) parts.flatten
    · rw [lossy_append h, List.append_cancel_left_eq]
      exact (and_iff_right h).symm
    · refine iff_of_false (fun heq => ?_) (fun hboth => h hboth.1)
      have hlen := congrArg List.length heq
      have hlt := length_lossy_lt h
      have htail := length_lossy_flatten parts
      rw [List.length_append] at hlen
      omega

/-! ### ASCII -/

/-- A byte below 0x80 is a character of its own, wherever it stands. -/
theorem lossy_ascii (hx : x.toNat < 0x80) :
    lossy (a ++ x :: b) = lossy a ++ Char.ofNat x.toNat :: lossy b := by
  have hwhole : Whole (after none a) (x :: b) := by
    intro p _ y hy haccepts
    obtain rfl : x = y := Option.some.inj hy
    have hlow : p.low ≤ x.toNat := haccepts.1
    have htail := p.tail.1
    omega
  have hlead : next none x.toNat = ([Char.ofNat x.toNat], none) := if_pos hx
  rw [lossy_append hwhole]
  unfold lossy
  rw [decode_cons none x b, hlead]
  rfl

/-- Whatever came before, the bytes are decoded alike from some place on; in front of that only
replacements stand when nothing came before. -/
theorem decode_common (s : Option Pending) (b : List UInt8) :
    ∃ u x v, decode s b = u ++ v ∧ decode none b = x ++ v ∧ ∀ c ∈ x, c = replacement := by
  induction b generalizing s with
  | nil => exact ⟨finish s, [], [], (List.append_nil _).symm, rfl, nofun⟩
  | cons y b ih =>
    by_cases hwhole : Whole s (y :: b)
    · exact ⟨finish s, [], decode none (y :: b), decode_of_whole hwhole, rfl, nofun⟩
    · cases s with
      | none => exact ⟨[], [], _, rfl, rfl, nofun⟩
      | some p =>
        have haccepts := accepts_of_not_whole hwhole
        obtain ⟨u, x, v, hs, hnone, hx⟩ := ih (next (some p) y.toNat).2
        refine ⟨(next (some p) y.toNat).1 ++ u, replacement :: x, v, ?_, ?_, ?_⟩
        · rw [decode_cons, hs, List.append_assoc]
        · have hlead : next none y.toNat = ([replacement], none) := lead_of_accepts haccepts
          rw [decode_cons, hlead, hnone]
          rfl
        · exact List.forall_mem_cons.mpr ⟨rfl, hx⟩

/-- A text from some byte on is the end of the whole text, but for what is left of a character that
was cut. -/
theorem lossy_tail (a b : List UInt8) :
    ∃ u x v, lossy (a ++ b) = u ++ v ∧ lossy b = x ++ v ∧ ∀ c ∈ x, c = replacement := by
  obtain ⟨out, -, hab⟩ := decode_append (s := none) (a := a) (b := b)
  obtain ⟨u, x, v, hafter, hnone, hx⟩ := decode_common (after none a) b
  refine ⟨out ++ u, x, v, ?_, hnone, hx⟩
  unfold lossy
  rw [hab, hafter, List.append_assoc]

/-- All that can become of the character is beyond ASCII. -/
def Long (p : Pending) : Prop := 0x80 ≤ (p.value * 0x40 + p.low % 0x40) * 0x40 ^ (p.left - 1)

theorem long_lead {n : ℕ} (h : p ∈ (lead n).2) : Long p := by
  unfold lead at h
  split at h
  · cases h
  · rename_i hascii
    split_ifs at h <;> cases h <;> simp only [Long] <;> omega

theorem long_more {n : ℕ} (hp : Long p) (hn : Accepts p n) :
    (∀ q ∈ (more p n).2, Long q) ∧ ∀ c ∈ (more p n).1, c.toNat = 0 ∨ 0x80 ≤ c.toNat := by
  obtain ⟨hlow, hhigh⟩ := hn
  obtain ⟨hlow', hhigh'⟩ := p.tail
  have hvalue : p.value * 0x40 + p.low % 0x40 ≤ p.value * 0x40 + n % 0x40 := by omega
  unfold Long at hp
  unfold more
  dsimp only
  split
  · rename_i hleft
    rw [show p.left - 1 = 0 by omega, Nat.pow_zero, Nat.mul_one] at hp
    refine ⟨fun q hq => absurd hq (Option.not_mem_none q), fun c hc => ?_⟩
    rw [List.mem_singleton.mp hc]
    have hlong : 0x80 ≤ p.value * 0x40 + n % 0x40 := Nat.le_trans hp hvalue
    by_cases hvalid : (p.value * 0x40 + n % 0x40).isValidChar
    · rw [Char.ofNat, dif_pos hvalid]
      exact .inr hlong
    · rw [Char.ofNat, dif_neg hvalid]
      exact .inl rfl
  · rename_i hleft
    refine ⟨fun q hq => ?_, fun c hc => absurd hc List.not_mem_nil⟩
    obtain rfl := Option.some.inj hq
    have hpow : (0x40 : ℕ) ^ (p.left - 1) = 0x40 * 0x40 ^ (p.left - 1 - 1) := by
      rw [← Nat.pow_succ', show (p.left - 1 - 1).succ = p.left - 1 by omega]
    rw [hpow, ← Nat.mul_assoc] at hp
    refine Nat.le_trans hp (Nat.mul_le_mul_right _ ?_)
    dsimp only
    omega

/-- A character that is ASCII comes from its own byte. -/
theorem mem_of_mem_lossy {c : Char} (hc : c ∈ lossy a) (hpos : 0 < c.toNat)
    (hascii : c.toNat < 0x80) : ∃ y ∈ a, y.toNat = c.toNat := by
  suffices hdecode : ∀ s, (∀ p ∈ s, Long p) → c ∈ decode s a → ∃ y ∈ a, y.toNat = c.toNat from
    hdecode none nofun hc
  have hreplacement : c ≠ replacement := by
    rintro rfl
    exact absurd hascii (by decide)
  have hlead (y : UInt8) (hc : c ∈ (lead y.toNat).1) : y.toNat = c.toNat := by
    unfold lead at hc
    split at hc
    · rename_i hy
      rw [List.mem_singleton.mp hc, Char.ofNat, dif_pos (Or.inl (by omega))]
      rfl
    · split_ifs at hc <;> simp_all
  clear hc
  induction a with
  | nil =>
    intro s _ hc
    cases s with
    | none => cases hc
    | some p => exact absurd (List.mem_singleton.mp hc) hreplacement
  | cons y a ih =>
    intro s hs hc
    rw [decode_cons] at hc
    have hstep : (c ∈ (next s y.toNat).1 → y.toNat = c.toNat) ∧ ∀ p ∈ (next s y.toNat).2, Long p := by
      cases s with
      | none => exact ⟨hlead y, fun p hp => long_lead hp⟩
      | some p =>
        by_cases haccepts : Accepts p y.toNat
        · rw [show next (some p) y.toNat = more p y.toNat from if_pos haccepts]
          obtain ⟨hlong, hchars⟩ := long_more (hs p rfl) haccepts
          refine ⟨fun hc => ?_, hlong⟩
          rcases hchars c hc with hzero | hbig
          · omega
          · omega
        · rw [show next (some p) y.toNat = (replacement :: (lead y.toNat).1, (lead y.toNat).2) from
            if_neg haccepts]
          refine ⟨fun hc => ?_, fun p hp => long_lead hp⟩
          exact hlead y ((List.mem_cons.mp hc).resolve_left hreplacement)
    rcases List.mem_append.mp hc with hc | hc
    · exact ⟨y, List.mem_cons_self, hstep.1 hc⟩
    · obtain ⟨z, hz, hsame⟩ := ih _ hstep.2 hc
      exact ⟨z, List.mem_cons_of_mem y hz, hsame⟩

/-- A character that was begun leaves one beyond ASCII. -/
theorem exists_of_pending (hp : Long p) : ∃ c ∈ decode (some p) a, c.toNat = 0 ∨ 0x80 ≤ c.toNat := by
  induction a generalizing p with
  | nil => exact ⟨replacement, List.mem_cons_self, .inr (by decide)⟩
  | cons y a ih =>
    rw [decode_cons]
    by_cases haccepts : Accepts p y.toNat
    · rw [show next (some p) y.toNat = more p y.toNat from if_pos haccepts]
      obtain ⟨hlong, hchars⟩ := long_more hp haccepts
      cases hmore : (more p y.toNat).2 with
      | none =>
        have hone : (more p y.toNat).1 ≠ [] := by
          unfold more at hmore ⊢
          dsimp only at hmore ⊢
          split at hmore
          · rename_i hleft
            rw [if_pos hleft]
            exact List.cons_ne_nil _ _
          · cases hmore
        obtain ⟨c, hc⟩ := List.exists_mem_of_ne_nil _ hone
        exact ⟨c, List.mem_append_left _ hc, hchars c hc⟩
      | some q =>
        obtain ⟨c, hc, hbig⟩ := ih (hlong q hmore)
        exact ⟨c, List.mem_append_right _ hc, hbig⟩
    · rw [show next (some p) y.toNat = (replacement :: (lead y.toNat).1, (lead y.toNat).2) from
        if_neg haccepts]
      exact ⟨replacement, List.mem_append_left _ List.mem_cons_self, .inr (by decide)⟩

/-- Bytes that are read as an ASCII text are the text's. -/
theorem bytes_of_ascii (h : ∀ c ∈ lossy a, 0 < c.toNat ∧ c.toNat < 0x80) :
    a.map (fun y => Char.ofNat y.toNat) = lossy a := by
  induction a with
  | nil => rfl
  | cons y a ih =>
    by_cases hy : y.toNat < 0x80
    · have hcons : lossy (y :: a) = Char.ofNat y.toNat :: lossy a := lossy_ascii (a := []) hy
      rw [hcons] at h
      rw [hcons, List.map_cons, ih fun c hc => h c (List.mem_cons_of_mem _ hc)]
    · exfalso
      have hlossy : lossy (y :: a) = (lead y.toNat).1 ++ decode (lead y.toNat).2 a := rfl
      rw [hlossy] at h
      have hbad : ∃ c ∈ (lead y.toNat).1 ++ decode (lead y.toNat).2 a,
          c.toNat = 0 ∨ 0x80 ≤ c.toNat := by
        cases hpending : (lead y.toNat).2 with
        | some p =>
          obtain ⟨c, hc, hbig⟩ := exists_of_pending (a := a) (long_lead hpending)
          exact ⟨c, List.mem_append_right _ hc, hbig⟩
        | none =>
          have hlead : (lead y.toNat).1 = [replacement] := by
            unfold lead at hpending ⊢
            rw [if_neg hy] at hpending ⊢
            split_ifs at hpending ⊢
            rfl
          rw [hlead]
          exact ⟨replacement, List.mem_append_left _ List.mem_cons_self, .inr (by decide)⟩
      obtain ⟨c, hc, hbig⟩ := hbad
      have hsmall := h c hc
      omega

end Utf8

end Pertisk.Lib
