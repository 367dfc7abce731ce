import Pertisk.SerialLog.Scan

namespace Pertisk.SerialLog
open Lib PeerUrl Net Text

/-- So many pairs of digits, a colon or hyphen behind each, and a last pair. -/
def isPairs : ℕ → List Char → Bool
  | 0, [a, b] => isHexdigit a && isHexdigit b
  | n + 1, a :: b :: c :: s =>
    isHexdigit a && isHexdigit b && (c == ':' || c == '-') && isPairs n s
  | _, _ => false

/-- The text of a MAC address. -/
def isMacText (s : List Char) : Bool := isPairs 5 s

/-- A MAC address stands in the line. -/
def CarriesMac (line : List Char) : Prop := ∃ m, m <:+: line ∧ isMacText m = true

def coloned (c : Char) : Char := if c = '-' then ':' else c

/-- The NIC's own address stands in the line, with colons or hyphens and in either case. -/
def CarriesNic (line : List Char) (mac : String) : Prop :=
  ∃ m want, m <:+: line ∧ isMacText m = true ∧ normalizeMac mac = some want ∧
    (toAsciiLowercase m).map coloned = want.toList

theorem CarriesNic.carriesMac {line : List Char} {mac : String} (h : CarriesNic line mac) :
    CarriesMac line := by
  obtain ⟨m, -, hm, htext, -⟩ := h
  exact ⟨m, hm, htext⟩

theorem CarriesMac.mono {line whole : List Char} (h : CarriesMac line) (hin : line <:+: whole) :
    CarriesMac whole := by
  obtain ⟨m, hm, htext⟩ := h
  exact ⟨m, hm.trans hin, htext⟩

section digits
variable {c : Char} {s t line : List Char} {n : ℕ}

/-- ASCII is looked through, and nothing else is a digit or a capital letter of it. -/
theorem char_cases {p : Char → Prop} (hsmall : ∀ n < 0x80, p (Char.ofNat n))
    (hbig : ∀ c : Char, 0x80 ≤ c.toNat → p c) (c : Char) : p c := by
  by_cases h : c.toNat < 0x80
  · have hchar := hsmall c.toNat h
    rwa [Char.ofNat_toNat] at hchar
  · exact hbig c (Nat.not_lt.mp h)

theorem isHexdigit_large (h : 0x80 ≤ c.toNat) : isHexdigit c = false := by
  have hnat : c.toNat = c.val.toNat := rfl
  have hle : ∀ d : Char, d.toNat < 0x80 → decide (c ≤ d) = false := by
    intro d hd
    rw [decide_eq_false_iff_not, Char.le_def, UInt32.le_iff_toNat_le]
    have hnat' : d.toNat = d.val.toNat := rfl
    omega
  have hdigit : c.isDigit = false := by
    have h9 : decide (c.val ≤ ('9').val) = false := hle '9' (by decide)
    unfold Char.isDigit
    rw [h9, Bool.and_false]
  unfold isHexdigit
  rw [hdigit, hle 'f' (by decide), hle 'F' (by decide), Bool.and_false, Bool.and_false]
  rfl

theorem ascii_of_isHexdigit (h : isHexdigit c = true) : c.toNat < 0x80 := by
  by_contra hbig
  rw [isHexdigit_large (Nat.not_lt.mp hbig)] at h
  cases h

theorem toLower_large (h : 0x80 ≤ c.toNat) : c.toLower = c := by
  have hnat : c.toNat = c.val.toNat := rfl
  unfold Char.toLower
  refine dif_neg fun hupper => ?_
  have h90 := UInt32.le_iff_toNat_le.mp hupper.2
  have hz : ('Z').val.toNat = 90 := rfl
  omega

theorem isPairs_ascii (h : isPairs n s = true) : ∀ c ∈ s, c.toNat < 0x80 := by
  induction n, s using isPairs.induct with
  | case1 a b =>
    simp only [isPairs, Bool.and_eq_true] at h
    intro c hc
    simp only [List.mem_cons, List.not_mem_nil, or_false] at hc
    rcases hc with rfl | rfl
    · exact ascii_of_isHexdigit h.1
    · exact ascii_of_isHexdigit h.2
  | case2 n a b c s ih =>
    simp only [isPairs, Bool.and_eq_true, Bool.or_eq_true, beq_iff_eq] at h
    intro d hd
    simp only [List.mem_cons] at hd
    rcases hd with rfl | rfl | rfl | hd
    · exact ascii_of_isHexdigit h.1.1.1
    · exact ascii_of_isHexdigit h.1.1.2
    · rcases h.1.2 with rfl | rfl <;> decide
    · exact ih h.2 d hd
  | case3 n s h1 h2 =>
    rw [isPairs] at h
    · cases h
    · exact h1
    · exact h2

theorem isPairs_length (h : isPairs n s = true) : s.length = 3 * n + 2 := by
  induction n, s using isPairs.induct with
  | case1 a b => rfl
  | case2 n a b c s ih =>
    simp only [isPairs, Bool.and_eq_true] at h
    simp only [List.length_cons, ih h.2]
    omega
  | case3 n s h1 h2 =>
    rw [isPairs] at h
    · cases h
    · exact h1
    · exact h2

theorem isHexdigit_toLower : ∀ c : Char, isHexdigit c.toLower = isHexdigit c := by
  refine char_cases (by decide) fun c h => ?_
  rw [toLower_large h]

theorem toLower_beq {d : Char} (hd : d = ':' ∨ d = '-') : ∀ c : Char,
    (c.toLower == d) = (c == d) := by
  refine char_cases ?_ fun c h => by rw [toLower_large h]
  rcases hd with rfl | rfl <;> decide

theorem utf8Size_toLower : ∀ c : Char, c.toLower.utf8Size = c.utf8Size := by
  refine char_cases (by decide) fun c h => ?_
  rw [toLower_large h]

theorem utf8Len_lower (s : List Char) : utf8Len (toAsciiLowercase s) = utf8Len s := by
  unfold utf8Len toAsciiLowercase
  rw [List.map_map]
  exact congrArg List.sum (List.map_congr_left fun c _ => utf8Size_toLower c)

theorem isPairs_lower : ∀ n s, isPairs n (toAsciiLowercase s) = isPairs n s
  | 0, [] => rfl
  | 0, [_] => rfl
  | 0, [a, b] => by
    simp only [toAsciiLowercase, List.map_cons, List.map_nil, isPairs, isHexdigit_toLower]
  | 0, _ :: _ :: _ :: _ => rfl
  | _ + 1, [] => rfl
  | _ + 1, [_] => rfl
  | _ + 1, [_, _] => rfl
  | n + 1, a :: b :: c :: s => by
    have ih := isPairs_lower n s
    unfold toAsciiLowercase at ih ⊢
    simp only [List.map_cons, isPairs, isHexdigit_toLower, toLower_beq (.inl rfl),
      toLower_beq (.inr rfl), ih]

/-- What stands in a text in small letters stands in the text. -/
theorem exists_of_infix_lower (h : t <:+: toAsciiLowercase s) :
    ∃ m, m <:+: s ∧ toAsciiLowercase m = t := by
  obtain ⟨u, v, huv⟩ := h
  obtain ⟨uv, v', rfl, huv', rfl⟩ := List.map_eq_append_iff.mp huv.symm
  obtain ⟨u', m, rfl, rfl, hm⟩ := List.map_eq_append_iff.mp huv'
  exact ⟨m, ⟨u', v', rfl⟩, hm⟩

theorem infix_lower (h : s <:+: t) : toAsciiLowercase s <:+: toAsciiLowercase t := h.map _

theorem carriesMac_lower : CarriesMac (toAsciiLowercase line) ↔ CarriesMac line := by
  constructor
  · rintro ⟨t, ht, htext⟩
    obtain ⟨m, hm, rfl⟩ := exists_of_infix_lower ht
    exact ⟨m, hm, (isPairs_lower 5 m).symm.trans htext⟩
  · rintro ⟨m, hm, htext⟩
    exact ⟨_, infix_lower hm, (isPairs_lower 5 m).trans htext⟩

end digits

/-! ### The scan for any address -/

section scan
variable {bytes : List UInt8} {start n i steps : ℕ}

/-- Some bytes from `i` on, as characters. -/
def window (bytes : List UInt8) (i len : ℕ) : List Char :=
  ((bytes.drop i).take len).map byteChar

theorem window_succ (bytes : List UInt8) (i : ℕ) (h : i < bytes.length) (len : ℕ) :
    ∃ b, bytes[i]? = some b ∧ window bytes i (len + 1) = byteChar b :: window bytes (i + 1) len := by
  refine ⟨bytes[i], List.getElem?_eq_getElem h, ?_⟩
  unfold window
  rw [List.drop_eq_getElem_cons h, List.take_succ_cons, List.map_cons]

/-- The parts that are left are read within the bytes. -/
theorem macParts_range' (part : ℕ) (hpart : part + n = 5)
    (h : start + 17 ≤ bytes.length) : macParts bytes start (List.range' part (n + 1)) =
      some (isPairs n (window bytes (start + part * 3) (3 * n + 2))) := by
  induction n generalizing part with
  | zero =>
    obtain ⟨a, ha, hwa⟩ := window_succ bytes (start + part * 3) (by omega) 1
    obtain ⟨b, hb, hwb⟩ := window_succ bytes (start + part * 3 + 1) (by omega) 0
    have hlast : ¬ part < 5 := by omega
    have hnil : window bytes (start + part * 3 + 1 + 1) 0 = [] := rfl
    rw [Nat.mul_zero, Nat.zero_add, hwa, hwb, hnil, List.range'_succ, List.range'_zero]
    unfold macParts
    simp only [ha, hb, isPairs, isHexByte, macParts, Option.bind_eq_bind, Option.bind_some,
      if_neg hlast]
    cases isHexdigit (byteChar a) <;> cases isHexdigit (byteChar b) <;> rfl
  | succ n ih =>
    obtain ⟨a, ha, hwa⟩ :=
      window_succ bytes (start + part * 3) (by omega) (3 * n + 4)
    obtain ⟨b, hb, hwb⟩ :=
      window_succ bytes (start + part * 3 + 1) (by omega) (3 * n + 3)
    obtain ⟨c, hc, hwc⟩ :=
      window_succ bytes (start + part * 3 + 2) (by omega) (3 * n + 2)
    have hnext := ih (part + 1) (by omega)
    have hoffset : start + (part + 1) * 3 = start + part * 3 + 2 + 1 := by omega
    rw [hoffset] at hnext
    have hmid : part < 5 := by omega
    have hlen : 3 * (n + 1) + 2 = 3 * n + 4 + 1 := by omega
    rw [hlen, hwa, hwb, hwc, List.range'_succ]
    unfold macParts
    simp only [ha, hb, hc, isPairs, isHexByte, hnext, Option.bind_eq_bind, Option.bind_some,
      if_pos hmid, bne]
    cases isHexdigit (byteChar a) <;> cases isHexdigit (byteChar b) <;>
      cases byteChar c == ':' <;> cases byteChar c == '-' <;> rfl

theorem isMacAt_eq (h : start + 17 ≤ bytes.length) :
    isMacAt bytes start = some (isMacText (window bytes start 17)) := by
  have hparts := macParts_range' (n := 5) 0 rfl h
  rw [Nat.zero_mul, Nat.add_zero] at hparts
  unfold isMacAt
  rw [List.range_eq_range']
  exact hparts

theorem macFrom_spec (bytes : List UInt8) (steps i : ℕ) (hi : i ≤ bytes.length)
    (h : bytes.length < steps + i) : ∃ b, macFrom bytes steps i = some b ∧
    (b = true ↔ ∃ j, i ≤ j ∧ j + 17 ≤ bytes.length ∧ isMacText (window bytes j 17) = true) := by
  induction steps generalizing i with
  | zero => omega
  | succ steps ih =>
    rw [macFrom]
    by_cases hroom : i + 17 ≤ bytes.length
    · rw [if_pos hroom, isMacAt_eq hroom]
      obtain ⟨b, hb, hiff⟩ := ih (i + 1) (by omega) (by omega)
      cases hmac : isMacText (window bytes i 17) with
      | true => exact ⟨true, rfl, fun _ => ⟨i, Nat.le_refl i, hroom, hmac⟩, fun _ => rfl⟩
      | false =>
        refine ⟨b, hb, hiff.trans ⟨?_, ?_⟩⟩
        · rintro ⟨j, hj, hlen, htext⟩
          exact ⟨j, by omega, hlen, htext⟩
        · rintro ⟨j, hj, hlen, htext⟩
          refine ⟨j, ?_, hlen, htext⟩
          rcases Nat.eq_or_lt_of_le hj with rfl | hlt
          · rw [hmac] at htext
            cases htext
          · exact hlt
    · rw [if_neg hroom]
      refine ⟨false, rfl, nofun, ?_⟩
      rintro ⟨j, hj, hlen, -⟩
      omega

theorem window_infix (bytes : List UInt8) (i len : ℕ) :
    ∃ w, w <:+: bytes ∧ window bytes i len = w.map byteChar :=
  ⟨_, (List.take_prefix _ _).isInfix.trans (List.drop_suffix _ _).isInfix, rfl⟩

end scan

section any
variable {line : List Char} {mac : String}

theorem toNat_byteChar (b : UInt8) : (byteChar b).toNat = b.toNat := by
  have hlt := b.toNat_lt
  rw [byteChar, Char.ofNat, dif_pos (Or.inl (by omega))]
  rfl

/-- A window of the line's bytes that reads as an address is one in the line. -/
theorem carriesMac_iff_window : CarriesMac line ↔
    ∃ j, j + 17 ≤ (bytesOf line).length ∧ isMacText (window (bytesOf line) j 17) = true := by
  constructor
  · rintro ⟨m, ⟨u, v, rfl⟩, htext⟩
    obtain ⟨hmap, -⟩ := bytesOf_ascii (isPairs_ascii htext)
    have hlen : (bytesOf m).length = 17 := by
      have hm := isPairs_length htext
      rwa [← hmap, List.length_map] at hm
    refine ⟨(bytesOf u).length, ?_, ?_⟩
    · rw [bytesOf_append, bytesOf_append, List.length_append, List.length_append]
      omega
    · have hwindow : window (bytesOf (u ++ m ++ v)) (bytesOf u).length 17 = m := by
        unfold window
        rw [bytesOf_append, bytesOf_append, List.append_assoc, List.drop_left, ← hlen,
          List.take_left, hmap]
      rwa [hwindow]
  · rintro ⟨j, -, htext⟩
    obtain ⟨w, hin, hw⟩ := window_infix (bytesOf line) j 17
    rw [hw] at htext
    refine ⟨w.map byteChar, infix_of_bytes (fun b hb => ?_) ?_ hin, htext⟩
    · rw [← toNat_byteChar]
      exact isPairs_ascii htext _ (List.mem_map_of_mem hb)
    · rintro rfl
      cases htext

theorem lineHasAnyMac_spec (line : List Char) :
    ∃ b, lineHasAnyMac line = some b ∧ (b = true ↔ CarriesMac line) := by
  unfold lineHasAnyMac
  dsimp only
  rw [← carriesMac_lower, carriesMac_iff_window]
  split
  · rename_i hshort
    refine ⟨false, rfl, nofun, ?_⟩
    rintro ⟨j, hj, -⟩
    omega
  · obtain ⟨b, hb, hiff⟩ := macFrom_spec (bytesOf (toAsciiLowercase line))
      ((bytesOf (toAsciiLowercase line)).length + 1) 0 (Nat.zero_le _) (by omega)
    refine ⟨b, hb, hiff.trans ⟨?_, ?_⟩⟩
    · rintro ⟨j, -, hj, htext⟩
      exact ⟨j, hj, htext⟩
    · rintro ⟨j, hj, htext⟩
      exact ⟨j, Nat.zero_le j, hj, htext⟩

/-! ### The NIC's own address -/

/-- `want.replace(':', "-")` -/
def hyphened (c : Char) : Char := if c = ':' then '-' else c

theorem hyphened_hex {c : Char} (h : isHexdigit c = true) : hyphened c = c := by
  refine if_neg ?_
  rintro rfl
  exact absurd h (by decide)

theorem isPairs_hyphened : ∀ {n s}, isPairs n s = true → isPairs n (s.map hyphened) = true
  | 0, [a, b], h => by
    simp only [isPairs, Bool.and_eq_true] at h
    simp only [List.map_cons, List.map_nil, isPairs, hyphened_hex h.1, hyphened_hex h.2, h.1, h.2,
      Bool.and_self]
  | n + 1, a :: b :: c :: s, h => by
    simp only [isPairs, Bool.and_eq_true, Bool.or_eq_true, beq_iff_eq] at h
    have ih := isPairs_hyphened h.2
    have hc : (hyphened c == ':' || hyphened c == '-') = true := by
      rcases h.1.2 with rfl | rfl <;> rfl
    simp only [List.map_cons, isPairs, hyphened_hex h.1.1.1, hyphened_hex h.1.1.2, h.1.1.1, h.1.1.2,
      hc, ih, Bool.and_self]

theorem coloned_hyphened {s : List Char} (h : '-' ∉ s) : (s.map hyphened).map coloned = s := by
  rw [List.map_map]
  have hself : ∀ c ∈ s, (coloned ∘ hyphened) c = c := by
    intro c hc
    have hne : c ≠ '-' := fun heq => h (heq ▸ hc)
    by_cases hcolon : c = ':'
    · rw [hcolon]
      rfl
    · rw [Function.comp_apply, hyphened, if_neg hcolon, coloned, if_neg hne]
  exact (List.map_congr_left hself).trans (List.map_id' s)

theorem map_coloned {s : List Char} (h : '-' ∉ s) : s.map coloned = s := by
  have hself : ∀ c ∈ s, coloned c = c := by
    intro c hc
    refine if_neg ?_
    rintro rfl
    exact h hc
  exact (List.map_congr_left hself).trans (List.map_id' s)

/-- Twelve digits in pairs. -/
theorem isPairs_chunks : ∀ {hex : List Char}, hex.length = 12 → (∀ c ∈ hex, isHexdigit c = true) →
    isPairs 5 ([':'].intercalate (hex.toChunks 2)) = true ∧
      '-' ∉ [':'].intercalate (hex.toChunks 2)
  | [a, b, c, d, e, f, g, h, i, j, k, l], _, hhex => by
    have hjoin : [':'].intercalate ([a, b, c, d, e, f, g, h, i, j, k, l].toChunks 2) =
        [a, b, ':', c, d, ':', e, f, ':', g, h, ':', i, j, ':', k, l] := rfl
    have hhyphen : ∀ x ∈ [a, b, c, d, e, f, g, h, i, j, k, l], '-' ≠ x := by
      rintro x hx rfl
      exact absurd (hhex _ hx) (by decide)
    rw [hjoin]
    simp only [List.forall_mem_cons] at hhex hhyphen
    refine ⟨by simp [isPairs, hhex], by simp [hhyphen]⟩

theorem normalizeMac_form {want : String} (h : normalizeMac mac = some want) :
    isMacText want.toList = true ∧ '-' ∉ want.toList := by
  unfold normalizeMac at h
  dsimp only at h
  split at h
  · cases h
  · rename_i hlen
    obtain rfl := Option.some.inj h
    rw [String.toList_ofList]
    refine isPairs_chunks (not_not.mp hlen) fun c hc => ?_
    obtain ⟨d, hd, rfl⟩ := List.mem_map.mp hc
    rw [isHexdigit_toLower]
    exact (List.mem_filter.mp hd).2

theorem serialLineHasMac_carries (h : serialLineHasMac line mac = true) : CarriesNic line mac := by
  unfold serialLineHasMac at h
  cases hwant : normalizeMac mac with
  | none =>
    rw [hwant] at h
    cases h
  | some want =>
    obtain ⟨hpairs, hhyphen⟩ := normalizeMac_form hwant
    simp only [hwant, has, Bool.or_eq_true, decide_eq_true_eq] at h
    rcases h with h | h
    · obtain ⟨m, hm, hlower⟩ := exists_of_infix_lower h
      refine ⟨m, want, hm, ?_, hwant, ?_⟩
      · rw [← hlower] at hpairs
        exact (isPairs_lower 5 m).symm.trans hpairs
      · rw [hlower]
        exact map_coloned hhyphen
    · obtain ⟨m, hm, hlower⟩ := exists_of_infix_lower h
      refine ⟨m, want, hm, ?_, hwant, ?_⟩
      · have hpairs' := isPairs_hyphened hpairs
        rw [show want.toList.map hyphened = toAsciiLowercase m from hlower.symm] at hpairs'
        exact (isPairs_lower 5 m).symm.trans hpairs'
      · rw [hlower]
        exact coloned_hyphened hhyphen

/-- What a line's addresses must be for one of it to be taken. -/
structure Accepted (mac : String) (allowWithoutMac : Bool) (line : List Char) : Prop where
  own : CarriesMac line → CarriesNic line mac
  given : allowWithoutMac = false → CarriesNic line mac

theorem serialLineMacOk_spec (line : List Char) (mac : Option String) (allow : Bool) :
    ∃ b, serialLineMacOk line mac allow = some b ∧ (b = true → ∀ m ∈ mac, Accepted m allow line) := by
  obtain ⟨b, hb, hiff⟩ := lineHasAnyMac_spec line
  unfold serialLineMacOk
  rw [hb]
  cases b with
  | true =>
    refine ⟨mac.any (serialLineHasMac line), rfl, fun h m hm => ?_⟩
    rw [Option.mem_def.mp hm, Option.any_some] at h
    exact ⟨fun _ => serialLineHasMac_carries h, fun _ => serialLineHasMac_carries h⟩
  | false =>
    have hnone : ¬ CarriesMac line := fun h => nomatch hiff.mpr h
    refine ⟨allow, rfl, fun h m _ => ⟨fun hany => absurd hany hnone, fun hgiven => ?_⟩⟩
    rw [hgiven] at h
    cases h

end any

end Pertisk.SerialLog
