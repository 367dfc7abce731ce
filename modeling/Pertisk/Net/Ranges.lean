import Mathlib.Data.List.TakeDrop
import Mathlib.Data.Nat.Bitwise
import Pertisk.Net.Addresses

namespace Pertisk.Net
open Lib

/-- Clearing the lowest bits rounds an address down. -/
theorem and_mask {ip k : ℕ} (hk : k ≤ 32) (h : ip < 2 ^ 32) :
    ip &&& (2 ^ 32 - 2 ^ k) = ip / 2 ^ k * 2 ^ k := by
  have hmask : 2 ^ 32 - 2 ^ k = (2 ^ (32 - k) - 1) * 2 ^ k := by
    rw [Nat.sub_mul, ← pow_add, Nat.sub_add_cancel hk, one_mul]
  rw [hmask]
  refine Nat.eq_of_testBit_eq (fun i => ?_)
  rw [Nat.testBit_and, Nat.testBit_mul_two_pow, Nat.testBit_mul_two_pow,
    Nat.testBit_two_pow_sub_one, Nat.testBit_div_two_pow]
  by_cases hi : k ≤ i
  · have hsum : i - k + k = i := by omega
    by_cases hbit : i < 32
    · have hlow : i - k < 32 - k := by omega
      simp [hi, hlow, hsum]
    · have hzero : ip.testBit i = false :=
        Nat.testBit_lt_two_pow (h.trans_le (Nat.pow_le_pow_right (by decide) (by omega)))
      simp [hi, hsum, hzero]
  · simp [hi]

namespace Ipv4Net

def overlaps (n other : Ipv4Net) : Bool := n.contains other.network || other.contains n.network

/-- The number of addresses. -/
def size (n : Ipv4Net) : ℕ := 2 ^ (32 - n.pfx)

/-- A host can have the address: it is neither the network's own nor the broadcast. -/
def Usable (n : Ipv4Net) (ip : ℕ) : Prop :=
  n.contains ip = true ∧ ip ≠ n.network ∧ ip ≠ n.broadcast

instance (n : Ipv4Net) (ip : ℕ) : Decidable (n.Usable ip) := inferInstanceAs (Decidable (_ ∧ _))

/-- What is read from a text: the network begins at a multiple of its size. -/
structure Formed (n : Ipv4Net) : Prop where
  pfx : n.pfx ≤ 32
  lt : n.network < 2 ^ 32
  aligned : n.network / n.size * n.size = n.network

variable {a b n : Ipv4Net} {ip : ℕ} {s : String}

theorem size_pos : 0 < n.size := Nat.two_pow_pos _

theorem and_mask_eq (h : ip < 2 ^ 32) : ip &&& n.mask = ip / n.size * n.size :=
  and_mask (Nat.sub_le _ _) h

theorem parseU8_lt {cs : List Char} {v : ℕ} (h : parseU8 cs = some v) : v < 256 := by
  unfold parseU8 at h
  dsimp only at h
  split at h
  · rename_i hv
    cases h
    exact hv.2.2
  · cases h

theorem parseIpv4_lt (h : parseIpv4 s = .ok ip) : ip < 2 ^ 32 := by
  unfold parseIpv4 at h
  split at h
  · rename_i a b c d hparts
    have hbytes : ∀ v, some v ∈ (s.toList.splitOn '.').map parseU8 → v < 256 := by
      intro v hv
      obtain ⟨part, -, hpart⟩ := List.mem_map.mp hv
      exact parseU8_lt hpart
    rw [hparts] at hbytes
    have ha := hbytes a (by simp)
    have hb := hbytes b (by simp)
    have hc := hbytes c (by simp)
    have hd := hbytes d (by simp)
    cases h
    omega
  · cases h

theorem parse_formed (h : parse s = .ok n) : n.Formed := by
  have hlt := parse_lt h
  unfold parse at h
  split at h
  · split at h
    · cases h
    · split at h
      · cases h
      · rename_i pfx _ hpfx
        obtain ⟨addr, haddr, h⟩ := bind_ok h
        cases h
        refine ⟨Nat.le_of_not_lt hpfx, hlt, ?_⟩
        have hsize : Ipv4Net.size ⟨0, pfx⟩ ∣ addr &&& Ipv4Net.mask ⟨0, pfx⟩ := by
          rw [and_mask_eq (parseIpv4_lt haddr)]
          exact Dvd.intro_left _ rfl
        exact Nat.div_mul_cancel hsize
  · cases h

/-- A network has the addresses that share its quotient. -/
theorem contains_iff (hn : n.Formed) (h : ip < 2 ^ 32) :
    n.contains ip = true ↔ ip / n.size = n.network / n.size := by
  unfold contains
  rw [beq_iff_eq, and_mask_eq h]
  constructor
  · intro heq
    rw [← heq, Nat.mul_div_cancel _ size_pos]
  · intro heq
    rw [heq, hn.aligned]

theorem contains_network (hn : n.Formed) : n.contains n.network = true :=
  (contains_iff hn hn.lt).mpr rfl

/-- Of two networks with an address in common the larger has the other's first address. -/
theorem contains_of_common (ha : a.Formed) (hb : b.Formed) (hle : a.pfx ≤ b.pfx) (h : ip < 2 ^ 32)
    (hin : a.contains ip = true) (hin' : b.contains ip = true) : a.contains b.network = true := by
  rw [contains_iff ha hb.lt]
  rw [contains_iff ha h] at hin
  rw [contains_iff hb h] at hin'
  have hsize : a.size = b.size * 2 ^ (b.pfx - a.pfx) := by
    unfold size
    rw [← pow_add]
    congr 1
    have hpfx := hb.pfx
    omega
  rw [← hin, hsize, ← Nat.div_div_eq_div_mul, ← Nat.div_div_eq_div_mul, hin']

/-- `overlaps` tells whether two networks have an address in common. -/
theorem overlaps_iff (ha : a.Formed) (hb : b.Formed) :
    a.overlaps b = true ↔ ∃ ip < 2 ^ 32, a.contains ip = true ∧ b.contains ip = true := by
  unfold overlaps
  rw [Bool.or_eq_true]
  constructor
  · rintro (h | h)
    · exact ⟨b.network, hb.lt, h, contains_network hb⟩
    · exact ⟨a.network, ha.lt, contains_network ha, h⟩
  · rintro ⟨ip, hip, hin, hin'⟩
    rcases Nat.le_total a.pfx b.pfx with hle | hle
    · exact .inl (contains_of_common ha hb hle hip hin hin')
    · exact .inr (contains_of_common hb ha hle hip hin' hin)

/-- A network is read back from its text. -/
theorem parse_toCidrString (hn : n.Formed) : parse n.toCidrString = .ok n := by
  have haddr : ∀ c ∈ (ipv4String n.network).toList, decide (c ≠ '/') = true := by
    have hslash : ∀ v : ℕ, '/' ∉ (toString v).toList :=
      fun v h => absurd (isDigit_digits h) (by decide)
    intro c hc
    refine decide_eq_true ?_
    rintro rfl
    have hdot : '/' ∉ (toString ".").toList := by decide
    simp only [ipv4String, String.toList_append, List.mem_append] at hc
    rcases hc with (((((hc | hc) | hc) | hc) | hc) | hc) | hc
    · exact hslash (n.network / 2 ^ 24 % 256) hc
    · exact hdot hc
    · exact hslash (n.network / 2 ^ 16 % 256) hc
    · exact hdot hc
    · exact hslash (n.network / 2 ^ 8 % 256) hc
    · exact hdot hc
    · exact hslash (n.network % 256) hc
  have htext : n.toCidrString.toList =
      (ipv4String n.network).toList ++ '/' :: (toString n.pfx).toList := by
    have hslash : (toString "/").toList = ['/'] := rfl
    have haddrText : toString (ipv4String n.network) = ipv4String n.network := rfl
    simp [toCidrString, String.toList_append, hslash, haddrText]
  have hspan : n.toCidrString.toList.span (· ≠ '/') =
      ((ipv4String n.network).toList, '/' :: (toString n.pfx).toList) := by
    rw [htext, List.span_eq_takeWhile_dropWhile, List.takeWhile_append_of_pos haddr,
      List.dropWhile_append_of_pos haddr]
    simp
  have hpfx : parseU8 (toString n.pfx).toList = some n.pfx :=
    parseU8_digits (hn.pfx.trans_lt (by decide))
  have hnetwork : n.network &&& mask ⟨0, n.pfx⟩ = n.network :=
    (and_mask_eq hn.lt).trans hn.aligned
  unfold parse
  simp only [hspan, hpfx]
  rw [if_neg (Nat.not_lt.mpr hn.pfx), String.ofList_toList, parseIpv4_ipv4String hn.lt]
  exact congrArg (fun network => Except.ok (Ipv4Net.mk network n.pfx)) hnetwork

theorem broadcast_eq (hn : n.Formed) : n.broadcast = n.network + (n.size - 1) := by
  have hmask : 2 ^ 32 - 1 - n.mask = n.size - 1 := by
    have hle : n.size ≤ 2 ^ 32 := Nat.pow_le_pow_right (by decide) (Nat.sub_le _ _)
    have hm : n.mask = 2 ^ 32 - n.size := rfl
    omega
  have hlow : n.size - 1 < 2 ^ (32 - n.pfx) := Nat.sub_lt size_pos Nat.one_pos
  unfold broadcast
  rw [hmask, ← hn.aligned, Nat.mul_comm]
  exact (Nat.two_pow_add_eq_or_of_lt hlow _).symm

theorem end_le (hn : n.Formed) : n.network + n.size ≤ 2 ^ 32 := by
  have htotal : 2 ^ n.pfx * n.size = 2 ^ 32 := by
    unfold size
    rw [← pow_add, Nat.add_sub_cancel' hn.pfx]
  have hquotient : n.network / n.size + 1 ≤ 2 ^ n.pfx :=
    Nat.div_lt_of_lt_mul (by rw [Nat.mul_comm, htotal]; exact hn.lt)
  calc n.network + n.size = (n.network / n.size + 1) * n.size := by
        rw [Nat.add_mul, hn.aligned, Nat.one_mul]
    _ ≤ 2 ^ n.pfx * n.size := Nat.mul_le_mul_right _ hquotient
    _ = 2 ^ 32 := htotal

theorem contains_next (hn : n.Formed) (hsize : 1 < n.size) : n.contains (n.network + 1) = true := by
  have hend := end_le hn
  rw [contains_iff hn (by omega)]
  conv_lhs => rw [← hn.aligned]
  rw [Nat.add_comm, Nat.add_mul_div_right _ _ size_pos, Nat.div_eq_of_lt hsize, Nat.zero_add]

/-- The gateway that a network gets of itself is a host's exactly when the network has room for
hosts. -/
theorem usable_first_iff (hn : n.Formed) : n.Usable (n.nth 1) ↔ n.pfx ≤ 30 := by
  have hbroadcast := broadcast_eq hn
  have hend := end_le hn
  unfold Usable nth
  constructor
  · rintro ⟨hin, hne, hne'⟩
    by_contra hpfx
    have hpfx32 := hn.pfx
    rcases (by omega : n.pfx = 31 ∨ n.pfx = 32) with h31 | h32
    · have hsize : n.size = 2 := by simp [size, h31]
      omega
    · have hsize : n.size = 1 := by simp [size, h32]
      rcases Nat.lt_or_ge (n.network + 1) (2 ^ 32) with hlt | hge
      · rw [Nat.min_eq_left (by omega), contains_iff hn hlt, hsize] at hin
        omega
      · omega
  · intro hpfx
    have hsize : 4 ≤ n.size :=
      (show 4 = 2 ^ 2 from rfl).trans_le (Nat.pow_le_pow_right (by decide) (by omega))
    rw [Nat.min_eq_left (by omega)]
    exact ⟨contains_next hn (by omega), by omega, by omega⟩

end Ipv4Net

end Pertisk.Net
