import Mathlib.Data.Nat.Find
import Mathlib.Order.Bounds.Basic
import Pertisk.Net.Nics
import Pertisk.Net.Ranges

namespace Pertisk.Net
open Lib

namespace Ipv4Net

/-- The addresses of a network, by where it begins and how many there are. -/
def Has (n : Ipv4Net) (ip : ℕ) : Prop := n.network ≤ ip ∧ ip < n.network + n.size

variable {a b n : Ipv4Net} {ip : ℕ} {s t : String}

theorem Has.lt (hn : n.Formed) (h : n.Has ip) : ip < 2 ^ 32 := h.2.trans_le (end_le hn)

/-- The mask has a one for each bit of the prefix: nothing is left of it at 0 and it has all at 32. -/
theorem mask_shift {pfx : ℕ} (h : pfx ≤ 32) : mask ⟨0, pfx⟩ =
    if pfx = 0 then 0 else (BitVec.allOnes 32 <<< (32 - pfx)).toNat := by
  have hall : ∀ k < 33, mask ⟨0, k⟩ =
      if k = 0 then 0 else (BitVec.allOnes 32 <<< (32 - k)).toNat := by decide
  exact hall pfx (Nat.lt_succ_of_le h)

theorem contains_iff_has (hn : n.Formed) (h : ip < 2 ^ 32) : n.contains ip = true ↔ n.Has ip := by
  rw [contains_iff hn h]
  unfold Has
  have hdiv := Nat.div_add_mod' ip n.size
  have hmod := Nat.mod_lt ip (size_pos (n := n))
  constructor
  · intro heq
    rw [heq, hn.aligned] at hdiv
    omega
  · rintro ⟨hle, hlt⟩
    rw [← hn.aligned] at hle hlt
    refine Nat.div_eq_of_lt_le hle ?_
    rw [Nat.succ_mul]
    exact hlt

/-- What is read from two texts overlaps exactly when it has an address in common; and a network is
read back from its own text, and begins at a multiple of its size. -/
theorem overlap_exact (ha : parse s = .ok a) (hb : parse t = .ok b) :
    (a.overlaps b = true ↔ ∃ ip, a.Has ip ∧ b.Has ip) ∧
      parse a.toCidrString = .ok a ∧ a.network % a.size = 0 := by
  have hfa := parse_formed ha
  have hfb := parse_formed hb
  refine ⟨?_, parse_toCidrString hfa, ?_⟩
  · rw [overlaps_iff hfa hfb]
    constructor
    · rintro ⟨ip, hip, hin, hin'⟩
      exact ⟨ip, (contains_iff_has hfa hip).mp hin, (contains_iff_has hfb hip).mp hin'⟩
    · rintro ⟨ip, hin, hin'⟩
      have hip := hin.lt hfa
      exact ⟨ip, hip, (contains_iff_has hfa hip).mpr hin, (contains_iff_has hfb hip).mpr hin'⟩
  · rw [← hfa.aligned]
    exact Nat.mul_mod_left _ _

theorem overlap_exact_lan :
    (Ipv4Net.overlaps ⟨167837952, 24⟩ ⟨167837696, 16⟩ = true ↔
        ∃ ip, Ipv4Net.Has ⟨167837952, 24⟩ ip ∧ Ipv4Net.Has ⟨167837696, 16⟩ ip) ∧
      parse (toCidrString ⟨167837952, 24⟩) = .ok ⟨167837952, 24⟩ ∧
        167837952 % size ⟨167837952, 24⟩ = 0 :=
  overlap_exact (s := "10.1.1.0/24") (t := "10.1.0.0/16") (by decide +kernel) (by decide +kernel)

/-- How a search of `u32`s ends, or that it has not. -/
inductive Search
  | done (result : Except String ℕ)
  | overflow
  | unfinished

/-- The `while` of `allocate`, for so many turns. -/
def search (cidr : String) (gw : Option ℕ) (used : List ℕ) (last : ℕ) : ℕ → ℕ → Search
  | 0, _ => .unfinished
  | fuel + 1, ip =>
    if last < ip then .done (.error s!"address pool exhausted for {cidr}")
    else if gw ≠ some ip ∧ ip ∉ used then .done (.ok ip)
    else if 2 ^ 32 ≤ ip + 1 then .overflow
    else search cidr gw used last fuel (ip + 1)

/-- `allocate` of a subnet's text, with its loop. -/
def allocateLoop (fuel : ℕ) (cidr : String) (gateway : Option String) (used : List String) :
    Search :=
  match parse cidr, gateway.mapM parseIpv4 with
  | .error text, _ => .done (.error text)
  | .ok _, .error text => .done (.error text)
  | .ok n, .ok gw =>
    let start := n.nth 2
    let last := n.broadcast - 1
    if last < start then .done (.error s!"address pool exhausted for {n.toCidrString}")
    else
      search n.toCidrString gw (used.filterMap (fun s => (parseIpv4 s).toOption)) last fuel start

/-- An address that may be given out: the first two of the network and the last are not. -/
def Free (n : Ipv4Net) (gw : Option ℕ) (used : List String) (ip : ℕ) : Prop :=
  n.network + 2 ≤ ip ∧ ip + 1 < n.network + n.size ∧ gw ≠ some ip ∧ ∀ s ∈ used, parseIpv4 s ≠ .ok ip

section
variable {gw : Option ℕ} {used : List String} {gateway : Option String}

/-- The loop looks at one address after the other, and stops before the numbers end. -/
theorem search_eq {cidr : String} {taken : List ℕ} {last fuel : ℕ} (hlast : last + 1 < 2 ^ 32)
    (hip : ip ≤ last + 1) (hfuel : last + 1 < ip + fuel) :
    search cidr gw taken last fuel ip = .done
      (match (List.range' ip (last + 1 - ip)).find? (fun ip => gw ≠ some ip ∧ ip ∉ taken) with
        | some ip => .ok ip
        | none => .error s!"address pool exhausted for {cidr}") := by
  induction fuel generalizing ip with
  | zero => omega
  | succ fuel ih =>
    unfold search
    by_cases hdone : last < ip
    · have hnone : last + 1 - ip = 0 := by omega
      rw [if_pos hdone, hnone]
      rfl
    · have hsome : last + 1 - ip = last + 1 - (ip + 1) + 1 := by omega
      rw [if_neg hdone, hsome, List.range'_succ, List.find?_cons]
      by_cases hfree : gw ≠ some ip ∧ ip ∉ taken
      · rw [if_pos hfree, decide_eq_true hfree]
      · rw [if_neg hfree, if_neg (by omega), decide_eq_false hfree]
        exact ih (by omega) (by omega)

/-- The loop is the search that `allocate` is. -/
theorem allocateLoop_eq (cidr : String) (gateway : Option String) (used : List String) :
    ∀ fuel, 2 ^ 32 ≤ fuel → allocateLoop fuel cidr gateway used =
      .done (parse cidr >>= fun n => n.allocate gateway used) := by
  intro fuel hfuel
  unfold allocateLoop
  cases hparse : parse cidr with
  | error text => rfl
  | ok n =>
    show _ = Search.done (n.allocate gateway used)
    unfold allocate
    cases hgw : gateway.mapM parseIpv4 with
    | error text => rfl
    | ok gw =>
      have hformed := parse_formed hparse
      have hbroadcast := broadcast_eq hformed
      have hend := end_le hformed
      have hsize := size_pos (n := n)
      dsimp only [bind, Except.bind, pure, Except.pure]
      by_cases hempty : n.broadcast - 1 < n.nth 2
      · have hnone : n.broadcast - 1 + 1 - n.nth 2 = 0 := by omega
        rw [if_pos hempty, hnone]
        rfl
      · rw [if_neg hempty]
        exact search_eq (by omega) (by omega) (by omega)

/-- What is left between the first addresses and the last is what the search goes through. -/
theorem mem_range_iff (hn : n.Formed) : ip ∈ List.range' (n.nth 2) (n.broadcast - 1 + 1 - n.nth 2) ↔
    n.network + 2 ≤ ip ∧ ip + 1 < n.network + n.size := by
  have hbroadcast := broadcast_eq hn
  have hend := end_le hn
  have hsize := size_pos (n := n)
  rw [List.mem_range'_1]
  unfold nth
  omega

theorem free_iff {taken : List ℕ} (htaken : taken = used.filterMap (fun s => (parseIpv4 s).toOption))
    (hn : n.Formed) : Free n gw used ip ↔
      ip ∈ List.range' (n.nth 2) (n.broadcast - 1 + 1 - n.nth 2) ∧
        decide (gw ≠ some ip ∧ ip ∉ taken) = true := by
  have hused : ip ∉ taken ↔ ∀ s ∈ used, parseIpv4 s ≠ .ok ip := by
    rw [htaken, List.mem_filterMap]
    constructor
    · intro h s hs hparse
      exact h ⟨s, hs, by rw [hparse]; rfl⟩
    · rintro h ⟨s, hs, hparse⟩
      exact h s hs (toOption_some hparse)
  rw [mem_range_iff hn, decide_eq_true_iff, hused]
  unfold Free
  tauto

theorem allocate_ok_iff (hn : n.Formed) (hgw : gateway.mapM parseIpv4 = .ok gw) :
    n.allocate gateway used = .ok ip ↔ IsLeast { ip | Free n gw used ip } ip := by
  have hfind : n.allocate gateway used = .ok ip ↔
      (List.range' (n.nth 2) (n.broadcast - 1 + 1 - n.nth 2)).find? (fun ip => gw ≠ some ip ∧
        ip ∉ used.filterMap (fun s => (parseIpv4 s).toOption)) = some ip := by
    unfold allocate
    rw [bind_of_ok hgw]
    dsimp only
    cases (List.range' (n.nth 2) (n.broadcast - 1 + 1 - n.nth 2)).find? (fun ip => gw ≠ some ip ∧
        ip ∉ used.filterMap (fun s => (parseIpv4 s).toOption)) with
    | none => simp
    | some found => simp [pure, Except.pure]
  rw [hfind, List.find?_range'_eq_some]
  constructor
  · rintro ⟨hfree, hin, hleast⟩
    refine ⟨(free_iff rfl hn).mpr ⟨hin, hfree⟩, fun other hother => ?_⟩
    by_contra hlt
    obtain ⟨hin', hfree'⟩ := (free_iff rfl hn).mp hother
    have hnot := hleast other (List.mem_range'_1.mp hin').1 (Nat.lt_of_not_le hlt)
    rw [hfree'] at hnot
    cases hnot
  · rintro ⟨hfree, hleast⟩
    obtain ⟨hin, hfree⟩ := (free_iff rfl hn).mp hfree
    refine ⟨hfree, hin, fun other hle hlt => ?_⟩
    rw [Bool.not_eq_true', ← Bool.not_eq_true]
    intro htrue
    have hin' := List.mem_range'_1.mp hin
    have hmem : other ∈ List.range' (n.nth 2) (n.broadcast - 1 + 1 - n.nth 2) :=
      List.mem_range'_1.mpr ⟨hle, by omega⟩
    exact absurd (hleast ((free_iff rfl hn).mpr ⟨hmem, htrue⟩)) (Nat.not_le.mpr hlt)

/-- The loop ends without an overflow, with the least address that is free; and it fails exactly
when a text is no subnet's or no gateway's, or nothing is free. -/
theorem allocate_exact (cidr : String) (gateway : Option String) (used : List String) :
    ∃ result : Except String ℕ,
      (∀ fuel, 2 ^ 32 ≤ fuel → allocateLoop fuel cidr gateway used = .done result) ∧
      (∀ ip, result = .ok ip ↔ ∃ n gw, parse cidr = .ok n ∧ gateway.mapM parseIpv4 = .ok gw ∧
        IsLeast { ip | Free n gw used ip } ip) ∧
      ((∃ text, result = .error text) ↔ (∀ n, parse cidr ≠ .ok n) ∨
        (∀ gw, gateway.mapM parseIpv4 ≠ .ok gw) ∨
          ∃ n gw, parse cidr = .ok n ∧ gateway.mapM parseIpv4 = .ok gw ∧ ∀ ip, ¬ Free n gw used ip) := by
  have hok (ip : ℕ) : (parse cidr >>= fun n => n.allocate gateway used) = .ok ip ↔
      ∃ n gw, parse cidr = .ok n ∧ gateway.mapM parseIpv4 = .ok gw ∧
        IsLeast { ip | Free n gw used ip } ip := by
    rw [bind_ok_iff]
    constructor
    · rintro ⟨n, hparse, hallocate⟩
      obtain ⟨gw, hgw, -⟩ := bind_ok hallocate
      exact ⟨n, gw, hparse, hgw, (allocate_ok_iff (parse_formed hparse) hgw).mp hallocate⟩
    · rintro ⟨n, gw, hparse, hgw, hleast⟩
      exact ⟨n, hparse, (allocate_ok_iff (parse_formed hparse) hgw).mpr hleast⟩
  refine ⟨_, allocateLoop_eq cidr gateway used, hok, ?_⟩
  have herror : (∃ text, (parse cidr >>= fun n => n.allocate gateway used) = .error text) ↔
      ∀ ip, (parse cidr >>= fun n => n.allocate gateway used) ≠ .ok ip := by
    cases parse cidr >>= fun n => n.allocate gateway used <;> simp
  rw [herror]
  constructor
  · intro hnone
    cases hparse : parse cidr with
    | error text => exact .inl nofun
    | ok n =>
      cases hgw : gateway.mapM parseIpv4 with
      | error text => exact .inr (.inl nofun)
      | ok gw =>
        refine .inr (.inr ⟨n, gw, rfl, rfl, fun ip hfree => ?_⟩)
        -- of the free addresses one is the least
        classical
        have hsome : ∃ ip, Free n gw used ip := ⟨ip, hfree⟩
        exact hnone _ ((hok _).mpr ⟨n, gw, hparse, hgw, Nat.find_spec hsome,
          fun other hother => Nat.find_min' hsome hother⟩)
  · rintro (hparse | hgw | ⟨n, gw, hparse, hgw, hnone⟩) ip hsome
    · obtain ⟨n, gw, h, -⟩ := (hok ip).mp hsome
      exact hparse n h
    · obtain ⟨n, gw, -, h, -⟩ := (hok ip).mp hsome
      exact hgw gw h
    · obtain ⟨n', gw', hparse', hgw', hleast⟩ := (hok ip).mp hsome
      rw [hparse] at hparse'
      rw [hgw] at hgw'
      cases hparse'
      cases hgw'
      exact hnone ip hleast.1

end

end Ipv4Net

end Pertisk.Net
