import Mathlib.Data.List.SplitBy
import Pertisk.Net.Addresses
import Pertisk.Text

namespace Pertisk.SerialLog
open Lib PeerUrl Net

/-- One of the four numbers of an IPv4 address; a zero in front is not taken. -/
def octet (s : List Char) : Option ℕ :=
  if s ≠ [] ∧ s.length ≤ 3 ∧ s.all Char.isDigit = true ∧ (s.length = 1 ∨ s.head? ≠ some '0') then
    let n := Nat.ofDigitChars 10 s 0
    if n < 256 then some n else none
  else none

/-- `str::parse::<Ipv4Addr>`, as the four numbers. -/
def parseIpv4 (s : List Char) : Option (List ℕ) :=
  let parts := s.splitOn '.'
  if parts.length = 4 ∧ parts.all (fun p => (octet p).isSome) = true then
    some (parts.filterMap octet)
  else none

def hexGroup (s : List Char) : Option ℕ :=
  if s ≠ [] ∧ s.length ≤ 4 ∧ s.all isHexdigit = true then
    some (s.foldl (fun n c => 16 * n + hexValue c) 0)
  else none

/-- An IPv4 address may stand for the last two groups. -/
def lastGroups (s : List Char) : Option (List ℕ) :=
  match hexGroup s with
  | some g => some [g]
  | none =>
    match parseIpv4 s with
    | some [a, b, c, d] => some [256 * a + b, 256 * c + d]
    | _ => none

/-- The groups between colons; `tail` when they end the address. -/
def groups (tail : Bool) (s : List Char) : Option (List ℕ) :=
  if s = [] then some []
  else
    let parts := s.splitOn ':'
    let last := parts.getLast?.getD []
    if parts.dropLast.all (fun p => (hexGroup p).isSome) = true then
      (if tail then lastGroups last else (hexGroup last).map (fun g => [g])).map
        (fun g => parts.dropLast.filterMap hexGroup ++ g)
    else none

/-- Split at the first two colons. -/
def cutDouble : List Char → Option (List Char × List Char)
  | ':' :: ':' :: s => some ([], s)
  | c :: s => (cutDouble s).map (fun p => (c :: p.1, p.2))
  | [] => none

/-- `str::parse::<Ipv6Addr>`, as the eight groups. -/
def parseIpv6 (s : List Char) : Option (List ℕ) :=
  match cutDouble s with
  | none => (groups true s).filter (fun g => g.length = 8)
  | some (front, back) =>
    match groups false front, groups true back with
    | some a, some b =>
      if a.length + b.length ≤ 7 then
        some (a ++ List.replicate (8 - (a.length + b.length)) 0 ++ b)
      else none
    | _, _ => none

def usableIpv4 (o : List ℕ) : Bool :=
  o.head? != some 127 && o != [0, 0, 0, 0] && o.take 2 != [169, 254] &&
    !o.head?.any (fun a => decide (224 ≤ a ∧ a < 240)) && o != [255, 255, 255, 255]

/-- Netmasks, multicast and reserved addresses are no guest's. -/
def isGuestIpv4 (s : List Char) : Bool :=
  (parseIpv4 (trim s)).any (fun o => usableIpv4 o && o.head?.any (fun a => decide (a < 224)) &&
    o.head? != some 255)

def usableIpv6 (g : List ℕ) : Bool :=
  g != [0, 0, 0, 0, 0, 0, 0, 1] && g != List.replicate 8 0 &&
    !g.head?.any (fun a => a / 256 == 0xff || a / 64 == 0x3fa)

/-- Unique-local addresses come after public ones. -/
def ipv6Rank (g : List ℕ) : ℕ := if g.head?.any (fun a => a / 512 == 0x7e) then 1 else 0

def pickIpv6 (best : Option (ℕ × List Char)) (value : List Char) : Option (ℕ × List Char) :=
  match parseIpv6 (trim value) with
  | none => best
  | some g =>
    if usableIpv6 g && best.all (fun b => decide (ipv6Rank g < b.1)) then
      some (ipv6Rank g, trim value)
    else best

def preferIpv6 (addrs : List (List Char)) : Option (List Char) :=
  (addrs.foldl pickIpv6 none).map Prod.snd

example : parseIpv6 "2405:9800::5054:ff:fe79:37ca".toList =
    some [0x2405, 0x9800, 0, 0, 0x5054, 0xff, 0xfe79, 0x37ca] := by decide

/-! ### The characters of an address -/

/-- The characters that an address is written with. -/
def isAddrChar (c : Char) : Bool := isHexdigit c || c == ':' || c == '.'

/-- What a parser of addresses has taken. -/
structure AddrText (s : List Char) : Prop where
  nonempty : s ≠ []
  chars : ∀ c ∈ s, isAddrChar c = true

variable {s r : List Char} {c sep : Char} {g : List ℕ}

theorem octet_chars (h : (octet s).isSome = true) : ∀ c ∈ s, isAddrChar c = true := by
  unfold octet at h
  split at h
  · rename_i hform
    intro c hc
    have hdigit := List.all_eq_true.mp hform.2.2.1 c hc
    simp [isAddrChar, isHexdigit, hdigit]
  · cases h

theorem parseIpv4_chars (h : (parseIpv4 s).isSome = true) : AddrText s := by
  unfold parseIpv4 at h
  dsimp only at h
  split at h
  · rename_i hform
    refine ⟨?_, fun c hc => ?_⟩
    · rintro rfl
      exact absurd hform.1 (by decide)
    · rcases mem_splitOn '.' hc with rfl | ⟨p, hp, hcp⟩
      · rfl
      · exact octet_chars (List.all_eq_true.mp hform.2 p hp) c hcp
  · cases h

theorem hexGroup_chars (h : (hexGroup s).isSome = true) : ∀ c ∈ s, isAddrChar c = true := by
  unfold hexGroup at h
  split at h
  · rename_i hform
    intro c hc
    have hhex := List.all_eq_true.mp hform.2.2 c hc
    simp [isAddrChar, hhex]
  · cases h

theorem lastGroups_chars (h : (lastGroups s).isSome = true) : ∀ c ∈ s, isAddrChar c = true := by
  unfold lastGroups at h
  cases hhex : hexGroup s with
  | some g => exact hexGroup_chars (by rw [hhex]; rfl)
  | none =>
    rw [hhex] at h
    cases hv4 : parseIpv4 s with
    | some o => exact (parseIpv4_chars (by rw [hv4]; rfl)).chars
    | none =>
      rw [hv4] at h
      cases h

theorem groups_chars (tail : Bool) (h : (groups tail s).isSome = true) :
    ∀ c ∈ s, isAddrChar c = true := by
  intro c hc
  unfold groups at h
  split at h
  · rename_i hnil
    rw [hnil] at hc
    cases hc
  · dsimp only at h
    split at h
    · rename_i hfront
      rcases mem_splitOn ':' hc with rfl | ⟨p, hp, hcp⟩
      · rfl
      · obtain ⟨front, last, hparts⟩ : ∃ front last, s.splitOn ':' = front ++ [last] := by
          refine ⟨_, _, (List.dropLast_append_getLast ?_).symm⟩
          exact List.splitOnP_ne_nil _ _
        rw [hparts, List.dropLast_concat] at hfront
        rw [hparts, List.dropLast_concat, List.getLast?_concat, Option.getD_some,
          Option.isSome_map] at h
        rw [hparts] at hp
        rcases List.mem_append.mp hp with hp | hp
        · exact hexGroup_chars (List.all_eq_true.mp hfront p hp) c hcp
        · rw [List.mem_singleton.mp hp] at hcp
          cases tail with
          | true => exact lastGroups_chars h c hcp
          | false => exact hexGroup_chars (by simpa using h) c hcp
    · cases h

theorem cutDouble_eq {front back : List Char} (h : cutDouble s = some (front, back)) :
    s = front ++ ':' :: ':' :: back := by
  induction s using cutDouble.induct generalizing front with
  | case1 s =>
    cases h
    rfl
  | case2 c s hcase ih =>
    rw [cutDouble] at h
    · obtain ⟨⟨front', back'⟩, hcut, heq⟩ := Option.map_eq_some_iff.mp h
      cases heq
      rw [ih hcut]
      rfl
    · exact hcase
  | case3 => cases h

theorem parseIpv6_chars (h : parseIpv6 s = some g) : AddrText s := by
  unfold parseIpv6 at h
  cases hcut : cutDouble s with
  | none =>
    rw [hcut] at h
    obtain ⟨hgroups, hlen⟩ := Option.filter_eq_some_iff.mp h
    refine ⟨?_, groups_chars true (by rw [hgroups]; rfl)⟩
    rintro rfl
    have hnil : g = [] := (Option.some.inj hgroups).symm
    rw [hnil] at hlen
    exact absurd hlen (by decide)
  | some p =>
    obtain ⟨front, back⟩ := p
    rw [hcut] at h
    rw [cutDouble_eq hcut]
    refine ⟨List.append_ne_nil_of_right_ne_nil _ (List.cons_ne_nil _ _), fun c hc => ?_⟩
    cases hfront : groups false front with
    | none => simp [hfront] at h
    | some a =>
      cases hback : groups true back with
      | none => simp [hfront, hback] at h
      | some b =>
        rcases List.mem_append.mp hc with hc | hc
        · exact groups_chars false (by rw [hfront]; rfl) c hc
        · rcases List.mem_cons.mp hc with rfl | hc
          · rfl
          · rcases List.mem_cons.mp hc with rfl | hc
            · rfl
            · exact groups_chars true (by rw [hback]; rfl) c hc

theorem isGuestIpv4_chars (h : isGuestIpv4 s = true) : AddrText (trim s) := by
  refine parseIpv4_chars ?_
  unfold isGuestIpv4 at h
  cases hparse : parseIpv4 (trim s) with
  | none =>
    rw [hparse] at h
    cases h
  | some o => rfl

/-- The preferred address is one of those given, without the white space around it. -/
theorem preferIpv6_mem {addrs : List (List Char)} (h : preferIpv6 addrs = some r) :
    AddrText r ∧ ∃ v ∈ addrs, r = trim v := by
  obtain ⟨⟨rank, r'⟩, hfold, rfl⟩ := Option.map_eq_some_iff.mp h
  suffices hall : ∀ best : Option (ℕ × List Char),
      (∀ b ∈ best, AddrText b.2 ∧ ∃ v ∈ addrs, b.2 = trim v) →
      ∀ vs : List (List Char), (∀ v ∈ vs, v ∈ addrs) → ∀ b ∈ vs.foldl pickIpv6 best,
        AddrText b.2 ∧ ∃ v ∈ addrs, b.2 = trim v from
    hall none nofun addrs (fun _ hv => hv) _ hfold
  intro best hbest vs
  induction vs generalizing best with
  | nil => exact fun _ => hbest
  | cons v vs ih =>
    intro hvs
    rw [List.foldl_cons]
    refine ih _ (fun b hb => ?_) fun w hw => hvs w (List.mem_cons_of_mem _ hw)
    unfold pickIpv6 at hb
    cases hparse : parseIpv6 (trim v) with
    | none =>
      rw [hparse] at hb
      exact hbest b hb
    | some g =>
      simp only [hparse] at hb
      split at hb
      · obtain rfl := Option.some.inj hb
        exact ⟨parseIpv6_chars hparse, v, hvs v List.mem_cons_self, rfl⟩
      · exact hbest b hb

end Pertisk.SerialLog
