import Mathlib.Data.Nat.Digits.Defs
import Mathlib.Logic.Function.Iterate
import Pertisk.Lib.Calls
import Pertisk.Types

namespace Pertisk.Net
open Lib

inductive NetworkMode
  | nat
  | bridge
  deriving DecidableEq, Repr

structure NetworkRecord where
  id : Uuid
  name : String
  cidr : String
  gateway : Option String := none
  dhcp : Bool := true
  mode : NetworkMode := .nat
  deriving Repr

def invalid (message : String) : String := s!"invalid network: {message}"

def withoutPlus : List Char → List Char
  | [] => []
  | c :: cs => if c = '+' then cs else c :: cs

/-- `u8`'s `FromStr`, which takes a plus sign before the digits. -/
def parseU8 (cs : List Char) : Option ℕ :=
  let digits := withoutPlus cs
  if digits ≠ [] ∧ digits.all Char.isDigit ∧ Nat.ofDigitChars 10 digits 0 < 256 then
    some (Nat.ofDigitChars 10 digits 0)
  else none

def parseIpv4 (s : String) : Except String ℕ :=
  match (s.toList.splitOn '.').map parseU8 with
  | [some a, some b, some c, some d] => .ok (((a * 256 + b) * 256 + c) * 256 + d)
  | _ => .error (invalid s!"invalid ipv4 {s}")

def ipv4String (ip : ℕ) : String :=
  s!"{ip / 2 ^ 24 % 256}.{ip / 2 ^ 16 % 256}.{ip / 2 ^ 8 % 256}.{ip % 256}"

structure Ipv4Net where
  network : ℕ
  pfx : ℕ
  deriving DecidableEq, Repr

namespace Ipv4Net

def mask (n : Ipv4Net) : ℕ := 2 ^ 32 - 2 ^ (32 - n.pfx)

def contains (n : Ipv4Net) (ip : ℕ) : Bool := ip &&& n.mask == n.network

def nth (n : Ipv4Net) (k : ℕ) : ℕ := min (n.network + k) (2 ^ 32 - 1)

def broadcast (n : Ipv4Net) : ℕ := n.network ||| (2 ^ 32 - 1 - n.mask)

def toCidrString (n : Ipv4Net) : String := s!"{ipv4String n.network}/{n.pfx}"

def parse (s : String) : Except String Ipv4Net :=
  match s.toList.span (· ≠ '/') with
  | (addr, '/' :: rest) =>
    match parseU8 rest with
    | none => .error (invalid s!"invalid prefix in {s}")
    | some pfx =>
      if 32 < pfx then .error (invalid "prefix must be 0..=32")
      else do
        let ip ← parseIpv4 (String.ofList addr)
        let net : Ipv4Net := { network := 0, pfx := pfx }
        return { net with network := ip &&& net.mask }
  | _ => .error (invalid s!"cidr must look like 10.88.0.0/24, got {s}")

/-- The first address from the second on that is free; the last is the broadcast's. -/
def allocate (n : Ipv4Net) (gateway : Option String) (used : List String) : Except String ℕ := do
  let gw ← gateway.mapM parseIpv4
  let start := n.nth 2
  let last := n.broadcast - 1
  let used := used.filterMap (fun s => (parseIpv4 s).toOption)
  match (List.range' start (last + 1 - start)).find? (fun ip => gw ≠ some ip ∧ ip ∉ used) with
  | some ip => return ip
  | none => .error s!"address pool exhausted for {n.toCidrString}"

end Ipv4Net

def validIfname (name : String) : Bool :=
  name ≠ "" && name.length ≤ 15 &&
    name.toList.all (fun c => c.isAlphanum || c == '_' || c == '-')

def tapName (vmId : VmId) (nicIndex : ℕ) : String :=
  let hex := String.ofList ((vmId.text.toList.filter (· ≠ '-')).take 8)
  s!"p{hex}{nicIndex}"

/-- Big-endian; a number has eight zero bytes before it. -/
def asBytes (id : VmId) (i : ℕ) : ℕ :=
  match id with
  | .numeric n => n / 256 ^ (15 - i) % 256
  | .legacy n => n / 256 ^ (15 - i) % 256

def hexByte (n : ℕ) : String := String.ofList [(n / 16).digitChar, (n % 16).digitChar]

def macText (a b c : ℕ) : String := s!"52:54:00:{hexByte a}:{hexByte b}:{hexByte c}"

/-- The bytes of the salt at each third place, folded into one. -/
def foldSalt (salt : List ℕ) (i : ℕ) : ℕ :=
  ((salt.zipIdx.filter (fun entry => entry.2 % 3 = i)).map Prod.fst).foldl (· ^^^ ·) 0

def guestMacSalted (vmId : VmId) (nicIndex : ℕ) (salt : List ℕ) : String :=
  macText (asBytes vmId 13 ^^^ foldSalt salt 0) (asBytes vmId 14 ^^^ foldSalt salt 1)
    (asBytes vmId 15 ^^^ nicIndex ^^^ foldSalt salt 2)

def isHexdigit (c : Char) : Bool :=
  c.isDigit || ('a' ≤ c && c ≤ 'f') || ('A' ≤ c && c ≤ 'F')

def hexDigits (s : String) : List Char := s.toList.filter isHexdigit

/-- Lowercase, in pairs; text without twelve digits is no address. -/
def normalizeMac (mac : String) : Option String :=
  let hex := (hexDigits mac).map Char.toLower
  if hex.length ≠ 12 then none
  else some (String.ofList ([':'].intercalate (hex.toChunks 2)))

def hexValue (c : Char) : ℕ :=
  if c.isDigit then c.toNat - 48 else c.toLower.toNat - 87

def bumpQemuMac (mac : String) : String :=
  let bytes := ((hexDigits mac).toChunks 2).map (fun chunk =>
    chunk.foldl (fun n c => 16 * n + hexValue c) 0)
  let byte (i : ℕ) : ℕ := bytes[i]?.getD 0
  let tail := (byte 3 * 2 ^ 16 + byte 4 * 2 ^ 8 + byte 5 + 1) % 2 ^ 24
  macText (tail / 2 ^ 16 % 256) (tail / 2 ^ 8 % 256) (tail % 256)

def macKey (mac : String) : String := (normalizeMac mac).getD mac

/-- The search for a free address, as far as it goes. -/
def searchMac (used : List String) : ℕ → String → String
  | 0, mac => mac
  | tries + 1, mac => if macKey mac ∈ used then searchMac used tries (bumpQemuMac mac) else mac

def macTries : ℕ := 2 ^ 20

def uniqueGuestMac (vmId : VmId) (nicIndex : ℕ) (usedMacs : List String) (salt : List ℕ) : String :=
  searchMac (usedMacs.filterMap normalizeMac) macTries (guestMacSalted vmId nicIndex salt)

/-- None of the addresses that the search tries is free. -/
def Crowded (vmId : VmId) (nicIndex : ℕ) (usedMacs : List String) (salt : List ℕ) : Prop :=
  ∀ k < macTries, macKey (bumpQemuMac^[k] (guestMacSalted vmId nicIndex salt)) ∈
    usedMacs.filterMap normalizeMac

theorem searchMac_free {used : List String} {tries : ℕ} {mac : String}
    (h : ¬ ∀ k < tries, macKey (bumpQemuMac^[k] mac) ∈ used) :
    macKey (searchMac used tries mac) ∉ used := by
  induction tries generalizing mac with
  | zero => exact absurd (fun k hk => absurd hk (Nat.not_lt_zero k)) h
  | succ tries ih =>
    unfold searchMac
    split
    · rename_i hmac
      refine ih (fun hall => h (fun k hk => ?_))
      cases k with
      | zero => exact hmac
      | succ k => exact hall k (Nat.lt_of_succ_lt_succ hk)
    · assumption

/-- The address that a search finds is none of those that it was given. -/
theorem uniqueGuestMac_ne {vmId : VmId} {i : ℕ} {used : List String} {salt : List ℕ} {mac key : String}
    (h : ¬ Crowded vmId i used salt) (hmac : mac ∈ used) (hkey : normalizeMac mac = some key) :
    normalizeMac (uniqueGuestMac vmId i used salt) ≠ some key := by
  intro hnew
  refine searchMac_free h ?_
  have hthis : macKey (uniqueGuestMac vmId i used salt) = key := by rw [macKey, hnew, Option.getD_some]
  rw [uniqueGuestMac] at hthis
  rw [hthis]
  exact List.mem_filterMap.mpr ⟨mac, hmac, hkey⟩

theorem toList_digits (n : ℕ) : (toString n).toList = Nat.toDigits 10 n := by
  rw [Nat.toString_eq_repr, Nat.toList_repr]

theorem isDigit_digits {n : ℕ} {c : Char} (h : c ∈ (toString n).toList) : c.isDigit = true := by
  rw [toList_digits] at h
  exact Nat.isDigit_of_mem_toDigits (by decide) (by decide) h

theorem withoutPlus_digits (n : ℕ) : withoutPlus (toString n).toList = (toString n).toList := by
  cases h : (toString n).toList with
  | nil => rfl
  | cons c cs =>
    have hc : c.isDigit = true := isDigit_digits (h ▸ List.mem_cons_self)
    refine if_neg ?_
    rintro rfl
    exact absurd hc (by decide)

theorem parseU8_digits {n : ℕ} (h : n < 256) : parseU8 (toString n).toList = some n := by
  have hvalue : Nat.ofDigitChars 10 (toString n).toList 0 = n := by
    rw [toList_digits, Nat.ofDigitChars_ten_toDigits]
  have hne : (toString n).toList ≠ [] := by
    rw [toList_digits]
    exact Nat.toDigits_ne_nil
  have hall : (toString n).toList.all Char.isDigit = true :=
    List.all_eq_true.mpr (fun c hc => isDigit_digits hc)
  simp only [parseU8, withoutPlus_digits, hvalue]
  exact if_pos ⟨hne, hall, h⟩

theorem dot_not_digit (n : ℕ) : '.' ∉ (toString n).toList :=
  fun h => absurd (isDigit_digits h) (by decide)

/-- An address is read back from its text. -/
theorem parseIpv4_ipv4String {ip : ℕ} (h : ip < 2 ^ 32) : parseIpv4 (ipv4String ip) = .ok ip := by
  have hparts : (ipv4String ip).toList.splitOn '.' = [ip / 2 ^ 24 % 256, ip / 2 ^ 16 % 256,
      ip / 2 ^ 8 % 256, ip % 256].map (fun n => (toString n).toList) := by
    have htext : (ipv4String ip).toList = (toString (ip / 2 ^ 24 % 256)).toList ++ '.' ::
        ((toString (ip / 2 ^ 16 % 256)).toList ++ '.' ::
          ((toString (ip / 2 ^ 8 % 256)).toList ++ '.' :: (toString (ip % 256)).toList)) := by
      have hdot : (toString ".").toList = ['.'] := rfl
      simp [ipv4String, String.toList_append, hdot]
    rw [htext, List.splitOn_append_cons_self_of_not_mem (dot_not_digit _),
      List.splitOn_append_cons_self_of_not_mem (dot_not_digit _),
      List.splitOn_append_cons_self_of_not_mem (dot_not_digit _),
      List.splitOn_eq_singleton (dot_not_digit _)]
    rfl
  have hbyte (n : ℕ) : n % 256 < 256 := Nat.mod_lt n (by decide)
  simp only [parseIpv4, hparts, List.map_cons, List.map_nil, parseU8_digits (hbyte _)]
  exact congrArg Except.ok (by omega)

namespace Ipv4Net

theorem mask_lt (n : Ipv4Net) : n.mask < 2 ^ 32 :=
  Nat.sub_lt (by decide) (Nat.two_pow_pos _)

theorem parse_lt {s : String} {n : Ipv4Net} (h : parse s = .ok n) : n.network < 2 ^ 32 := by
  unfold parse at h
  split at h
  · split at h
    · cases h
    · split at h
      · cases h
      · obtain ⟨ip, -, h⟩ := bind_ok h
        cases h
        exact Nat.lt_of_le_of_lt Nat.and_le_right (mask_lt _)
  · cases h

theorem allocate_free {n : Ipv4Net} {gateway : Option String} {used : List String} {ip : ℕ}
    (hn : n.network < 2 ^ 32) (h : n.allocate gateway used = .ok ip) :
    ip < 2 ^ 32 ∧ ∀ s ∈ used, parseIpv4 s ≠ .ok ip := by
  obtain ⟨gw, -, h⟩ := bind_ok h
  dsimp only at h
  split at h
  · rename_i found hfound
    cases h
    have hboth := List.find?_some hfound
    rw [decide_eq_true_eq] at hboth
    obtain ⟨-, hfree⟩ := hboth
    have hin := List.mem_range'_1.mp (List.mem_of_find?_eq_some hfound)
    have hlast : n.broadcast < 2 ^ 32 :=
      Nat.or_lt_two_pow hn (Nat.lt_of_le_of_lt (Nat.sub_le _ _) (by decide))
    refine ⟨by omega, fun s hs hparse => hfree ?_⟩
    exact List.mem_filterMap.mpr ⟨s, hs, by rw [hparse]; rfl⟩
  · cases h

end Ipv4Net

end Pertisk.Net
