import Mathlib.Data.List.Infix
import Pertisk.Types

namespace Pertisk.PeerUrl

/-- Unicode `White_Space`, which `str::trim` removes. -/
def isWhiteSpace (c : Char) : Bool :=
  let n := c.toNat
  (9 ≤ n && n ≤ 13) || n = 32 || n = 0x85 || n = 0xA0 || n = 0x1680 ||
    (0x2000 ≤ n && n ≤ 0x200A) || n = 0x2028 || n = 0x2029 || n = 0x202F || n = 0x205F ||
    n = 0x3000

def trimEnd (p : Char → Bool) (s : List Char) : List Char := (s.reverse.dropWhile p).reverse

def trim (s : List Char) : List Char := trimEnd isWhiteSpace (s.dropWhile isWhiteSpace)

theorem prefix_trimEnd (p : Char → Bool) (s : List Char) : trimEnd p s <+: s := by
  have hsuffix := List.dropWhile_suffix p (l := s.reverse)
  have hrev := List.reverse_prefix.mpr hsuffix
  rwa [List.reverse_reverse] at hrev

/-- What a run through the characters shows. -/
theorem forall_of_all {p : Char → Prop} [DecidablePred p] {s : List Char}
    (h : s.all (fun c => decide (p c)) = true) : ∀ c ∈ s, p c :=
  fun c hc => of_decide_eq_true (List.all_eq_true.mp h c hc)

theorem dropWhile_eq_self {p : Char → Bool} {s : List Char} (h : ∀ c ∈ s.head?, p c = false) :
    s.dropWhile p = s := by
  cases s with
  | nil => rfl
  | cons c s => exact List.dropWhile_cons_of_neg (by simp [h c (by simp)])

theorem trim_eq_self {s : List Char} (hfirst : ∀ c ∈ s.head?, isWhiteSpace c = false)
    (hlast : ∀ c ∈ s.getLast?, isWhiteSpace c = false) : trim s = s := by
  have hrev : ∀ c ∈ s.reverse.head?, isWhiteSpace c = false := by
    rwa [List.head?_reverse]
  rw [trim, dropWhile_eq_self hfirst, trimEnd, dropWhile_eq_self hrev, List.reverse_reverse]

theorem not_whiteSpace_of_isDigit {c : Char} (h : c.isDigit = true) : isWhiteSpace c = false := by
  have hnat : c.toNat = c.val.toNat := rfl
  simp only [Char.isDigit, Bool.and_eq_true, decide_eq_true_eq, ge_iff_le,
    UInt32.le_iff_toNat_le] at h
  have hlow : 48 ≤ c.toNat := h.1
  have hhigh : c.toNat ≤ 57 := h.2
  simp only [isWhiteSpace, Bool.or_eq_false_iff, Bool.and_eq_false_iff, decide_eq_false_iff_not]
  omega

def contains (s : List Char) (text : String) : Bool := s.tails.any (text.toList.isPrefixOf ·)

def startsWith (s : List Char) (text : String) : Bool := text.toList.isPrefixOf s

def stripPrefix (s : List Char) (text : String) : Option (List Char) :=
  if startsWith s text then some (s.drop text.toList.length) else none

/-- Split at the last occurrence of `c`. -/
def rsplitOnce (s : List Char) (c : Char) : Option (List Char × List Char) :=
  if c ∈ s then
    let after := (s.reverse.takeWhile (· ≠ c)).reverse
    some (s.take (s.length - after.length - 1), after)
  else none

theorem rsplitOnce_of_notMem {s : List Char} {c : Char} (h : c ∉ s) : rsplitOnce s c = none := if_neg h

theorem rsplitOnce_append {c : Char} {after : List Char} (before : List Char) (h : c ∉ after) :
    rsplitOnce (before ++ c :: after) c = some (before, after) := by
  have hafter : ((before ++ c :: after).reverse.takeWhile (· ≠ c)) = after.reverse := by
    have hall : ∀ x ∈ after.reverse, decide (x ≠ c) = true := by
      intro x hx
      rw [decide_eq_true_iff]
      rintro rfl
      exact h (List.mem_reverse.mp hx)
    rw [List.reverse_append, List.reverse_cons, List.append_assoc,
      List.takeWhile_append_of_pos hall]
    simp
  have hlen : (before ++ c :: after).length - after.length - 1 = before.length := by
    rw [List.length_append, List.length_cons]
    omega
  unfold rsplitOnce
  rw [if_pos (by simp), hafter]
  dsimp only
  rw [List.reverse_reverse, hlen, List.take_left]

def isLoopbackPeerUrl (url : List Char) : Bool :=
  let lower := (trim url).map Char.toLower
  contains lower "127.0.0.1" || contains lower "localhost" || contains lower "[::1]" ||
    contains lower "://[::1]" || contains lower "0.0.0.0"

def peerUrlHost (url : List Char) : Option (List Char) := do
  let cut := trimEnd (· = '/') (trim url)
  let rest ← (stripPrefix cut "https://").or (stripPrefix cut "http://")
  let hostport := rest.takeWhile (· ≠ '/')
  match hostport with
  | '[' :: host => return host.takeWhile (· ≠ ']')
  | _ =>
    match rsplitOnce hostport ':' with
    | some (host, port) =>
      if !host.isEmpty && port.all Char.isDigit then return host else return hostport
    | none => return hostport

/-- Keep a reachable LAN/HTTPS URL when a peer still advertises loopback or plain HTTP. -/
def preferPeerUrl (existing incoming : String) : String :=
  let old := trim existing.toList
  let new := trim incoming.toList
  if new.isEmpty then String.ofList old
  else if old.isEmpty then String.ofList new
  else if isLoopbackPeerUrl new && !isLoopbackPeerUrl old then String.ofList old
  -- Join UI and heartbeats often use HTTPS; an HTTP advertisement does not clobber it.
  else if startsWith new "http://" && startsWith old "https://" &&
      decide (peerUrlHost old = peerUrlHost new) then String.ofList old
  else String.ofList new

example : preferPeerUrl "https://10.0.0.2:7443" "http://10.0.0.2:7480" =
    "https://10.0.0.2:7443" := by decide

end Pertisk.PeerUrl
