import Mathlib.Data.List.TakeWhile
import Pertisk.Lib.Text
import Pertisk.PeerUrl

namespace Pertisk.Volume
open PeerUrl

def trimMatches (p : Char → Bool) (s : List Char) : List Char := trimEnd p (s.dropWhile p)

theorem trimMatches_of_ends {p : Char → Bool} {u m v : List Char} (hu : ∀ c ∈ u, p c = true)
    (hfirst : ∀ c ∈ m.head?, p c = false) (hlast : ∀ c ∈ m.getLast?, p c = false)
    (hv : ∀ c ∈ v, p c = true) : trimMatches p (u ++ m ++ v) = m := by
  cases m with
  | nil =>
    have hall : ∀ c ∈ u ++ [] ++ v, p c = true := by
      simp only [List.append_nil, List.mem_append]
      rintro c (h | h)
      · exact hu c h
      · exact hv c h
    have hdrop : (u ++ [] ++ v).dropWhile p = [] := List.dropWhile_eq_nil_iff.mpr hall
    rw [trimMatches, hdrop]
    rfl
  | cons c m =>
    have hrev : ∀ x ∈ (c :: m).reverse.head?, p x = false := by
      rwa [List.head?_reverse]
    have hback : ∀ x ∈ v.reverse, p x = true := fun x hx => hv x (List.mem_reverse.mp hx)
    rw [trimMatches, List.append_assoc, List.dropWhile_append_of_pos hu, List.cons_append,
      List.dropWhile_cons_of_neg (by simp [hfirst c rfl]), trimEnd, ← List.cons_append,
      List.reverse_append, List.dropWhile_append_of_pos hback, dropWhile_eq_self hrev,
      List.reverse_reverse]

theorem head_trimEnd {p : Char → Bool} {s : List Char} (h : ∀ c ∈ s.head?, p c = false) :
    ∀ c ∈ (trimEnd p s).head?, p c = false := by
  intro c hc
  obtain ⟨rest, hrest⟩ := prefix_trimEnd p s
  refine h c ?_
  rw [← hrest, List.head?_append, hc]
  rfl

/-- What is cut away on both sides, and what stands at the ends of the rest. -/
theorem trimMatches_split (p : Char → Bool) (s : List Char) :
    ∃ u v, s = u ++ trimMatches p s ++ v ∧ (∀ c ∈ u, p c = true) ∧ (∀ c ∈ v, p c = true) ∧
      (∀ c ∈ (trimMatches p s).head?, p c = false) ∧
      (∀ c ∈ (trimMatches p s).getLast?, p c = false) := by
  refine ⟨s.takeWhile p, ((s.dropWhile p).reverse.takeWhile p).reverse, ?_, ?_, ?_, ?_, ?_⟩
  · rw [trimMatches, trimEnd, List.append_assoc, ← List.reverse_append,
      List.takeWhile_append_dropWhile, List.reverse_reverse, List.takeWhile_append_dropWhile]
  · exact fun c hc => List.mem_takeWhile_imp hc
  · exact fun c hc => List.mem_takeWhile_imp (List.mem_reverse.mp hc)
  · refine head_trimEnd ?_
    intro c hc
    have := List.head?_dropWhile_not p s
    rw [Option.mem_def.mp hc] at this
    simpa using this
  · intro c hc
    rw [trimMatches, trimEnd, List.getLast?_reverse] at hc
    have := List.head?_dropWhile_not p (s.dropWhile p).reverse
    rw [Option.mem_def.mp hc] at this
    simpa using this

/-- Characters that a dataset's name keeps. -/
def datasetChar (c : Char) : Bool := c.isAlphanum || c = '_' || c = '-' || c = '.'

def sanitize (name : List Char) : List Char :=
  let token := (name.map (fun c => if datasetChar c then c else '-')).take 80
  let token := trimMatches (fun c => c = '-' || c = '.') token
  if token.isEmpty then "vol".toList else token

/-- The name that a linked clone's snapshot gets from the clone's. -/
def rbdCloneSnap (dest : String) : String :=
  let token := (dest.toList.map
    (fun c => if c.isAlphanum || c = '_' || c = '-' then c else '-')).take 40
  if token.isEmpty then "clone" else "clone-" ++ String.ofList token

/-- The ZFS backend, below the parent dataset of the configuration. -/
structure Zfs where
  parent : String

def Zfs.new (parent : Option String) : Zfs := ⟨parent.getD "tank/pertisk"⟩

def Zfs.datasetName (z : Zfs) (name : String) : String :=
  String.ofList (trimMatches (· = '/') z.parent.toList ++ '/' :: sanitize name.toList)

/-- Inventory path. Not a file on disk. -/
def Zfs.imagePath (z : Zfs) (name : String) : PathBuf := .text ("zfs:" ++ z.datasetName name)

def datasetFromPath : PathBuf → Option String
  | .text path =>
    match (stripPrefix path.toList "zfs:").map trim with
    | none | some [] => none
    | some dataset => some (String.ofList dataset)
  | _ => none

/-- The Ceph backend, with the pool of the configuration. -/
structure Rbd where
  pool : String

def Rbd.new (pool : Option String) : Rbd := ⟨pool.getD "rbd"⟩

/-- An image as the CLI takes it. -/
def Rbd.spec (r : Rbd) (name : String) : String := r.pool ++ "/" ++ name

def Rbd.imagePath (r : Rbd) (name : String) : PathBuf := .text ("rbd:" ++ r.spec name)

def specFromPath : PathBuf → Option String
  | .text path => (stripPrefix path.toList "rbd:").map String.ofList
  | _ => none

/-- No whitespace stands before the first component of the parent, as ZFS has it: the name of a
pool begins with a letter. -/
def Zfs.Proper (z : Zfs) : Prop :=
  ∀ c ∈ (trimMatches (· = '/') z.parent.toList).head?, isWhiteSpace c = false

theorem stripPrefix_append (text rest : String) :
    stripPrefix (text ++ rest).toList text = some rest.toList := by
  simp [stripPrefix, startsWith]

theorem mem_trimEnd {p : Char → Bool} {s : List Char} {c : Char} (h : c ∈ trimEnd p s) : c ∈ s := by
  have hdrop := (List.dropWhile_sublist p (l := s.reverse)).subset
  exact List.mem_reverse.mp (hdrop (List.mem_reverse.mp h))

theorem sanitize_char {name : List Char} {c : Char} (h : c ∈ sanitize name) :
    datasetChar c = true := by
  unfold sanitize at h
  dsimp only at h
  split at h
  · rw [show "vol".toList = ['v', 'o', 'l'] from rfl] at h
    simp only [List.mem_cons, List.not_mem_nil, or_false] at h
    rcases h with rfl | rfl | rfl <;> rfl
  · have htake := (List.dropWhile_sublist _).subset (mem_trimEnd h)
    obtain ⟨d, -, hd⟩ := List.mem_map.mp (List.mem_of_mem_take htake)
    split at hd <;> subst hd
    · assumption
    · rfl

theorem sanitize_ne_nil (name : List Char) : sanitize name ≠ [] := by
  unfold sanitize
  dsimp only
  split
  · decide
  · rename_i h
    simpa using h

theorem not_whiteSpace_of_datasetChar {c : Char} (h : datasetChar c = true) :
    isWhiteSpace c = false := by
  have hnat : c.toNat = c.val.toNat := rfl
  have hcases : c = '_' ∨ c = '-' ∨ c = '.' ∨ (48 ≤ c.toNat ∧ c.toNat ≤ 57) ∨
      (65 ≤ c.toNat ∧ c.toNat ≤ 90) ∨ (97 ≤ c.toNat ∧ c.toNat ≤ 122) := by
    simp only [datasetChar, Lib.isAlphanum_iff, Lib.isUpper_iff, Lib.isLower_iff, Char.isDigit,
      Bool.or_eq_true, Bool.and_eq_true, decide_eq_true_eq, ge_iff_le, Char.le_def,
      UInt32.le_iff_toNat_le] at h
    rw [hnat]
    rcases h with (((((h | h) | h) | h) | h) | h) <;> simp_all
  rcases hcases with rfl | rfl | rfl | h
  · rfl
  · rfl
  · rfl
  · simp only [isWhiteSpace, Bool.or_eq_false_iff, Bool.and_eq_false_iff, decide_eq_false_iff_not]
    omega

theorem datasetFromPath_imagePath {z : Zfs} (h : z.Proper) (name : String) :
    datasetFromPath (z.imagePath name) = some (z.datasetName name) := by
  have htrim : trim (z.datasetName name).toList = (z.datasetName name).toList := by
    refine trim_eq_self (fun c hc => ?_) (fun c hc => ?_)
    · rw [Zfs.datasetName, String.toList_ofList] at hc
      cases hp : trimMatches (· = '/') z.parent.toList with
      | nil =>
        rw [hp] at hc
        obtain rfl : '/' = c := by simpa using hc
        rfl
      | cons d ds =>
        rw [hp] at hc
        obtain rfl : d = c := by simpa using hc
        exact h d (by rw [hp]; rfl)
    · rw [Zfs.datasetName, String.toList_ofList] at hc
      have hlast : c ∈ (sanitize name.toList).getLast? := by
        cases ht : sanitize name.toList with
        | nil => exact absurd ht (sanitize_ne_nil _)
        | cons d ds =>
          rw [ht] at hc
          simpa [List.getLast?_append, List.getLast?_cons] using hc
      exact not_whiteSpace_of_datasetChar (sanitize_char (List.mem_of_getLast? hlast))
  simp only [datasetFromPath, Zfs.imagePath, stripPrefix_append, Option.map_some, htrim]
  split
  · rename_i heq
    simp at heq
  · rename_i heq
    have hlen := congrArg List.length (Option.some.inj heq)
    simp [Zfs.datasetName] at hlen
  · rename_i heq
    rw [← Option.some.inj heq, String.ofList_toList]

theorem specFromPath_imagePath (r : Rbd) (name : String) :
    specFromPath (r.imagePath name) = some (r.spec name) := by
  simp only [specFromPath, Rbd.imagePath, stripPrefix_append, Option.map_some,
    String.ofList_toList]

/-- Names that differ can meet in one dataset. -/
example : (Zfs.new none).datasetName "root disk" = (Zfs.new none).datasetName "root-disk" := by
  decide

end Pertisk.Volume
