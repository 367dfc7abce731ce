import Pertisk.Lib.Text
import Pertisk.Volume.Zfs

namespace Pertisk.Text
open Lib PeerUrl

def splitWhitespace (s : List Char) : List (List Char) := wordsBy isWhiteSpace s

/-- Split at the first occurrence of `c`. -/
def splitOnce (s : List Char) (c : Char) : Option (List Char × List Char) :=
  if c ∈ s then some (s.takeWhile (· ≠ c), (s.dropWhile (· ≠ c)).drop 1) else none

section splitOnce
variable {s a b : List Char} {c : Char}

theorem splitOnce_of_notMem (h : c ∉ s) : splitOnce s c = none := if_neg h

theorem splitOnce_append (h : c ∉ a) : splitOnce (a ++ c :: b) c = some (a, b) := by
  have hall : ∀ x ∈ a, decide (x ≠ c) = true := by
    intro x hx
    rw [decide_eq_true_iff]
    rintro rfl
    exact h hx
  unfold splitOnce
  rw [if_pos (by simp), List.takeWhile_append_of_pos hall, List.dropWhile_append_of_pos hall]
  simp

theorem splitOnce_eq_some (h : splitOnce s c = some (a, b)) : s = a ++ c :: b ∧ c ∉ a := by
  by_cases hc : c ∈ s
  · obtain ⟨u, v, rfl, hu⟩ := List.eq_append_cons_of_mem hc
    rw [splitOnce_append hu] at h
    cases h
    exact ⟨rfl, hu⟩
  · rw [splitOnce_of_notMem hc] at h
    cases h

end splitOnce

theorem startsWith_append (text : String) (s : List Char) :
    startsWith (text.toList ++ s) text = true :=
  List.isPrefixOf_iff_prefix.mpr (List.prefix_append _ _)

theorem stripPrefix_append (text : String) (s : List Char) :
    stripPrefix (text.toList ++ s) text = some s := by
  unfold stripPrefix
  rw [if_pos (startsWith_append text s), List.drop_left]

theorem stripPrefix_eq_some {s r : List Char} {text : String} (h : stripPrefix s text = some r) :
    s = text.toList ++ r := by
  unfold stripPrefix at h
  split at h
  · rename_i hstarts
    obtain ⟨t, rfl⟩ := List.isPrefixOf_iff_prefix.mp hstarts
    rw [List.drop_left] at h
    rw [Option.some.inj h]
  · cases h

theorem stripPrefix_eq_none {s : List Char} {text : String} (h : startsWith s text = false) :
    stripPrefix s text = none := by
  unfold stripPrefix
  rw [if_neg (Bool.eq_false_iff.mp h)]

section trim
variable {s w : List Char}

theorem trim_split (s : List Char) :
    ∃ u v, s = u ++ trim s ++ v ∧ (∀ c ∈ u, isWhiteSpace c = true) ∧
      (∀ c ∈ v, isWhiteSpace c = true) ∧ (∀ c ∈ (trim s).head?, isWhiteSpace c = false) ∧
      (∀ c ∈ (trim s).getLast?, isWhiteSpace c = false) :=
  Volume.trimMatches_split isWhiteSpace s

theorem mem_of_mem_trim {c : Char} (h : c ∈ trim s) : c ∈ s := by
  obtain ⟨u, v, hs, -⟩ := trim_split s
  rw [hs]
  exact List.mem_append_left _ (List.mem_append_right _ h)

theorem trim_of_ends {u m v : List Char} (hu : ∀ c ∈ u, isWhiteSpace c = true)
    (hfirst : ∀ c ∈ m.head?, isWhiteSpace c = false)
    (hlast : ∀ c ∈ m.getLast?, isWhiteSpace c = false) (hv : ∀ c ∈ v, isWhiteSpace c = true) :
    trim (u ++ m ++ v) = m :=
  Volume.trimMatches_of_ends hu hfirst hlast hv

theorem trim_trim (s : List Char) : trim (trim s) = trim s := by
  obtain ⟨-, -, -, -, -, hhead, hlast⟩ := trim_split s
  exact trim_eq_self hhead hlast

theorem splitWhitespace_trim (s : List Char) : splitWhitespace (trim s) = splitWhitespace s := by
  obtain ⟨u, v, hs, hu, hv, -, -⟩ := trim_split s
  have hsame : splitWhitespace (u ++ trim s ++ v) = splitWhitespace (trim s) := by
    unfold splitWhitespace
    rw [wordsBy_append_blanks hv, wordsBy_blanks_append hu]
  rw [← hs] at hsame
  exact hsame.symm

theorem trim_eq_nil_iff : trim s = [] ↔ ∀ c ∈ s, isWhiteSpace c = true := by
  constructor
  · intro h
    obtain ⟨u, v, hs, hu, hv, -, -⟩ := trim_split s
    rw [h, List.append_nil] at hs
    intro c hc
    rw [hs] at hc
    rcases List.mem_append.mp hc with hc | hc
    · exact hu c hc
    · exact hv c hc
  · intro h
    obtain ⟨u, v, hs, -, -, hhead, -⟩ := trim_split s
    cases htrim : trim s with
    | nil => rfl
    | cons c t =>
      rw [htrim] at hhead hs
      have hc : c ∈ s := by
        rw [hs]
        simp
      have hnot := hhead c rfl
      rw [h c hc] at hnot
      cases hnot

end trim

end Pertisk.Text
