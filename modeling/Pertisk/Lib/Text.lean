import Mathlib.Data.List.Basic
import Mathlib.Data.List.DropRight

namespace Pertisk.Lib

instance lawfulBEqText : LawfulBEq (List Char) := inferInstance

/-- A number that is written in decimal digits. -/
def decimal (cs : List Char) : Option ℕ :=
  if cs ≠ [] ∧ cs.all Char.isDigit = true then some (Nat.ofDigitChars 10 cs 0) else none

theorem decimal_eq_some {cs : List Char} {n : ℕ} : decimal cs = some n ↔
    cs ≠ [] ∧ cs.all Char.isDigit = true ∧ Nat.ofDigitChars 10 cs 0 = n := by
  unfold decimal
  by_cases h : cs ≠ [] ∧ cs.all Char.isDigit = true
  · rw [if_pos h, Option.some.injEq]
    exact ⟨fun heq => ⟨h.1, h.2, heq⟩, fun hall => hall.2.2⟩
  · rw [if_neg h]
    exact ⟨fun habs => (nomatch habs), fun hall => absurd ⟨hall.1, hall.2.1⟩ h⟩

theorem isUpper_iff {c : Char} : c.isUpper = true ↔ 'A' ≤ c ∧ c ≤ 'Z' := by
  delta Char.isUpper
  exact decide_eq_true_iff

theorem isLower_iff {c : Char} : c.isLower = true ↔ 'a' ≤ c ∧ c ≤ 'z' := by
  delta Char.isLower
  rw [Bool.and_eq_true, decide_eq_true_iff, decide_eq_true_iff]
  rfl

theorem isAlphanum_iff {c : Char} :
    c.isAlphanum = true ↔ (c.isUpper = true ∨ c.isLower = true) ∨ c.isDigit = true := by
  delta Char.isAlphanum Char.isAlpha
  rw [Bool.or_eq_true, Bool.or_eq_true]

theorem toList_toString (n : ℕ) : (toString n).toList = Nat.toDigits 10 n := by
  rw [Nat.toString_eq_repr, Nat.toList_repr]

theorem isDigit_of_mem_toString {n : ℕ} {c : Char} (h : c ∈ (toString n).toList) :
    c.isDigit = true := by
  rw [toList_toString] at h
  exact Nat.isDigit_of_mem_toDigits (by decide) (by decide) h

theorem toString_ne_nil (n : ℕ) : (toString n).toList ≠ [] := by
  rw [toList_toString]
  exact Nat.toDigits_ne_nil

/-- A number is read back from its digits. -/
theorem decimal_toString (n : ℕ) : decimal (toString n).toList = some n := by
  have hall : (toString n).toList.all Char.isDigit = true :=
    List.all_eq_true.mpr fun c hc => isDigit_of_mem_toString hc
  rw [decimal, if_pos ⟨toString_ne_nil n, hall⟩, toList_toString, Nat.ofDigitChars_ten_toDigits]

theorem digitChar_of_isDigit {c : Char} (h : c.isDigit = true) :
    Nat.digitChar (c.toNat - '0'.toNat) = c ∧ c.toNat - '0'.toNat < 10 := by
  have hnat : c.toNat = c.val.toNat := rfl
  simp only [Char.isDigit, Bool.and_eq_true, decide_eq_true_eq, ge_iff_le,
    UInt32.le_iff_toNat_le] at h
  obtain ⟨n, hn⟩ := Nat.exists_eq_add_of_le (show 48 ≤ c.toNat from h.1)
  have hlt : n < 10 := by
    have hlast : c.val.toNat ≤ 57 := h.2
    omega
  have hc : c = Char.ofNat (48 + n) := by rw [← hn, Char.ofNat_toNat]
  have hall : ∀ n < 10, Nat.digitChar ((Char.ofNat (48 + n)).toNat - '0'.toNat) = Char.ofNat (48 + n) ∧
      (Char.ofNat (48 + n)).toNat - '0'.toNat < 10 := by decide
  rw [hc]
  exact hall n hlt

/-- Digits without a zero in front are the text of their number. -/
theorem toDigits_ofDigitChars {s : List Char} (hne : s ≠ []) (hdigits : ∀ c ∈ s, c.isDigit = true)
    (hzero : s.length = 1 ∨ s.head? ≠ some '0') :
    Nat.toDigits 10 (Nat.ofDigitChars 10 s 0) = s := by
  induction s using List.reverseRecOn with
  | nil => exact absurd rfl hne
  | append_singleton s c ih =>
    obtain ⟨hchar, hlt⟩ := digitChar_of_isDigit (hdigits c (by simp))
    rw [Nat.ofDigitChars_append, Nat.ofDigitChars_cons, Nat.ofDigitChars_nil]
    by_cases hs : s = []
    · rw [hs, Nat.ofDigitChars_nil, Nat.mul_zero, Nat.zero_add, Nat.toDigits_of_lt_base hlt, hchar,
        List.nil_append]
    · have hhead : s.head? ≠ some '0' := by
        rcases hzero with hlen | hhead
        · have := List.length_pos_of_ne_nil hs
          rw [List.length_append, List.length_singleton] at hlen
          omega
        · rwa [List.head?_append_of_ne_nil _ hs] at hhead
      have hdigits' := ih hs (fun c hc => hdigits c (List.mem_append_left _ hc)) (.inr hhead)
      have hpos : 0 < Nat.ofDigitChars 10 s 0 := by
        refine Nat.pos_of_ne_zero fun hz => hhead ?_
        rw [hz, Nat.toDigits_zero] at hdigits'
        rw [← hdigits']
        rfl
      rw [← Nat.toDigits_append_toDigits (by decide) hpos hlt, hdigits',
        Nat.toDigits_of_lt_base hlt, hchar]

theorem notMem_toString {n : ℕ} {c : Char} (h : c.isDigit = false) : c ∉ (toString n).toList := by
  intro hc
  rw [isDigit_of_mem_toString hc] at h
  cases h

theorem not_mem_splitOn {α : Type} [BEq α] [LawfulBEq α] {x : α} {xs l : List α}
    (h : l ∈ xs.splitOn x) : x ∉ l := by
  induction xs generalizing l with
  | nil =>
    rw [List.splitOn_nil, List.mem_singleton] at h
    rw [h]
    exact List.not_mem_nil
  | cons a xs ih =>
    rw [List.splitOn_cons_eq_if_modifyHead] at h
    split at h
    · rcases List.mem_cons.mp h with rfl | h
      · exact List.not_mem_nil
      · exact ih h
    · rename_i ha
      cases hsplit : xs.splitOn x with
      | nil => exact absurd hsplit (List.splitOn_ne_nil x xs)
      | cons b rest =>
        rw [hsplit, List.modifyHead_cons] at h
        rw [hsplit] at ih
        rcases List.mem_cons.mp h with rfl | h
        · rw [List.mem_cons, not_or]
          exact ⟨fun hsame => ha (beq_iff_eq.mpr hsame.symm), ih List.mem_cons_self⟩
        · exact ih (List.mem_cons_of_mem b h)

end Pertisk.Lib

namespace Pertisk.Lib

variable {α : Type} [DecidableEq α] {sep : α} {l t w : List α}

/-- What stands behind the last separator, or all of it when there is none. -/
def lastField (sep : α) (l : List α) : List α := l.rtakeWhile (fun x => decide (x ≠ sep))

theorem lastField_of_notMem (h : sep ∉ l) : lastField sep l = l := by
  refine List.rtakeWhile_eq_self_iff.mpr (fun x hx => decide_eq_true ?_)
  rintro rfl
  exact h hx

theorem lastField_suffix : lastField sep l <:+ l := List.rtakeWhile_suffix _ _

theorem lastField_append_of_notMem (h : sep ∉ t) :
    lastField sep (l ++ t) = lastField sep l ++ t := by
  have htake : t.reverse.takeWhile (fun x => decide (x ≠ sep)) = t.reverse :=
    List.takeWhile_eq_self_iff.mpr (fun x hx => decide_eq_true (by
      rintro rfl
      exact h (List.mem_reverse.mp hx)))
  unfold lastField List.rtakeWhile
  rw [List.reverse_append, List.takeWhile_append, htake, if_pos rfl, List.reverse_append,
    List.reverse_reverse]

theorem lastField_cons_append (h : sep ∉ t) : lastField sep (l ++ sep :: t) = t := by
  have hnil : lastField sep (l ++ [sep]) = [] := by
    unfold lastField
    rw [List.rtakeWhile_concat_neg]
    simp
  have hsplit : l ++ sep :: t = (l ++ [sep]) ++ t := by simp
  rw [hsplit, lastField_append_of_notMem h, hnil, List.nil_append]

/-- Behind a separator nothing before it matters. -/
theorem lastField_append_of_mem (h : sep ∈ t) : lastField sep (l ++ t) = lastField sep t := by
  obtain ⟨u, v, hsplit, hu⟩ := List.eq_append_cons_of_mem (List.mem_reverse.mpr h)
  obtain rfl : t = v.reverse ++ sep :: u.reverse := by
    rw [← List.reverse_reverse t, hsplit]
    simp
  have hu' : sep ∉ u.reverse := fun hmem => hu (List.mem_reverse.mp hmem)
  rw [← List.append_assoc, lastField_cons_append hu', lastField_cons_append hu']

theorem lastField_eq_iff (h : sep ∉ w) : lastField sep l = w ↔ l = w ∨ (sep :: w) <:+ l := by
  constructor
  · rintro rfl
    by_cases hmem : sep ∈ l
    · obtain ⟨u, v, hsplit, hu⟩ := List.eq_append_cons_of_mem (List.mem_reverse.mpr hmem)
      obtain rfl : l = v.reverse ++ sep :: u.reverse := by
        rw [← List.reverse_reverse l, hsplit]
        simp
      rw [lastField_cons_append (fun hrev => hu (List.mem_reverse.mp hrev))]
      exact .inr (List.suffix_append _ _)
    · exact .inl (lastField_of_notMem hmem).symm
  · rintro (rfl | ⟨u, rfl⟩)
    · exact lastField_of_notMem h
    · exact lastField_cons_append h

omit [DecidableEq α] in
theorem intercalate_append {a b : List (List α)} (ha : a ≠ []) (hb : b ≠ []) :
    [sep].intercalate (a ++ b) = [sep].intercalate a ++ sep :: [sep].intercalate b := by
  induction a with
  | nil => exact absurd rfl ha
  | cons x a ih =>
    cases a with
    | nil =>
      rw [List.singleton_append, List.intercalate_cons_of_ne_nil hb, List.intercalate_singleton,
        List.append_assoc, List.singleton_append]
    | cons y a =>
      rw [List.cons_append, List.cons_append, List.intercalate_cons_cons, ← List.cons_append,
        ih (List.cons_ne_nil y a), List.intercalate_cons_cons]
      simp only [List.append_assoc]

/-- The first fields, joined, begin the text, -/
theorem prefix_of_fields {a : List (List α)} (h : a <+: l.splitOn sep) :
    [sep].intercalate a <+: l := by
  obtain ⟨b, hb⟩ := h
  have hl : [sep].intercalate (l.splitOn sep) = l := List.intercalate_splitOn sep
  rw [← hl, ← hb]
  by_cases ha : a = []
  · rw [ha, List.intercalate_nil]
    exact List.nil_prefix
  · by_cases hnil : b = []
    · refine ⟨[], ?_⟩
      rw [hnil, List.append_nil, List.append_nil]
    · rw [intercalate_append ha hnil]
      exact List.prefix_append _ _

/-- and the last ones end it, with a separator before them. -/
theorem suffix_of_fields {a b : List (List α)} (h : l.splitOn sep = a ++ b) (ha : a ≠ [])
    (hb : b ≠ []) : sep :: [sep].intercalate b <:+ l := by
  have hl : [sep].intercalate (l.splitOn sep) = l := List.intercalate_splitOn sep
  rw [← hl, h, intercalate_append ha hb]
  exact List.suffix_append _ _

theorem field_cancel {l m x y : List α} (hl : sep ∉ l) (hm : sep ∉ m)
    (h : l ++ sep :: x = m ++ sep :: y) : x = y := by
  have hdrop : ∀ {k z : List α}, sep ∉ k → (k ++ sep :: z).dropWhile (· ≠ sep) = sep :: z := by
    intro k z hk
    rw [List.dropWhile_append_of_pos fun c hc => decide_eq_true (ne_of_mem_of_not_mem hc hk),
      List.dropWhile_cons_of_neg (by simp)]
  have htail := hdrop (z := x) hl
  rw [h, hdrop hm] at htail
  exact (List.cons.inj htail).2.symm

omit [DecidableEq α] in
theorem mem_join {parts : List (List α)} {c : α} (h : c ∈ [sep].intercalate parts) :
    c = sep ∨ ∃ p ∈ parts, c ∈ p := by
  induction parts with
  | nil => cases h
  | cons p parts ih =>
    by_cases hne : parts = []
    · rw [hne, List.intercalate_singleton] at h
      exact .inr ⟨p, List.mem_cons_self, h⟩
    · rw [List.intercalate_cons_of_ne_nil hne, List.append_assoc, List.singleton_append] at h
      rcases List.mem_append.mp h with h | h
      · exact .inr ⟨p, List.mem_cons_self, h⟩
      · rcases List.mem_cons.mp h with rfl | h
        · exact .inl rfl
        · obtain hsep | ⟨q, hq, hc⟩ := ih h
          · exact .inl hsep
          · exact .inr ⟨q, List.mem_cons_of_mem p hq, hc⟩

theorem mem_splitOn (sep : α) {s : List α} {c : α} (h : c ∈ s) :
    c = sep ∨ ∃ p ∈ s.splitOn sep, c ∈ p := by
  have hjoin : [sep].intercalate (s.splitOn sep) = s := List.intercalate_splitOn sep
  rw [← hjoin] at h
  exact mem_join h

/-- Cutting what was joined gives the parts back, with an empty one behind the last separator. -/
theorem mem_splitOn_terminated {ls : List (List α)} (h : ∀ l ∈ ls, sep ∉ l) :
    w ∈ ([sep].intercalate (ls ++ [[]])).splitOn sep ↔ w ∈ ls ∨ w = [] := by
  rw [List.splitOn_intercalate]
  · simp
  · simpa [or_imp, forall_and] using h
  · simp

end Pertisk.Lib

namespace Pertisk.Lib

/-- A line without the carriage return that may end it. -/
def chop (line : List Char) : List Char :=
  if line.getLast? = some '\r' then line.dropLast else line

/-- `cur` is what has been read of the line. -/
def linesFrom (cur : List Char) : List Char → List (List Char)
  | [] => if cur.isEmpty then [] else [cur]
  | c :: cs => if c = '\n' then chop cur :: linesFrom [] cs else linesFrom (cur ++ [c]) cs

/-- The lines of a text, without what ends them. -/
def lines (text : List Char) : List (List Char) := linesFrom [] text

/-- Lines, each ended by a newline. -/
def unlines (ls : List (List Char)) : List Char := ls.flatMap (fun l => l ++ ['\n'])

/-- What stands between the blanks. -/
def wordsBy (blank : Char → Bool) (s : List Char) : List (List Char) :=
  (s.splitOnP blank).filter (fun w => !w.isEmpty)

section lines
variable {cur l s t : List Char} {ls : List (List Char)}

theorem chop_of_notMem (h : '\r' ∉ l) : chop l = l :=
  if_neg fun hlast => h (List.mem_of_getLast? hlast)

theorem chop_prefix : chop l <+: l := by
  unfold chop
  split
  · exact List.dropLast_prefix l
  · exact List.prefix_refl l

theorem newline_notMem_chop (h : '\n' ∉ l) : '\n' ∉ chop l :=
  fun hmem => h (List.IsPrefix.subset chop_prefix hmem)

theorem linesFrom_newline (h : '\n' ∉ l) :
    linesFrom cur (l ++ '\n' :: s) = chop (cur ++ l) :: lines s := by
  induction l generalizing cur with
  | nil =>
    rw [List.nil_append, List.append_nil, linesFrom, if_pos rfl]
    rfl
  | cons c l ih =>
    obtain ⟨hc, hl⟩ := List.ne_and_not_mem_of_not_mem_cons h
    rw [List.cons_append, linesFrom, if_neg hc.symm, ih hl, List.append_assoc,
      List.singleton_append]

theorem linesFrom_end (h : '\n' ∉ l) :
    linesFrom cur l = if (cur ++ l).isEmpty then [] else [cur ++ l] := by
  induction l generalizing cur with
  | nil => rw [List.append_nil, linesFrom]
  | cons c l ih =>
    obtain ⟨hc, hl⟩ := List.ne_and_not_mem_of_not_mem_cons h
    rw [linesFrom, if_neg hc.symm, ih hl, List.append_assoc, List.singleton_append]

theorem lines_newline (h : '\n' ∉ l) : lines (l ++ '\n' :: s) = chop l :: lines s :=
  linesFrom_newline h

theorem lines_end (h : '\n' ∉ l) (hne : l ≠ []) : lines l = [l] := by
  have hend : lines l = if ([] ++ l).isEmpty then [] else [[] ++ l] := linesFrom_end h
  rwa [List.nil_append, if_neg (by rwa [List.isEmpty_iff])] at hend

@[simp] theorem lines_nil : lines [] = [] := rfl

@[simp] theorem unlines_nil : unlines [] = [] := rfl

@[simp] theorem unlines_cons : unlines (l :: ls) = l ++ '\n' :: unlines ls := by
  rw [unlines, List.flatMap_cons, List.append_assoc]
  rfl

theorem unlines_append (ls ms : List (List Char)) :
    unlines (ls ++ ms) = unlines ls ++ unlines ms := List.flatMap_append

/-- Every text is some ended lines and a rest without a newline. -/
theorem exists_unlines (s : List Char) :
    ∃ ls l, s = unlines ls ++ l ∧ (∀ m ∈ ls, '\n' ∉ m) ∧ '\n' ∉ l := by
  induction s with
  | nil => exact ⟨[], [], rfl, fun _ h => (nomatch h), List.not_mem_nil⟩
  | cons c s ih =>
    obtain ⟨ls, l, rfl, hls, hl⟩ := ih
    by_cases hc : c = '\n'
    · refine ⟨[] :: ls, l, ?_, ?_, hl⟩
      · rw [unlines_cons, hc]
        rfl
      · intro m hm
        rcases List.mem_cons.mp hm with rfl | hm
        · exact List.not_mem_nil
        · exact hls m hm
    · cases ls with
      | nil =>
        refine ⟨[], c :: l, rfl, fun m hm => ?_, ?_⟩
        · cases hm
        · exact List.not_mem_cons_of_ne_of_not_mem (Ne.symm hc) hl
      | cons m ls =>
        refine ⟨(c :: m) :: ls, l, ?_, ?_, hl⟩
        · simp only [unlines_cons, List.cons_append, List.append_assoc]
        · intro m' hm
          rcases List.mem_cons.mp hm with rfl | hm
          · exact List.not_mem_cons_of_ne_of_not_mem (Ne.symm hc) (hls m List.mem_cons_self)
          · exact hls m' (List.mem_cons_of_mem _ hm)

theorem lines_unlines_append (h : ∀ l ∈ ls, '\n' ∉ l) (t : List Char) :
    lines (unlines ls ++ t) = ls.map chop ++ lines t := by
  induction ls with
  | nil => rfl
  | cons l ls ih =>
    rw [unlines_cons, List.append_assoc, List.cons_append,
      lines_newline (h l List.mem_cons_self), ih fun m hm => h m (List.mem_cons_of_mem _ hm)]
    rfl

/-- Lines that do not end in a carriage return are read back as they were written. -/
theorem lines_unlines (h : ∀ l ∈ ls, '\n' ∉ l) (hr : ∀ l ∈ ls, chop l = l) :
    lines (unlines ls) = ls := by
  have hlines := lines_unlines_append h []
  rw [List.append_nil, lines_nil, List.append_nil] at hlines
  rw [hlines, List.map_congr_left hr, List.map_id']

theorem newline_notMem_lines : ∀ l ∈ lines s, '\n' ∉ l := by
  obtain ⟨ls, last, rfl, hls, hlast⟩ := exists_unlines s
  rw [lines_unlines_append hls]
  intro l hl
  rcases List.mem_append.mp hl with hmem | hmem
  · obtain ⟨m, hm, rfl⟩ := List.mem_map.mp hmem
    exact newline_notMem_chop (hls m hm)
  · by_cases hne : last = []
    · rw [hne] at hmem
      cases hmem
    · rw [lines_end hlast hne, List.mem_singleton] at hmem
      exact hmem ▸ hlast

theorem chop_append (ht : t ≠ []) : chop (s ++ t) = s ++ chop t := by
  unfold chop
  rw [List.getLast?_append_of_ne_nil _ ht, List.dropLast_append_of_ne_nil ht]
  split <;> rfl

/-- Behind its first line a text has the lines that the whole has; the first is the rest of one. -/
theorem lines_tail {u x v : List Char} (hnewline : '\n' ∉ x) (hreturn : '\r' ∉ x) :
    lines (x ++ v) = [] ∨ ∃ w rest, lines (x ++ v) = (x ++ w) :: rest ∧
      (∀ l ∈ rest, l ∈ lines (u ++ v)) ∧ (w = [] ∨ ∃ p, p ++ w ∈ lines (u ++ v)) := by
  obtain ⟨ls, last, rfl, hls, hlast⟩ := exists_unlines u
  rw [List.append_assoc, lines_unlines_append hls]
  by_cases hv : '\n' ∈ v
  · obtain ⟨front, behind, rfl, hfront⟩ := List.eq_append_cons_of_mem hv
    have hboth : ∀ y : List Char, '\n' ∉ y →
        lines (y ++ (front ++ '\n' :: behind)) = chop (y ++ front) :: lines behind := by
      intro y hy
      rw [← List.append_assoc]
      refine lines_newline fun hmem => ?_
      rcases List.mem_append.mp hmem with hmem | hmem
      · exact hy hmem
      · exact hfront hmem
    rw [hboth x hnewline, hboth last hlast]
    have hrest : ∀ l ∈ lines behind, l ∈ ls.map chop ++ chop (last ++ front) :: lines behind :=
      fun l hl => List.mem_append_right _ (List.mem_cons_of_mem _ hl)
    by_cases hne : front = []
    · rw [hne, List.append_nil, chop_of_notMem hreturn]
      rw [hne] at hrest
      exact .inr ⟨[], lines behind, by rw [List.append_nil], hrest, .inl rfl⟩
    · refine .inr ⟨chop front, lines behind, by rw [chop_append hne], hrest, .inr ⟨last, ?_⟩⟩
      rw [← chop_append hne]
      exact List.mem_append_right _ List.mem_cons_self
  · by_cases hnil : x ++ v = []
    · rw [hnil]
      exact .inl rfl
    · have hwhole : ∀ y : List Char, '\n' ∉ y → y ++ v ≠ [] → lines (y ++ v) = [y ++ v] := by
        intro y hy hyv
        refine lines_end (fun hmem => ?_) hyv
        rcases List.mem_append.mp hmem with hmem | hmem
        · exact hy hmem
        · exact hv hmem
      refine .inr ⟨v, [], hwhole x hnewline hnil, fun _ h => (nomatch h), ?_⟩
      by_cases hne : v = []
      · exact .inl hne
      · refine .inr ⟨last, List.mem_append_right _ ?_⟩
        rw [hwhole last hlast (List.append_ne_nil_of_right_ne_nil _ hne)]
        exact List.mem_cons_self

/-- An empty last line stands for the newline behind the others. -/
theorem intercalate_newline (ls : List (List Char)) :
    ['\n'].intercalate (ls ++ [[]]) = unlines ls := by
  induction ls with
  | nil => rfl
  | cons l ls ih =>
    have hne : ls ++ [[]] ≠ [] := fun h => nomatch (List.append_eq_nil_iff.mp h).2
    rw [List.cons_append, List.intercalate_cons_of_ne_nil hne, ih, unlines_cons, List.append_assoc]
    rfl

theorem splitOn_unlines (h : ∀ l ∈ ls, '\n' ∉ l) : (unlines ls).splitOn '\n' = ls ++ [[]] := by
  have hall : ∀ l ∈ ls ++ [[]], '\n' ∉ l := by
    intro l hl
    rcases List.mem_append.mp hl with hl | hl
    · exact h l hl
    · rw [List.mem_singleton.mp hl]
      exact List.not_mem_nil
  have hne : ls ++ [[]] ≠ [] := List.append_ne_nil_of_right_ne_nil _ (List.cons_ne_nil _ _)
  rw [← intercalate_newline]
  exact List.splitOn_intercalate '\n' hall hne

/-- Ended lines determine the text, and the text the lines. -/
theorem unlines_inj {ms : List (List Char)} (h : ∀ l ∈ ls, '\n' ∉ l) (h' : ∀ l ∈ ms, '\n' ∉ l)
    (heq : unlines ls = unlines ms) : ls = ms := by
  have hsplit := splitOn_unlines h
  rw [heq, splitOn_unlines h'] at hsplit
  exact (List.append_cancel_right hsplit).symm

end lines

section words
variable {blank : Char → Bool} {w s : List Char} {ws : List (List Char)}

/-- A blank ends the word before it. -/
theorem wordsBy_append_blank {c : Char} (h : blank c = true) :
    wordsBy blank (s ++ c :: t) = wordsBy blank s ++ wordsBy blank t := by
  unfold wordsBy
  rw [List.splitOnP_append_cons s t h, List.filter_append]

theorem wordsBy_cons_blank {c : Char} (h : blank c = true) :
    wordsBy blank (c :: s) = wordsBy blank s :=
  wordsBy_append_blank (s := []) h

theorem wordsBy_word (h : ∀ c ∈ w, blank c = false) (hne : w ≠ []) : wordsBy blank w = [w] := by
  unfold wordsBy
  rw [List.splitOnP_eq_singleton h]
  exact List.filter_cons_of_pos (by simpa using hne)

theorem wordsBy_blanks (h : ∀ c ∈ s, blank c = true) : wordsBy blank s = [] := by
  induction s with
  | nil => rfl
  | cons c s ih =>
    rw [wordsBy_cons_blank (h c List.mem_cons_self)]
    exact ih fun d hd => h d (List.mem_cons_of_mem _ hd)

theorem wordsBy_blanks_append (h : ∀ c ∈ s, blank c = true) :
    wordsBy blank (s ++ t) = wordsBy blank t := by
  induction s with
  | nil => rfl
  | cons c s ih =>
    rw [List.cons_append, wordsBy_cons_blank (h c List.mem_cons_self)]
    exact ih fun d hd => h d (List.mem_cons_of_mem _ hd)

theorem wordsBy_append_blanks (h : ∀ c ∈ t, blank c = true) :
    wordsBy blank (s ++ t) = wordsBy blank s := by
  cases t with
  | nil => rw [List.append_nil]
  | cons c t =>
    rw [wordsBy_append_blank (h c List.mem_cons_self),
      wordsBy_blanks fun d hd => h d (List.mem_cons_of_mem _ hd), List.append_nil]

/-- The first word begins where the text does. -/
theorem wordsBy_cons {c : Char} (h : blank c = false) :
    ∃ w ws, wordsBy blank (c :: s) = (c :: w) :: ws := by
  unfold wordsBy
  rw [List.splitOnP_cons_eq_if_modifyHead, if_neg (Bool.eq_false_iff.mp h)]
  cases hs : s.splitOnP blank with
  | nil => exact absurd hs (List.splitOnP_ne_nil _ _)
  | cons first rest =>
    rw [List.modifyHead_cons]
    exact ⟨first, _, List.filter_cons_of_pos rfl⟩

theorem mem_wordsBy (h : w ∈ wordsBy blank s) : w ≠ [] ∧ ∀ c ∈ w, blank c = false := by
  have hpart : ∀ part ∈ s.splitOnP blank, ∀ c ∈ part, blank c = false := by
    clear h
    induction s with
    | nil =>
      intro part hpart c hc
      rw [List.splitOnP_nil, List.mem_singleton] at hpart
      rw [hpart] at hc
      cases hc
    | cons d s ih =>
      intro part hpart c hc
      rw [List.splitOnP_cons_eq_if_modifyHead] at hpart
      split at hpart
      · rcases List.mem_cons.mp hpart with rfl | hpart
        · cases hc
        · exact ih part hpart c hc
      · rename_i hd
        cases hs : s.splitOnP blank with
        | nil => exact absurd hs (List.splitOnP_ne_nil _ _)
        | cons first rest =>
          rw [hs, List.modifyHead_cons] at hpart
          rw [hs] at ih
          rcases List.mem_cons.mp hpart with rfl | hpart
          · rcases List.mem_cons.mp hc with rfl | hc
            · exact Bool.eq_false_iff.mpr hd
            · exact ih first List.mem_cons_self c hc
          · exact ih part (List.mem_cons_of_mem _ hpart) c hc
  obtain ⟨hmem, hne⟩ := List.mem_filter.mp h
  exact ⟨by simpa using hne, hpart w hmem⟩

/-- Words that are joined by a blank are read back. -/
theorem wordsBy_intercalate {c : Char} (hc : blank c = true)
    (h : ∀ w ∈ ws, w ≠ [] ∧ ∀ c ∈ w, blank c = false) : wordsBy blank ([c].intercalate ws) = ws := by
  induction ws with
  | nil => rfl
  | cons w ws ih =>
    obtain ⟨hne, hw⟩ := h w List.mem_cons_self
    by_cases hws : ws = []
    · rw [hws, List.intercalate_singleton]
      exact wordsBy_word hw hne
    · rw [List.intercalate_cons_of_ne_nil hws, List.append_assoc, List.singleton_append,
        wordsBy_append_blank hc, wordsBy_word hw hne,
        ih fun w' hw' => h w' (List.mem_cons_of_mem _ hw')]
      rfl

end words

end Pertisk.Lib
