import Mathlib.Data.List.Basic
import Mathlib.Data.List.Sort
import Mathlib.Order.Defs.LinearOrder

namespace Pertisk.Lib

variable {α : Type} [LinearOrder α]

/-- Whether one list is another or comes before it: the first difference decides, and a list comes
before those that go on with it. -/
def lexLe : List α → List α → Bool
  | [], _ => true
  | _ :: _, [] => false
  | a :: s, b :: t => decide (a < b) || (decide (a = b) && lexLe s t)

variable {a b : α} {s t u : List α}

theorem lexLe_cons : lexLe (a :: s) (b :: t) = true ↔ a < b ∨ a = b ∧ lexLe s t = true := by
  simp only [lexLe, Bool.or_eq_true, Bool.and_eq_true, decide_eq_true_eq]

theorem lexLe_trans (hst : lexLe s t = true) (htu : lexLe t u = true) : lexLe s u = true := by
  induction s generalizing t u with
  | nil => rfl
  | cons a s ih =>
    cases t with
    | nil => cases hst
    | cons b t =>
      cases u with
      | nil => cases htu
      | cons c u =>
        rcases lexLe_cons.mp hst with hab | ⟨rfl, hrest⟩
        · rcases lexLe_cons.mp htu with hbc | ⟨rfl, -⟩
          · exact lexLe_cons.mpr (.inl (lt_trans hab hbc))
          · exact lexLe_cons.mpr (.inl hab)
        · rcases lexLe_cons.mp htu with hac | ⟨rfl, htail⟩
          · exact lexLe_cons.mpr (.inl hac)
          · exact lexLe_cons.mpr (.inr ⟨rfl, ih hrest htail⟩)

theorem lexLe_total (s t : List α) : (lexLe s t || lexLe t s) = true := by
  rw [Bool.or_eq_true]
  induction s generalizing t with
  | nil => exact .inl rfl
  | cons a s ih =>
    cases t with
    | nil => exact .inr rfl
    | cons b t =>
      rcases lt_trichotomy a b with hab | rfl | hba
      · exact .inl (lexLe_cons.mpr (.inl hab))
      · rcases ih t with hst | hts
        · exact .inl (lexLe_cons.mpr (.inr ⟨rfl, hst⟩))
        · exact .inr (lexLe_cons.mpr (.inr ⟨rfl, hts⟩))
      · exact .inr (lexLe_cons.mpr (.inl hba))

theorem lexLe_antisymm (hst : lexLe s t = true) (hts : lexLe t s = true) : s = t := by
  induction s generalizing t with
  | nil =>
    cases t with
    | nil => rfl
    | cons b t => cases hts
  | cons a s ih =>
    cases t with
    | nil => cases hst
    | cons b t =>
      rcases lexLe_cons.mp hst with hab | ⟨rfl, hrest⟩
      · rcases lexLe_cons.mp hts with hba | ⟨rfl, -⟩
        · exact absurd hba (lt_asymm hab)
        · exact absurd hab (lt_irrefl _)
      · rcases lexLe_cons.mp hts with haa | ⟨-, hback⟩
        · exact absurd haa (lt_irrefl _)
        · rw [ih hrest hback]

/-! ### The ends of a sorted list -/

variable {β : Type} {le : β → β → Bool} {l : List β} {x : β}

theorem last_mergeSort (htrans : ∀ a b c, le a b = true → le b c = true → le a c = true)
    (htotal : ∀ a b, (le a b || le b a) = true) (h : (l.mergeSort le).getLast? = some x) :
    x ∈ l ∧ ∀ y ∈ l, le y x = true := by
  obtain ⟨init, hinit⟩ := List.getLast?_eq_some_iff.mp h
  have hsorted := List.pairwise_mergeSort htrans htotal l
  rw [hinit, List.pairwise_append] at hsorted
  refine ⟨List.mem_mergeSort.mp (List.mem_of_getLast? h), fun y hy => ?_⟩
  have hmem : y ∈ l.mergeSort le := List.mem_mergeSort.mpr hy
  rw [hinit, List.mem_append, List.mem_singleton] at hmem
  rcases hmem with hmem | rfl
  · exact hsorted.2.2 y hmem x List.mem_cons_self
  · have := htotal y y
    rwa [Bool.or_self] at this

theorem head_mergeSort (htrans : ∀ a b c, le a b = true → le b c = true → le a c = true)
    (htotal : ∀ a b, (le a b || le b a) = true) (h : (l.mergeSort le).head? = some x) :
    x ∈ l ∧ ∀ y ∈ l, le x y = true := by
  obtain ⟨rest, hrest⟩ := List.head?_eq_some_iff.mp h
  have hsorted := List.pairwise_mergeSort htrans htotal l
  rw [hrest, List.pairwise_cons] at hsorted
  refine ⟨List.mem_mergeSort.mp (List.mem_of_head? h), fun y hy => ?_⟩
  have hmem : y ∈ l.mergeSort le := List.mem_mergeSort.mpr hy
  rw [hrest, List.mem_cons] at hmem
  rcases hmem with rfl | hmem
  · have := htotal y y
    rwa [Bool.or_self] at this
  · exact hsorted.1 y hmem

end Pertisk.Lib

namespace Pertisk.Lib

variable {α : Type} {rank : α → ℕ} {a : α} {l low high : List α} {p : α → Prop}

/-- A stable sort by a key. -/
def sortByKey (rank : α → ℕ) (l : List α) : List α :=
  l.insertionSort (fun a b => rank a ≤ rank b)

/-- The elements of each rank below `k`, in their order. -/
def byRank (rank : α → ℕ) (k : ℕ) (l : List α) : List α :=
  (List.range k).flatMap (fun r => l.filter (fun b => rank b = r))

theorem orderedInsert_low (h : ∀ b ∈ low, rank b < rank a) :
    (low ++ high).orderedInsert (fun a b => rank a ≤ rank b) a =
      low ++ high.orderedInsert (fun a b => rank a ≤ rank b) a := by
  induction low with
  | nil => rfl
  | cons b low ih =>
    have hb := h b List.mem_cons_self
    rw [List.cons_append, List.orderedInsert_of_not_le (fun a b => rank a ≤ rank b) _ (Nat.not_le.mpr hb),
      ih (fun c hc => h c (List.mem_cons_of_mem b hc))]
    rfl

theorem orderedInsert_front (h : ∀ b ∈ high, rank a ≤ rank b) :
    high.orderedInsert (fun a b => rank a ≤ rank b) a = a :: high := by
  cases high with
  | nil => rfl
  | cons b high => exact List.orderedInsert_cons_of_le _ _ (h b List.mem_cons_self)

theorem mem_flatMap_rank {rs : List ℕ} {b : α}
    (h : b ∈ rs.flatMap (fun r => l.filter (fun b => rank b = r))) : rank b ∈ rs := by
  obtain ⟨r, hr, hb⟩ := List.mem_flatMap.mp h
  have hrank : rank b = r := by simpa using (List.mem_filter.mp hb).2
  rw [hrank]
  exact hr

theorem flatMap_rank_cons {rs : List ℕ} (h : rank a ∉ rs) :
    rs.flatMap (fun r => (a :: l).filter (fun b => rank b = r)) =
      rs.flatMap (fun r => l.filter (fun b => rank b = r)) := by
  refine List.flatMap_congr (fun r hr => ?_)
  have hne : rank a ≠ r := by
    rintro rfl
    exact h hr
  rw [List.filter_cons_of_neg (by simpa using hne)]

theorem range_at {r k : ℕ} (h : r < k) :
    List.range k = List.range r ++ r :: List.range' (r + 1) (k - r - 1) := by
  have hk : k = r + (1 + (k - r - 1)) := by omega
  conv_lhs => rw [hk]
  rw [List.range_eq_range', List.range_eq_range', List.range'_append_1.symm, Nat.zero_add,
    Nat.add_comm 1, List.range'_succ]

/-- A stable sort lists each rank's elements in their order, the lowest rank first. -/
theorem sortByKey_eq {k : ℕ} (h : ∀ b ∈ l, rank b < k) : sortByKey rank l = byRank rank k l := by
  induction l with
  | nil => simp [sortByKey, byRank]
  | cons a l ih =>
    have hl := ih (fun b hb => h b (List.mem_cons_of_mem a hb))
    have hrange := range_at (h a List.mem_cons_self)
    have hlow : rank a ∉ List.range (rank a) := by simp
    have hhigh : rank a ∉ List.range' (rank a + 1) (k - rank a - 1) := by simp
    rw [sortByKey] at hl
    rw [sortByKey, List.insertionSort_cons, hl, byRank, byRank, hrange, List.flatMap_append,
      List.flatMap_append, flatMap_rank_cons hlow, List.flatMap_cons, List.flatMap_cons,
      flatMap_rank_cons hhigh, List.filter_cons_of_pos (by simp), orderedInsert_low,
      orderedInsert_front]
    · rfl
    · intro b hb
      rcases List.mem_append.mp hb with hb | hb
      · have hrank : rank b = rank a := by simpa using (List.mem_filter.mp hb).2
        omega
      · have hmem := mem_flatMap_rank hb
        rw [List.mem_range'_1] at hmem
        omega
    · intro b hb
      exact List.mem_range.mp (mem_flatMap_rank hb)

theorem split_first (h : ∃ b ∈ l, p b) :
    ∃ before b after, l = before ++ b :: after ∧ p b ∧ ∀ c ∈ before, ¬ p c := by
  induction l with
  | nil => simp at h
  | cons a l ih =>
    by_cases ha : p a
    · exact ⟨[], a, l, rfl, ha, fun c hc => nomatch hc⟩
    · obtain ⟨before, b, after, rfl, hb, hbefore⟩ := ih (by simpa [ha] using h)
      exact ⟨a :: before, b, after, rfl, hb, List.forall_mem_cons.mpr ⟨ha, hbefore⟩⟩

theorem split_last (h : ∃ b ∈ l, p b) :
    ∃ before b after, l = before ++ b :: after ∧ p b ∧ ∀ c ∈ after, ¬ p c := by
  obtain ⟨before, b, after, hl, hb, hbefore⟩ := split_first (l := l.reverse) (by simpa using h)
  refine ⟨after.reverse, b, before.reverse, ?_, hb, by simpa using hbefore⟩
  rw [← List.reverse_reverse l, hl]
  simp

/-- Where elements with `p` stand behind a part without any, a part of another length puts one of
them in a place where there was none. -/
theorem shifted {front front' back : List α} (hlength : front.length ≠ front'.length)
    (hmid : ∃ b ∈ l, p b) (hfront : ∀ b ∈ front, ¬ p b) (hback : ∀ b ∈ back, ¬ p b) :
    ∃ (i : ℕ) (b : α), (front' ++ l ++ back)[i]? = some b ∧ p b ∧
      ∀ c, (front ++ l ++ back)[i]? = some c → ¬ p c := by
  have hplace : ∀ before b after, l = before ++ b :: after →
      (front' ++ l ++ back)[front'.length + before.length]? = some b := by
    rintro before b after rfl
    have hsplit : front' ++ (before ++ b :: after) ++ back =
        (front' ++ before) ++ b :: (after ++ back) := by simp
    rw [hsplit, List.getElem?_append_right (by simp), List.length_append, Nat.sub_self]
    rfl
  rcases Nat.lt_or_gt_of_ne hlength with hlt | hgt
  · -- the last of them now stands where something behind it stood
    obtain ⟨before, b, after, hl, hb, hafter⟩ := split_last hmid
    refine ⟨_, b, hplace before b after hl, hb, fun c hc => ?_⟩
    have hsplit : front ++ l ++ back = (front ++ before ++ [b]) ++ (after ++ back) := by simp [hl]
    rw [hsplit, List.getElem?_append_right (by simp; omega)] at hc
    rcases List.mem_append.mp (List.mem_of_getElem? hc) with hc | hc
    · exact hafter c hc
    · exact hback c hc
  · -- the first of them now stands where something before it stood
    obtain ⟨before, b, after, hl, hb, hbefore⟩ := split_first hmid
    refine ⟨_, b, hplace before b after hl, hb, fun c hc => ?_⟩
    have hsplit : front ++ l ++ back = (front ++ before) ++ (b :: after ++ back) := by simp [hl]
    rw [hsplit, List.getElem?_append_left (by simp; omega)] at hc
    rcases List.mem_append.mp (List.mem_of_getElem? hc) with hc | hc
    · exact hfront c hc
    · exact hbefore c hc

end Pertisk.Lib
