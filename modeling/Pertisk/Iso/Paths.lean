import Pertisk.Iso.Writer
import Pertisk.Lib.Text

namespace Pertisk.Iso
open Lib

/-- The path of a file or of a directory from its parts. -/
def join (parts : List (List Char)) : List Char := ['/'].intercalate parts

/-- Parts of paths are not empty. -/
def Parts (parts : List (List Char)) : Prop := ∀ c ∈ parts, c ≠ [] ∧ '/' ∉ c

variable {parts pre : List (List Char)} {c d path : List Char} {dirs : List (List Char)}
  {files : List TreeFile}

theorem join_splitOn (path : List Char) : join (path.splitOn '/') = path :=
  List.intercalate_splitOn '/'

theorem join_concat (pre : List (List Char)) (c : List Char) :
    join (pre ++ [c]) = if pre.isEmpty then c else join pre ++ '/' :: c := by
  unfold join
  induction pre with
  | nil => exact List.intercalate_singleton
  | cons a pre ih =>
    cases pre with
    | nil => simp
    | cons b pre =>
      rw [List.cons_append, List.cons_append, List.intercalate_cons_cons, ← List.cons_append, ih,
        List.intercalate_cons_cons]
      simp

theorem Parts.left (h : Parts (pre ++ parts)) : Parts pre :=
  fun c hc => h c (List.mem_append_left _ hc)

theorem Parts.take (h : Parts parts) (k : ℕ) : Parts (parts.take k) :=
  fun c hc => h c (List.mem_of_mem_take hc)

theorem join_isEmpty (h : Parts parts) : (join parts).isEmpty = parts.isEmpty := by
  cases parts using List.reverseRecOn with
  | nil => rfl
  | append_singleton pre c _ =>
    have hc := (h c (by simp)).1
    rw [join_concat]
    cases pre with
    | nil => simp [hc]
    | cons a pre => simp

theorem join_ne_nil (h : Parts (pre ++ [c])) : join (pre ++ [c]) ≠ [] := by
  have hempty := join_isEmpty h
  intro hnil
  rw [hnil] at hempty
  simp at hempty

theorem parentOf_join (h : Parts (pre ++ [c])) : parentOf (join (pre ++ [c])) = join pre := by
  have hslash := (h c (by simp)).2
  unfold parentOf
  rw [join_concat]
  cases pre with
  | nil =>
    rw [List.isEmpty_nil, if_pos rfl, PeerUrl.rsplitOnce_of_notMem hslash]
    rfl
  | cons a pre => rw [List.isEmpty_cons, if_neg Bool.false_ne_true, PeerUrl.rsplitOnce_append _ hslash]

theorem basenameOf_join (h : Parts (pre ++ [c])) : basenameOf (join (pre ++ [c])) = c := by
  have hslash := (h c (by simp)).2
  unfold basenameOf
  rw [join_concat]
  cases pre with
  | nil => rw [List.isEmpty_nil, if_pos rfl, PeerUrl.rsplitOnce_of_notMem hslash]
  | cons a pre => rw [List.isEmpty_cons, if_neg Bool.false_ne_true, PeerUrl.rsplitOnce_append _ hslash]

/-- The next part names a directory of the one before. -/
theorem addDir_eq (h : Parts pre) : addDir (join pre, dirs) c =
    (join (pre ++ [c]), if join (pre ++ [c]) ∈ dirs then dirs else dirs ++ [join (pre ++ [c])]) := by
  unfold addDir
  rw [join_concat, join_isEmpty h]

theorem mem_foldl_addDir (h : Parts (pre ++ parts)) :
    d ∈ (parts.foldl addDir (join pre, dirs)).2 ↔
      d ∈ dirs ∨ ∃ k, 0 < k ∧ k ≤ parts.length ∧ d = join (pre ++ parts.take k) := by
  induction parts generalizing pre dirs with
  | nil =>
    refine ⟨.inl, ?_⟩
    rintro (hd | ⟨k, hpos, hle, -⟩)
    · exact hd
    · exact absurd hle (by simpa using hpos.ne')
  | cons c parts ih =>
    have hpre : Parts (pre ++ [c] ++ parts) := by
      rw [List.append_assoc]
      exact h
    have hadd : d ∈ (if join (pre ++ [c]) ∈ dirs then dirs else dirs ++ [join (pre ++ [c])]) ↔
        d ∈ dirs ∨ d = join (pre ++ [c]) := by
      split
      · rename_i hin
        exact ⟨.inl, fun hd => hd.elim id (fun heq => heq ▸ hin)⟩
      · rw [List.mem_append, List.mem_singleton]
    rw [List.foldl_cons, addDir_eq h.left, ih hpre, hadd, or_assoc]
    refine or_congr_right ⟨?_, ?_⟩
    · rintro (rfl | ⟨k, hpos, hle, rfl⟩)
      · exact ⟨1, Nat.one_pos, by simp, by simp⟩
      · exact ⟨k + 1, Nat.succ_pos k, by simpa using hle, by simp⟩
    · rintro ⟨k, hpos, hle, rfl⟩
      cases k with
      | zero => omega
      | succ k =>
        cases k with
        | zero => exact .inl (by simp)
        | succ k => exact .inr ⟨k + 1, Nat.succ_pos k, by simpa using hle, by simp⟩

theorem nodup_foldl_addDir {state : List Char × List (List Char)} (h : state.2.Nodup) :
    (parts.foldl addDir state).2.Nodup := by
  induction parts generalizing state with
  | nil => exact h
  | cons c parts ih =>
    refine ih ?_
    unfold addDir
    dsimp only
    generalize (if state.1.isEmpty then c else state.1 ++ '/' :: c) = dir
    split
    · exact h
    · rename_i hnew
      refine List.nodup_append.mpr ⟨h, List.pairwise_singleton _ _, fun a ha b hb hsame => ?_⟩
      rw [List.mem_singleton.mp hb] at hsame
      exact hnew (hsame ▸ ha)

theorem mem_pathDirs (h : Parts (path.splitOn '/')) : d ∈ pathDirs dirs path ↔ d ∈ dirs ∨
    ∃ k, 0 < k ∧ k < (path.splitOn '/').length ∧ d = join ((path.splitOn '/').take k) := by
  set parts := path.splitOn '/'
  have hne : 0 < parts.length := List.length_pos_iff.mpr (List.splitOn_ne_nil _ _)
  have hparts : Parts ([] ++ parts.dropLast) := fun c hc => h c (List.mem_of_mem_dropLast hc)
  have hfold := @mem_foldl_addDir parts.dropLast [] d dirs hparts
  unfold pathDirs
  rw [show ([] : List Char) = join [] from rfl, hfold, List.length_dropLast]
  refine or_congr_right (exists_congr fun k => and_congr_right fun hpos => ?_)
  have htake (hlt : k < parts.length) : parts.dropLast.take k = parts.take k := by
    rw [List.dropLast_eq_take, List.take_take, Nat.min_eq_left (by omega)]
  constructor
  · rintro ⟨hle, rfl⟩
    exact ⟨by omega, by rw [List.nil_append, htake (by omega)]⟩
  · rintro ⟨hlt, rfl⟩
    exact ⟨by omega, by rw [List.nil_append, htake hlt]⟩

/-- The directories are the root and what stands before a part of a path. -/
theorem mem_treeDirs (h : ∀ f ∈ files, Parts (f.path.splitOn '/')) : d ∈ treeDirs files ↔ d = [] ∨
    ∃ f ∈ files, ∃ k, 0 < k ∧ k < (f.path.splitOn '/').length ∧
      d = join ((f.path.splitOn '/').take k) := by
  have hfold (dirs : List (List Char)) :
      d ∈ files.foldl (fun dirs f => pathDirs dirs f.path) dirs ↔ d ∈ dirs ∨
        ∃ f ∈ files, ∃ k, 0 < k ∧ k < (f.path.splitOn '/').length ∧
          d = join ((f.path.splitOn '/').take k) := by
    induction files generalizing dirs with
    | nil => simp
    | cons f files ih =>
      rw [List.foldl_cons, ih (fun g hg => h g (List.mem_cons_of_mem f hg)),
        mem_pathDirs (h f List.mem_cons_self), or_assoc]
      simp only [List.mem_cons, exists_eq_or_imp]
  unfold treeDirs
  rw [List.mem_insertionSort, hfold, List.mem_singleton]

/-- What stands before a part of a path is a directory. -/
theorem prefix_mem (h : ∀ f ∈ files, Parts (f.path.splitOn '/')) {f : TreeFile} (hf : f ∈ files)
    {rest : List (List Char)} (hsplit : f.path.splitOn '/' = pre ++ rest) (hrest : rest ≠ []) :
    join pre ∈ treeDirs files := by
  rw [mem_treeDirs h]
  cases pre with
  | nil => exact .inl rfl
  | cons a pre =>
    have hpos : 0 < rest.length := List.length_pos_iff.mpr hrest
    refine .inr ⟨f, hf, (a :: pre).length, Nat.succ_pos _, ?_, ?_⟩
    · rw [hsplit, List.length_append]
      omega
    · rw [hsplit, List.take_left]

theorem root_mem (h : ∀ f ∈ files, Parts (f.path.splitOn '/')) : [] ∈ treeDirs files :=
  (mem_treeDirs h).mpr (.inl rfl)

/-- Another directory than the root is named in a path. -/
theorem exists_part (h : ∀ f ∈ files, Parts (f.path.splitOn '/')) (hd : d ∈ treeDirs files)
    (hne : d ≠ []) : ∃ f ∈ files, ∃ pre name rest, f.path.splitOn '/' = pre ++ name :: rest ∧
      d = join (pre ++ [name]) := by
  rcases (mem_treeDirs h).mp hd with hroot | ⟨f, hf, k, hpos, hlt, rfl⟩
  · exact absurd hroot hne
  · set parts := f.path.splitOn '/'
    obtain ⟨k, rfl⟩ := Nat.exists_eq_succ_of_ne_zero hpos.ne'
    refine ⟨f, hf, parts.take k, parts[k], parts.drop (k + 1), ?_, ?_⟩
    · rw [← List.drop_eq_getElem_cons, List.take_append_drop]
    · rw [← List.take_succ_eq_append_getElem]

/-- The directory that holds a directory is one. -/
theorem parent_mem (h : ∀ f ∈ files, Parts (f.path.splitOn '/')) (hd : d ∈ treeDirs files) :
    (if d.isEmpty then d else parentOf d) ∈ treeDirs files := by
  by_cases hne : d = []
  · rw [hne]
    exact root_mem h
  · obtain ⟨f, hf, pre, name, rest, hsplit, rfl⟩ := exists_part h hd hne
    have hparts : Parts (pre ++ [name]) := by
      have hall := h f hf
      rw [hsplit, ← List.singleton_append, ← List.append_assoc] at hall
      exact hall.left
    rw [List.isEmpty_eq_false_iff.mpr hne, if_neg Bool.false_ne_true, parentOf_join hparts]
    exact prefix_mem h hf hsplit (List.cons_ne_nil _ _)

theorem nodup_treeDirs (files : List TreeFile) : (treeDirs files).Nodup := by
  have hfold (dirs : List (List Char)) (h : dirs.Nodup) :
      (files.foldl (fun dirs f => pathDirs dirs f.path) dirs).Nodup := by
    induction files generalizing dirs with
    | nil => exact h
    | cons f files ih => exact ih _ (nodup_foldl_addDir h)
  exact (List.perm_insertionSort _ _).nodup_iff.mpr (hfold _ (List.pairwise_singleton _ _))

end Pertisk.Iso
