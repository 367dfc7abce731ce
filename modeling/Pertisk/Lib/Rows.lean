import Pertisk.Lib.Text

namespace Pertisk.Lib

/-- A line as it stands in a file, without what ends it. -/
structure Line (l : List Char) : Prop where
  newline : '\n' ∉ l
  carriage : '\r' ∉ l

/-- A text file rewritten line by line. -/
def rewriteLines (f : List Char → List Char) (text : List Char) : List Char :=
  ['\n'].intercalate ((lines text).map f ++ [[]])

/-- A text file with one more line. -/
def appendLine (text line : List Char) : List Char :=
  (if !text.isEmpty && text.getLast? != some '\n' then text ++ ['\n'] else text) ++ line ++ ['\n']

abbrev Row := List (List Char)

/-- The lines of a text file, each cut into its fields. -/
def rows (sep : Char) (text : List Char) : List Row := (lines text).map (·.splitOn sep)

/-- A line of at least two fields, the first of which is `key`. -/
def Keyed (key : List Char) (r : Row) : Prop := r.head? = some key ∧ 2 ≤ r.length

instance (key : List Char) (r : Row) : Decidable (Keyed key r) :=
  inferInstanceAs (Decidable (_ ∧ _))

/-- What can stand between two separators of a line. -/
structure Field (sep : Char) (x : List Char) : Prop extends Line x where
  sep : sep ∉ x

section lines
variable {f : List Char → List Char} {text line l : List Char} {ls : List (List Char)}

theorem Line.append (hl : Line l) (hline : Line line) : Line (l ++ line) where
  newline := fun h => (List.mem_append.mp h).elim hl.newline hline.newline
  carriage := fun h => (List.mem_append.mp h).elim hl.carriage hline.carriage

theorem mem_lines {c : Char} (hl : l ∈ lines text) (hc : c ∈ l) : c ∈ text := by
  obtain ⟨ls, last, rfl, hls, hlast⟩ := exists_unlines text
  rw [lines_unlines_append hls] at hl
  rcases List.mem_append.mp hl with hl | hl
  · obtain ⟨m, hm, rfl⟩ := List.mem_map.mp hl
    have hcm : c ∈ m := List.IsPrefix.subset chop_prefix hc
    exact List.mem_append_left _ (List.mem_flatMap.mpr ⟨m, hm, List.mem_append_left _ hcm⟩)
  · by_cases hne : last = []
    · rw [hne] at hl
      cases hl
    · rw [lines_end hlast hne, List.mem_singleton] at hl
      exact List.mem_append_right _ (hl ▸ hc)

theorem line_of_mem_lines (h : '\r' ∉ text) : ∀ l ∈ lines text, Line l :=
  fun l hl => ⟨newline_notMem_lines l hl, fun hc => h (mem_lines hl hc)⟩

theorem lines_unlines_of_line (h : ∀ l ∈ ls, Line l) : lines (unlines ls) = ls :=
  lines_unlines (fun l hl => (h l hl).newline) fun l hl => chop_of_notMem (h l hl).carriage

theorem carriage_notMem_unlines (h : ∀ l ∈ ls, Line l) : '\r' ∉ unlines ls := by
  intro hc
  obtain ⟨l, hl, hmem⟩ := List.mem_flatMap.mp hc
  rcases List.mem_append.mp hmem with hmem | hmem
  · exact (h l hl).carriage hmem
  · exact absurd (List.mem_singleton.mp hmem) (by decide)

theorem rewriteLines_eq : rewriteLines f text = unlines ((lines text).map f) :=
  intercalate_newline _

theorem lines_rewriteLines (htext : '\r' ∉ text) (hf : ∀ l, Line l → Line (f l)) :
    lines (rewriteLines f text) = (lines text).map f := by
  rw [rewriteLines_eq]
  apply lines_unlines_of_line
  intro l hl
  obtain ⟨m, hm, rfl⟩ := List.mem_map.mp hl
  exact hf m (line_of_mem_lines htext m hm)

theorem carriage_rewriteLines (htext : '\r' ∉ text) (hf : ∀ l, Line l → Line (f l)) :
    '\r' ∉ rewriteLines f text := by
  rw [rewriteLines_eq]
  apply carriage_notMem_unlines
  intro l hl
  obtain ⟨m, hm, rfl⟩ := List.mem_map.mp hl
  exact hf m (line_of_mem_lines htext m hm)

/-- A text without carriage returns is its lines, but for a newline that may be missing. -/
theorem unlines_lines (h : '\r' ∉ text) :
    unlines (lines text) =
      if text = [] ∨ text.getLast? = some '\n' then text else text ++ ['\n'] := by
  obtain ⟨ls, last, rfl, hls, hlast⟩ := exists_unlines text
  have hchop : ls.map chop = ls := by
    rw [List.map_congr_left fun l hl => chop_of_notMem fun hc => h ?_, List.map_id']
    exact List.mem_append_left _ (List.mem_flatMap.mpr ⟨l, hl, List.mem_append_left _ hc⟩)
  rw [lines_unlines_append hls, hchop, unlines_append]
  by_cases hne : last = []
  · subst hne
    rw [lines_nil, unlines_nil, List.append_nil, if_pos]
    by_cases hnil : ls = []
    · exact .inl (by rw [hnil, unlines_nil])
    · obtain ⟨front, l, rfl⟩ := List.eq_nil_or_concat ls |>.resolve_left hnil
      right
      rw [List.concat_eq_append, unlines_append, unlines_cons, unlines_nil, ← List.append_assoc,
        List.getLast?_concat]
  · rw [lines_end hlast hne, unlines_cons, unlines_nil, if_neg, List.append_assoc]
    rintro (hnil | hend)
    · exact hne (List.append_eq_nil_iff.mp hnil).2
    · rw [List.getLast?_append_of_ne_nil _ hne] at hend
      exact hlast (List.mem_of_getLast? hend)

theorem appendLine_eq (h : '\r' ∉ text) :
    appendLine text line = unlines (lines text ++ [line]) := by
  rw [unlines_append, unlines_cons, unlines_nil, unlines_lines h, appendLine, List.append_assoc]
  congr 1
  by_cases hend : text = [] ∨ text.getLast? = some '\n'
  · rw [if_pos hend, if_neg]
    rcases hend with rfl | hend
    · simp
    · simp [hend]
  · rw [if_neg hend, if_pos]
    simpa [not_or] using hend

theorem lines_appendLine (h : '\r' ∉ text) (hline : Line line) :
    lines (appendLine text line) = lines text ++ [line] := by
  rw [appendLine_eq h]
  apply lines_unlines_of_line
  intro l hl
  rcases List.mem_append.mp hl with hl | hl
  · exact line_of_mem_lines h l hl
  · exact List.mem_singleton.mp hl ▸ hline

theorem carriage_appendLine (h : '\r' ∉ text) (hline : Line line) :
    '\r' ∉ appendLine text line := by
  rw [appendLine_eq h]
  apply carriage_notMem_unlines
  intro l hl
  rcases List.mem_append.mp hl with hl | hl
  · exact line_of_mem_lines h l hl
  · exact List.mem_singleton.mp hl ▸ hline

end lines

section rows
variable {sep : Char} {f : List Char → List Char} {F : Row → Row} {text line key x : List Char}
  {r : Row} {rs : List Row}

theorem splitOn_join (hne : r ≠ []) (h : ∀ x ∈ r, Field sep x) :
    ([sep].intercalate r).splitOn sep = r :=
  List.splitOn_intercalate sep (fun x hx => (h x hx).sep) hne

theorem Field.append {y : List Char} (hx : Field sep x) (hy : Field sep y) : Field sep (x ++ y) :=
  ⟨hx.toLine.append hy.toLine, fun h => (List.mem_append.mp h).elim hx.sep hy.sep⟩

theorem join_splitOn (sep : Char) (line : List Char) :
    [sep].intercalate (line.splitOn sep) = line :=
  List.intercalate_splitOn sep

theorem mem_join_of_mem {c : Char} (hx : x ∈ r) (hc : c ∈ x) : c ∈ [sep].intercalate r := by
  induction r with
  | nil => cases hx
  | cons y r ih =>
    by_cases hne : r = []
    · rw [hne, List.mem_singleton] at hx
      rw [hne, List.intercalate_singleton, ← hx]
      exact hc
    · rw [List.intercalate_cons_of_ne_nil hne, List.append_assoc]
      rcases List.mem_cons.mp hx with rfl | hx
      · exact List.mem_append_left _ hc
      · exact List.mem_append_right _ (List.mem_append_right _ (ih hx))

theorem field_of_mem (h : Line line) : ∀ x ∈ line.splitOn sep, Field sep x := by
  intro x hx
  have hsub : ∀ c ∈ x, c ∈ line := by
    intro c hc
    rw [← join_splitOn sep line]
    exact mem_join_of_mem hx hc
  exact ⟨⟨fun hc => h.newline (hsub _ hc), fun hc => h.carriage (hsub _ hc)⟩, not_mem_splitOn hx⟩

theorem line_join (hsep : Line [sep]) (h : ∀ x ∈ r, Line x) : Line ([sep].intercalate r) := by
  constructor
  · intro hc
    obtain rfl | ⟨x, hx, hcx⟩ := mem_join hc
    · exact hsep.newline List.mem_cons_self
    · exact (h x hx).newline hcx
  · intro hc
    obtain rfl | ⟨x, hx, hcx⟩ := mem_join hc
    · exact hsep.carriage List.mem_cons_self
    · exact (h x hx).carriage hcx

/-- A line begins with the key and a separator exactly when its fields say so. -/
theorem isPrefixOf_iff_keyed (hkey : sep ∉ key) :
    (key ++ [sep]).isPrefixOf line = true ↔ Keyed key (line.splitOn sep) := by
  rw [List.isPrefixOf_iff_prefix]
  constructor
  · rintro ⟨rest, rfl⟩
    rw [List.append_assoc, List.singleton_append, List.splitOn_append_cons_self_of_not_mem hkey]
    have hpos := List.length_pos_of_ne_nil (List.splitOn_ne_nil sep rest)
    exact ⟨rfl, Nat.succ_le_succ hpos⟩
  · rintro ⟨hhead, hlen⟩
    cases hsplit : line.splitOn sep with
    | nil => exact absurd hsplit (List.splitOn_ne_nil sep line)
    | cons x rest =>
      rw [hsplit] at hhead hlen
      obtain rfl : x = key := Option.some.inj hhead
      have hne : rest ≠ [] := List.length_pos_iff.mp (Nat.succ_le_succ_iff.mp hlen)
      refine ⟨[sep].intercalate rest, ?_⟩
      rw [← join_splitOn sep line, hsplit, List.intercalate_cons_of_ne_nil hne]

theorem rows_rewriteLines (htext : '\r' ∉ text) (hf : ∀ l, Line l → Line (f l))
    (hF : ∀ l, Line l → (f l).splitOn sep = F (l.splitOn sep)) :
    rows sep (rewriteLines f text) = (rows sep text).map F := by
  rw [rows, rows, lines_rewriteLines htext hf, List.map_map, List.map_map]
  exact List.map_congr_left fun l hl => hF l (line_of_mem_lines htext l hl)

theorem rows_appendLine (htext : '\r' ∉ text) (hline : Line line) :
    rows sep (appendLine text line) = rows sep text ++ [line.splitOn sep] := by
  rw [rows, rows, lines_appendLine htext hline, List.map_append]
  rfl

end rows

/-! ### Tables of rows -/

section tables
variable {F : Row → Row} {key : List Char} {r : Row} {rs : List Row}

/-- The rows of the key. -/
def ownRows (key : List Char) (rs : List Row) : List Row := rs.filter fun r => decide (Keyed key r)

theorem mem_ownRows : r ∈ ownRows key rs ↔ r ∈ rs ∧ Keyed key r := by
  rw [ownRows, List.mem_filter, decide_eq_true_iff]

theorem ownRows_cons (h : Keyed key r) : ownRows key (r :: rs) = r :: ownRows key rs :=
  List.filter_cons_of_pos (decide_eq_true h)

theorem ownRows_cons_other (h : ¬ Keyed key r) : ownRows key (r :: rs) = ownRows key rs :=
  List.filter_cons_of_neg (by simpa using h)

theorem ownRows_append (h : Keyed key r) : ownRows key (rs ++ [r]) = ownRows key rs ++ [r] := by
  unfold ownRows
  rw [List.filter_append]
  exact congrArg (rs.filter _ ++ ·) (ownRows_cons h)

/-- The rows of other keys. -/
def otherRows (key : List Char) (rs : List Row) : List Row :=
  rs.filter fun r => !decide (Keyed key r)

/-- An edit that keeps the key and the number of the fields. -/
structure KeepsKey (F : Row → Row) : Prop where
  head : ∀ r, (F r).head? = r.head?
  length : ∀ r, (F r).length = r.length

theorem KeepsKey.keyed (h : KeepsKey F) : Keyed key (F r) ↔ Keyed key r := by
  rw [Keyed, Keyed, h.head, h.length]

theorem KeepsKey.names (h : KeepsKey F) : (rs.map F).map List.head? = rs.map List.head? := by
  rw [List.map_map]
  exact List.map_congr_left fun r _ => h.head r

theorem KeepsKey.ownRows (h : KeepsKey F) : ownRows key (rs.map F) = (ownRows key rs).map F := by
  unfold Lib.ownRows
  rw [List.filter_map]
  congr 1
  exact List.filter_congr fun r _ => by simp only [Function.comp_apply, h.keyed]

theorem KeepsKey.otherRows (h : KeepsKey F) :
    otherRows key (rs.map F) = (otherRows key rs).map F := by
  unfold Lib.otherRows
  rw [List.filter_map]
  congr 1
  exact List.filter_congr fun r _ => by simp only [Function.comp_apply, h.keyed]

theorem mem_otherRows : r ∈ otherRows key rs ↔ r ∈ rs ∧ ¬ Keyed key r := by
  rw [Lib.otherRows, List.mem_filter, Bool.not_eq_true', decide_eq_false_iff_not]

theorem otherRows_edit (h : KeepsKey F) (hfix : ∀ r, ¬ Keyed key r → F r = r) :
    otherRows key (rs.map F) = otherRows key rs := by
  rw [h.otherRows]
  have hself : ∀ r ∈ otherRows key rs, F r = r := fun r hr => hfix r (mem_otherRows.mp hr).2
  rw [List.map_congr_left hself, List.map_id']

theorem otherRows_append (h : Keyed key r) : otherRows key (rs ++ [r]) = otherRows key rs := by
  unfold otherRows
  rw [List.filter_append, List.filter_cons_of_neg (by simpa using h), List.filter_nil,
    List.append_nil]

end tables

end Pertisk.Lib
