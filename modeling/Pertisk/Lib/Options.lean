import Mathlib.Data.List.Basic

namespace Pertisk.Lib

/-- The fields of an option text, two commas standing for one in a field; `cur` is what has been
read of the field. -/
def fieldsFrom (cur : List Char) : List Char → List (List Char)
  | [] => if cur.isEmpty then [] else [cur]
  | ',' :: ',' :: s => fieldsFrom (cur ++ [',']) s
  | ',' :: s => cur :: fieldsFrom [] s
  | c :: s => fieldsFrom (cur ++ [c]) s

/-- A key without a value is switched on. -/
def optionOf (field : List Char) : List Char × List Char :=
  if '=' ∈ field then (field.takeWhile (· ≠ '='), (field.dropWhile (· ≠ '=')).drop 1)
  else (field, ['o', 'n'])

/-- The options of a text such as `key=value,key=value`. -/
def options (s : List Char) : List (List Char × List Char) := (fieldsFrom [] s).map optionOf

/-- Options as they are written when nothing in them is doubled. -/
def writeOption (o : List Char × List Char) : List Char := o.1 ++ '=' :: o.2

def writeOptions (os : List (List Char × List Char)) : List Char :=
  [','].intercalate (os.map writeOption)

variable {cur f p s t : List Char} {c : Char} {k v : List Char} {o : List Char × List Char}
  {os : List (List Char × List Char)}

theorem fieldsFrom_pair : fieldsFrom cur (',' :: ',' :: s) = fieldsFrom (cur ++ [',']) s := rfl

theorem fieldsFrom_comma (h : c ≠ ',') :
    fieldsFrom cur (',' :: c :: s) = cur :: fieldsFrom [] (c :: s) := by
  rw [fieldsFrom]
  rintro s' heq
  exact h (List.cons.inj heq).1

theorem fieldsFrom_char (h : c ≠ ',') : fieldsFrom cur (c :: s) = fieldsFrom (cur ++ [c]) s := by
  rw [fieldsFrom]
  · rintro s' rfl
    exact absurd rfl h
  · exact h

theorem fieldsFrom_append (h : ',' ∉ f) : fieldsFrom cur (f ++ s) = fieldsFrom (cur ++ f) s := by
  induction f generalizing cur with
  | nil => rw [List.nil_append, List.append_nil]
  | cons c f ih =>
    obtain ⟨hc, hf⟩ := List.ne_and_not_mem_of_not_mem_cons h
    rw [List.cons_append, fieldsFrom_char hc.symm, ih hf, List.append_assoc, List.singleton_append]

theorem fieldsFrom_end (h : ',' ∉ f) (hne : f ≠ []) : fieldsFrom [] f = [f] := by
  have happ : fieldsFrom [] (f ++ []) = fieldsFrom ([] ++ f) [] := fieldsFrom_append h
  rw [List.append_nil, List.nil_append] at happ
  rw [happ, fieldsFrom, if_neg (by rwa [List.isEmpty_iff])]

/-- What is written between two fields. -/
theorem fieldsFrom_field (h : ',' ∉ f) (hs : s.head? ≠ some ',') (hne : s ≠ []) :
    fieldsFrom [] (f ++ ',' :: s) = f :: fieldsFrom [] s := by
  obtain ⟨c, s, rfl⟩ := List.exists_cons_of_ne_nil hne
  have hc : c ≠ ',' := fun heq => hs (congrArg some heq)
  rw [fieldsFrom_append h, List.nil_append, fieldsFrom_comma hc]

theorem getLast_cons_of_eq (hne : f ≠ []) (h : p.getLast? = f.getLast?) :
    (c :: p).getLast? = f.getLast? := by
  rw [List.getLast?_cons, h, List.getLast?_eq_some_getLast hne]
  rfl

/-- The first field is read over the end of what was written for it only when that ends in a
comma. -/
theorem head_fieldsFrom (hf : ',' ∉ f) (hne : f ≠ [])
    (ht : ∀ cur, (fieldsFrom cur (f ++ t)).head? = some (cur ++ f)) :
    ∀ p cur, ∃ w, (fieldsFrom cur (p ++ ',' :: (f ++ t))).head? = some (cur ++ w) ∧
      (w.length ≤ p.length ∨ p.getLast? = some ',' ∧ w.getLast? = f.getLast?)
  | [], cur => by
    obtain ⟨d, g, rfl⟩ := List.exists_cons_of_ne_nil hne
    refine ⟨[], ?_, .inl (Nat.le_refl _)⟩
    rw [List.nil_append, List.cons_append, fieldsFrom_comma (List.ne_of_not_mem_cons hf).symm,
      List.head?_cons, List.append_nil]
  | [c], cur => by
    by_cases hc : c = ','
    · subst hc
      refine ⟨',' :: f, ?_, .inr ⟨rfl, getLast_cons_of_eq hne rfl⟩⟩
      rw [List.singleton_append, fieldsFrom_pair, ht, List.append_assoc]
      rfl
    · obtain ⟨w, hhead, hw⟩ := head_fieldsFrom hf hne ht [] (cur ++ [c])
      refine ⟨c :: w, ?_, ?_⟩
      · rw [List.singleton_append, fieldsFrom_char hc]
        rwa [List.nil_append, List.append_assoc] at hhead
      · rcases hw with hlen | ⟨hlast, -⟩
        · exact .inl (Nat.succ_le_succ hlen)
        · cases hlast
  | c :: e :: p, cur => by
    by_cases hc : c = ','
    · subst hc
      by_cases he : e = ','
      · subst he
        obtain ⟨w, hhead, hw⟩ := head_fieldsFrom hf hne ht p (cur ++ [','])
        refine ⟨',' :: w, ?_, ?_⟩
        · rw [List.cons_append, List.cons_append, fieldsFrom_pair, hhead, List.append_assoc]
          rfl
        · rcases hw with hlen | ⟨hlast, hlast'⟩
          · exact .inl (Nat.succ_le_succ (Nat.le_succ_of_le hlen))
          · refine .inr ⟨?_, getLast_cons_of_eq hne hlast'⟩
            rw [List.getLast?_cons, List.getLast?_cons, hlast]
            rfl
      · refine ⟨[], ?_, .inl (Nat.zero_le _)⟩
        rw [List.cons_append, List.cons_append, fieldsFrom_comma he, List.head?_cons,
          List.append_nil]
    · obtain ⟨w, hhead, hw⟩ := head_fieldsFrom hf hne ht (e :: p) (cur ++ [c])
      refine ⟨c :: w, ?_, ?_⟩
      · rw [List.cons_append, fieldsFrom_char hc, hhead, List.append_assoc]
        rfl
      · rcases hw with hlen | ⟨hlast, hlast'⟩
        · exact .inl (Nat.succ_le_succ hlen)
        · refine .inr ⟨?_, getLast_cons_of_eq hne hlast'⟩
          rw [List.getLast?_cons, hlast]
          rfl

/-- A field is read as it was written only when it has no comma. -/
theorem comma_notMem_of_head (hf : ',' ∉ f) (hne : f ≠ [])
    (ht : ∀ cur, (fieldsFrom cur (f ++ t)).head? = some (cur ++ f)) (cur p : List Char)
    (h : (fieldsFrom cur (p ++ ',' :: (f ++ t))).head? = some (cur ++ p)) : ',' ∉ p := by
  induction p generalizing cur with
  | nil => exact List.not_mem_nil
  | cons c p ih =>
    by_cases hc : c = ','
    · exfalso
      subst hc
      cases p with
      | nil =>
        rw [List.singleton_append, fieldsFrom_pair, ht, Option.some.injEq] at h
        have hlen := congrArg List.length h
        have hpos := List.length_pos_of_ne_nil hne
        simp only [List.length_append, List.length_cons, List.length_nil] at hlen
        omega
      | cons e p =>
        by_cases he : e = ','
        · subst he
          obtain ⟨w, hhead, hw⟩ := head_fieldsFrom hf hne ht p (cur ++ [','])
          rw [List.cons_append, List.cons_append, fieldsFrom_pair, hhead, Option.some.injEq,
            List.append_assoc] at h
          have hw' : w = ',' :: p := (List.cons.inj (List.append_cancel_left h)).2
          subst hw'
          rcases hw with hlen | ⟨hlast, hlast'⟩
          · exact absurd hlen (by simp)
          · rw [List.getLast?_cons, hlast, List.getLast?_eq_some_getLast hne] at hlast'
            have hcomma : ',' = f.getLast hne := Option.some.inj hlast'
            exact hf (hcomma ▸ List.getLast_mem hne)
        · rw [List.cons_append, List.cons_append, fieldsFrom_comma he, List.head?_cons,
            Option.some.injEq] at h
          have hlen := congrArg List.length h
          simp at hlen
    · rw [List.cons_append, fieldsFrom_char hc] at h
      refine List.not_mem_cons_of_ne_of_not_mem (Ne.symm hc) (ih (cur ++ [c]) ?_)
      rwa [List.append_assoc]

/-- Nothing in the option is read as a separator. -/
structure CleanOption (o : List Char × List Char) : Prop where
  key : ',' ∉ o.1
  plain : '=' ∉ o.1
  value : ',' ∉ o.2

theorem optionOf_write (h : '=' ∉ k) : optionOf (writeOption (k, v)) = (k, v) := by
  have hall : ∀ x ∈ k, decide (x ≠ '=') = true := by
    intro x hx
    rw [decide_eq_true_iff]
    rintro rfl
    exact h hx
  unfold optionOf writeOption
  rw [if_pos (by simp), List.takeWhile_append_of_pos hall, List.dropWhile_append_of_pos hall]
  simp

theorem CleanOption.comma (h : CleanOption o) : ',' ∉ writeOption o := by
  intro hmem
  rcases List.mem_append.mp hmem with hmem | hmem
  · exact h.key hmem
  · rcases List.mem_cons.mp hmem with heq | hmem
    · cases heq
    · exact h.value hmem

theorem writeOption_ne_nil : writeOption o ≠ [] :=
  List.append_ne_nil_of_right_ne_nil _ (List.cons_ne_nil _ _)

theorem writeOptions_cons (hne : os ≠ []) :
    writeOptions (o :: os) = writeOption o ++ ',' :: writeOptions os := by
  have hmap : os.map writeOption ≠ [] := by simpa using hne
  unfold writeOptions
  rw [List.map_cons, List.intercalate_cons_of_ne_nil hmap, List.append_assoc,
    List.singleton_append]

theorem writeOptions_head (h : CleanOption o) (os : List (List Char × List Char)) :
    ∃ c s, c ≠ ',' ∧ writeOptions (o :: os) = c :: s := by
  obtain ⟨c, s, hs⟩ := List.exists_cons_of_ne_nil (writeOption_ne_nil (o := o))
  have hc : c ≠ ',' := by
    rintro rfl
    exact h.comma (hs ▸ List.mem_cons_self)
  cases os with
  | nil => exact ⟨c, s, hc, by simp [writeOptions, hs]⟩
  | cons o' os => exact ⟨c, _, hc, by rw [writeOptions_cons (List.cons_ne_nil o' os), hs]; rfl⟩

/-- Clean options begin with their first field. -/
theorem writeOptions_split (h : CleanOption o) (hos : ∀ o ∈ os, CleanOption o) :
    ∃ t, writeOptions (o :: os) = writeOption o ++ t ∧
      ∀ cur, (fieldsFrom cur (writeOption o ++ t)).head? = some (cur ++ writeOption o) := by
  cases os with
  | nil =>
    refine ⟨[], by simp [writeOptions], fun cur => ?_⟩
    have hne : cur ++ writeOption o ≠ [] :=
      List.append_ne_nil_of_right_ne_nil _ writeOption_ne_nil
    rw [fieldsFrom_append h.comma, fieldsFrom, if_neg (by rwa [List.isEmpty_iff]), List.head?_cons]
  | cons o' os =>
    refine ⟨_, writeOptions_cons (List.cons_ne_nil o' os), fun cur => ?_⟩
    obtain ⟨c, s, hc, hs⟩ := writeOptions_head (hos o' List.mem_cons_self) os
    rw [hs, fieldsFrom_append h.comma, fieldsFrom_comma hc, List.head?_cons]

theorem fieldsFrom_writeOptions (hos : ∀ o ∈ os, CleanOption o) :
    fieldsFrom [] (writeOptions os) = os.map writeOption := by
  induction os with
  | nil => rfl
  | cons o os ih =>
    have ho := hos o List.mem_cons_self
    have hrest : ∀ o ∈ os, CleanOption o := fun o' h => hos o' (List.mem_cons_of_mem _ h)
    cases os with
    | nil =>
      have hself : writeOptions [o] = writeOption o := by simp [writeOptions]
      rw [hself, fieldsFrom_end ho.comma writeOption_ne_nil]
      rfl
    | cons o' os =>
      obtain ⟨c, s, hc, hs⟩ := writeOptions_head (hrest o' List.mem_cons_self) os
      rw [writeOptions_cons (List.cons_ne_nil o' os), List.map_cons, ← ih hrest, hs]
      exact fieldsFrom_field ho.comma (by simpa using hc) (List.cons_ne_nil _ _)

/-- Clean options are read back. -/
theorem options_write (hos : ∀ o ∈ os, CleanOption o) : options (writeOptions os) = os := by
  have hself : ∀ o ∈ os, optionOf (writeOption o) = o :=
    fun o ho => optionOf_write (hos o ho).plain
  unfold options
  rw [fieldsFrom_writeOptions hos, List.map_map]
  exact (List.map_congr_left hself).trans (List.map_id os)

/-- In front of clean options any other is read back exactly when its value has no comma. -/
theorem options_write_iff (hkey : ',' ∉ k) (hplain : '=' ∉ k) (hne : os ≠ [])
    (hos : ∀ o ∈ os, CleanOption o) :
    options (writeOptions ((k, v) :: os)) = (k, v) :: os ↔ ',' ∉ v := by
  constructor
  · intro heq
    obtain ⟨o, os, rfl⟩ := List.exists_cons_of_ne_nil hne
    have ho := hos o List.mem_cons_self
    obtain ⟨t, ht, hhead⟩ := writeOptions_split ho fun o h => hos o (List.mem_cons_of_mem _ h)
    have hsplit : writeOption (k, v) ++ ',' :: writeOptions (o :: os) =
        (k ++ ['=']) ++ (v ++ ',' :: (writeOption o ++ t)) := by
      rw [ht]
      simp [writeOption]
    have hcur : ',' ∉ k ++ ['='] := by simpa using hkey
    obtain ⟨w, hw, -⟩ := head_fieldsFrom ho.comma writeOption_ne_nil hhead v (k ++ ['='])
    have hfirst := congrArg List.head? heq
    unfold options at hfirst
    rw [writeOptions_cons (List.cons_ne_nil _ _), hsplit, fieldsFrom_append hcur, List.head?_map,
      List.nil_append, hw, Option.map_some, List.head?_cons, List.append_assoc] at hfirst
    have hread := optionOf_write (v := w) hplain
    have hfield : optionOf (k ++ (['='] ++ w)) = (k, w) := hread
    rw [hfield, Option.some.injEq, Prod.mk.injEq] at hfirst
    rw [hfirst.2] at hw
    exact comma_notMem_of_head ho.comma writeOption_ne_nil hhead _ _ hw
  · intro hv
    refine options_write fun o ho => ?_
    rcases List.mem_cons.mp ho with rfl | ho
    · exact ⟨hkey, hplain, hv⟩
    · exact hos o ho

end Pertisk.Lib
