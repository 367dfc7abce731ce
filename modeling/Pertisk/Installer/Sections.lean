import Pertisk.Installer.Kickstart

namespace Pertisk.Installer

/-- A section that is left out, one that is kept, and one of another kind. -/
inductive Kind
  | pre
  | kept
  | other
  deriving DecidableEq, Repr

/-- The section that a line opens; `others` are the other words that open one. -/
def kindOf (others : List Char → Bool) (l : List Char) : Option Kind :=
  if isPre l then some .pre
  else if isKept l then some .kept
  else if others (strip l) ∧ ¬ isEnd l then some .other
  else none

inductive Item
  | sect (kind : Kind) (lines : List (List Char))
  | line (l : List Char)

/-- What the payload keeps of a template's part: a blank line follows each section. -/
def Item.keep : Item → List (List Char)
  | .sect .kept lines => lines ++ [[]]
  | .sect _ _ => []
  | .line l => if isCommand l then [l] else []

section layout
variable (others : List Char → Bool)

/-- Lines as commands and sections, each of which goes to the first `%end` after its start. -/
inductive Layout : List (List Char) → List Item → Prop
  | nil : Layout [] []
  | line {l ls items} (hl : kindOf others l = none) (h : Layout ls items) :
      Layout (l :: ls) (.line l :: items)
  | sect {k l body e ls items} (hl : kindOf others l = some k) (hbody : ∀ b ∈ body, ¬ isEnd b)
      (he : isEnd e) (h : Layout ls items) :
      Layout (l :: body ++ e :: ls) (.sect k (l :: body ++ [e]) :: items)

/-- A section of another kind may go to the end of the template. -/
inductive Parsed : List (List Char) → List Item → Prop
  | closed {ls items} (h : Layout others ls items) : Parsed ls items
  | unended {ls items l body} (h : Layout others ls items) (hl : kindOf others l = some .other)
      (hbody : ∀ b ∈ body, ¬ isEnd b) :
      Parsed (ls ++ l :: body) (items ++ [.sect .other (l :: body)])

/-- A package, post, addon or `%pre` section that has no `%end` after it. -/
def Unended (lines : List (List Char)) : Prop :=
  ∃ before items l rest, lines = before ++ l :: rest ∧ Layout others before items ∧
    (kindOf others l = some .pre ∨ kindOf others l = some .kept) ∧ ∀ b ∈ rest, ¬ isEnd b

variable {others}

theorem exists_end (ls : List (List Char)) :
    (∀ b ∈ ls, ¬ isEnd b) ∨ ∃ body e rest, ls = body ++ e :: rest ∧ (∀ b ∈ body, ¬ isEnd b) ∧
      isEnd e := by
  induction ls with
  | nil => exact .inl nofun
  | cons l ls ih =>
    by_cases hl : isEnd l
    · exact .inr ⟨[], l, ls, rfl, nofun, hl⟩
    · rcases ih with hnone | ⟨body, e, rest, rfl, hbody, he⟩
      · exact .inl (List.forall_mem_cons.mpr ⟨hl, hnone⟩)
      · exact .inr ⟨l :: body, e, rest, rfl, List.forall_mem_cons.mpr ⟨hl, hbody⟩, he⟩

/-- Every template is commands and sections, or has a section without its end. -/
theorem parsed_or_unended (ls : List (List Char)) :
    (∃ items, Parsed others ls items) ∨ Unended others ls := by
  induction hn : ls.length using Nat.strong_induction_on generalizing ls with
  | _ n ih =>
    have hnext : ∀ front rest item, ls = front ++ rest → front ≠ [] →
        (∀ items, Layout others rest items → Layout others ls (item :: items)) →
        (∀ before items, Layout others before items →
          Layout others (front ++ before) (item :: items)) →
        (∃ items, Parsed others ls items) ∨ Unended others ls := by
      rintro front rest item rfl hfront hlay happ
      have hlt : rest.length < n := by
        have := List.length_pos_of_ne_nil hfront
        rw [List.length_append] at hn
        omega
      rcases ih _ hlt rest rfl with ⟨items, hp⟩ | ⟨before, items, l, tail, rfl, hb, hl, ht⟩
      · cases hp with
        | closed h => exact .inl ⟨_, .closed (hlay _ h)⟩
        | @unended before items l body h hl hbody =>
          have hopen := Parsed.unended (happ _ _ h) hl hbody
          rw [List.append_assoc] at hopen
          exact .inl ⟨_, hopen⟩
      · exact .inr ⟨front ++ before, item :: items, l, tail, by rw [List.append_assoc],
          happ _ _ hb, hl, ht⟩
    cases ls with
    | nil => exact .inl ⟨[], .closed .nil⟩
    | cons l ls =>
      cases hl : kindOf others l with
      | none =>
        exact hnext [l] ls (.line l) rfl (List.cons_ne_nil _ _) (fun _ h => .line hl h)
          fun _ _ h => .line hl h
      | some k =>
        rcases exists_end ls with hnone | ⟨body, e, rest, rfl, hbody, he⟩
        · cases k with
          | other => exact .inl ⟨_, .unended .nil hl hnone⟩
          | pre => exact .inr ⟨[], [], l, ls, rfl, .nil, .inl hl, hnone⟩
          | kept => exact .inr ⟨[], [], l, ls, rfl, .nil, .inr hl, hnone⟩
        · refine hnext (l :: body ++ [e]) rest (.sect k (l :: body ++ [e])) ?_ ?_
            (fun _ h => .sect hl hbody he h) fun before items h => ?_
          · rw [List.append_assoc, List.singleton_append, List.cons_append]
          · exact List.append_ne_nil_of_right_ne_nil _ (List.cons_ne_nil _ _)
          · have hsect := Layout.sect hl hbody he h
            rwa [List.append_assoc, List.singleton_append]

end layout

/-! ### What the scan keeps -/

section scan
variable {others : List Char → Bool} {l e : List Char} {ls body before rest ks : List (List Char)}
  {items : List Item}

theorem sectionEnd_none (h : ∀ b ∈ ls, ¬ isEnd b) : sectionEnd ls = none := by
  induction ls with
  | nil => rfl
  | cons l ls ih =>
    obtain ⟨hl, hls⟩ := List.forall_mem_cons.mp h
    rw [sectionEnd, if_neg hl, ih hls]
    rfl

theorem sectionEnd_append (hbody : ∀ b ∈ body, ¬ isEnd b) (he : isEnd e) :
    sectionEnd (body ++ e :: rest) = some (body ++ [e], rest) := by
  induction body with
  | nil =>
    rw [List.nil_append, sectionEnd, if_pos he]
    rfl
  | cons b body ih =>
    obtain ⟨hb, hrest⟩ := List.forall_mem_cons.mp hbody
    rw [List.cons_append, sectionEnd, if_neg hb, ih hrest]
    rfl

/-- The end is the first one, and after it the lines go on. -/
theorem sectionEnd_some {p : List (List Char) × List (List Char)} (h : sectionEnd ls = some p) :
    ∃ body e, ls = body ++ e :: p.2 ∧ p.1 = body ++ [e] ∧ isEnd e := by
  rcases exists_end ls with hnone | ⟨body, e, rest, rfl, hbody, he⟩
  · rw [sectionEnd_none hnone] at h
    cases h
  · rw [sectionEnd_append hbody he] at h
    cases h
    exact ⟨body, e, rfl, rfl, he⟩

@[simp] theorem keptLines_nil : keptLines [] = .ok [] := by rw [keptLines]

/-- One step of the scan. -/
theorem keptLines_cons : keptLines (l :: ls) =
    if isPre l then
      match sectionEnd ls with
      | none => .error "kickstart section missing %end"
      | some p => keptLines p.2
    else if isKept l then
      match sectionEnd ls with
      | none => .error "kickstart section missing %end"
      | some p => (keptLines p.2).map fun kept => l :: p.1 ++ [] :: kept
    else if isCommand l then (keptLines ls).map (l :: ·)
    else keptLines ls := by
  rw [keptLines]
  split
  · split <;> simp_all
  · split
    · split <;> simp_all
    · rfl

theorem not_opens_of_end (he : isEnd e) :
    isPre e = false ∧ isKept e = false ∧ isCommand e = false := by
  unfold isPre isKept isCommand
  rw [show strip e = "%end".toList from he]
  decide

/-- A line that is kept, where the scan comes upon it. -/
def Leaks (ls : List (List Char)) : Prop :=
  ∃ before l after, ls = before ++ l :: after ∧ (∀ b ∈ before, isPre b = false) ∧
    isPre l = false ∧ (isKept l = true ∨ isCommand l = true)

theorem leaks_cons (hpre : isPre l = false) (h : ¬ (isKept l = true ∨ isCommand l = true)) :
    Leaks (l :: ls) ↔ Leaks ls := by
  constructor
  · rintro ⟨before, m, after, heq, hbefore, hm⟩
    cases before with
    | nil =>
      obtain ⟨rfl, rfl⟩ := List.cons.inj heq
      exact absurd hm.2 h
    | cons b before =>
      obtain ⟨rfl, rfl⟩ := List.cons.inj heq
      exact ⟨before, m, after, rfl, (List.forall_mem_cons.mp hbefore).2, hm⟩
  · rintro ⟨before, m, after, rfl, hbefore, hm⟩
    exact ⟨l :: before, m, after, rfl, List.forall_mem_cons.mpr ⟨hpre, hbefore⟩, hm⟩

/-- The first line that the scan keeps is a command or opens a section. -/
theorem head_keptLines (h : keptLines ls = .ok (l :: ks)) : isKept l = true ∨ isCommand l = true := by
  induction hn : ls.length using Nat.strong_induction_on generalizing ls with
  | _ n ih =>
    cases ls with
    | nil =>
      rw [keptLines_nil] at h
      cases h
    | cons m ls =>
      have hlt : ls.length < n := by
        rw [← hn, List.length_cons]
        exact Nat.lt_succ_self _
      rw [keptLines_cons] at h
      split at h
      · split at h
        · cases h
        · rename_i p hend
          exact ih _ (Nat.lt_trans (length_sectionEnd hend) hlt) h rfl
      · split at h
        · rename_i hkept
          split at h
          · cases h
          · obtain ⟨kept, -, heq⟩ := Lib.map_ok_iff.mp h
            cases heq
            exact .inl hkept
        · split at h
          · rename_i hcommand
            obtain ⟨kept, -, heq⟩ := Lib.map_ok_iff.mp h
            cases heq
            exact .inr hcommand
          · exact ih _ hlt h rfl

/-- A section of another kind is left out when none of its lines is kept. -/
theorem keptLines_nil_iff (hend : ∀ b ∈ ls.dropLast, ¬ isEnd b) (h : keptLines ls = .ok ks) :
    ks = [] ↔ ¬ Leaks ls := by
  induction ls generalizing ks with
  | nil =>
    rw [keptLines_nil] at h
    cases h
    exact iff_of_true rfl fun ⟨before, l, after, heq, _⟩ => by simp at heq
  | cons l ls ih =>
    rw [keptLines_cons] at h
    split at h
    · rename_i hpre
      have hno : ¬ Leaks (l :: ls) := by
        rintro ⟨before, m, after, heq, hbefore, hm, -⟩
        cases before with
        | nil =>
          obtain ⟨rfl, rfl⟩ := List.cons.inj heq
          rw [hpre] at hm
          cases hm
        | cons b before =>
          obtain ⟨rfl, rfl⟩ := List.cons.inj heq
          have hb := (List.forall_mem_cons.mp hbefore).1
          rw [hpre] at hb
          cases hb
      refine iff_of_true ?_ hno
      split at h
      · cases h
      · rename_i p hp
        obtain ⟨body, e, rfl, -, he⟩ := sectionEnd_some hp
        have hrest : p.2 = [] := by
          by_contra hne
          refine hend e ?_ he
          rw [List.dropLast_cons_of_ne_nil (by simp), List.dropLast_append_of_ne_nil (by simp),
            List.dropLast_cons_of_ne_nil hne]
          simp
        rw [hrest, keptLines_nil] at h
        exact (Except.ok.inj h).symm
    · rename_i hpre
      have hpre := Bool.eq_false_iff.mpr hpre
      split at h
      · rename_i hkept
        refine iff_of_false ?_ fun hno => hno ⟨[], l, ls, rfl, nofun, hpre, .inl hkept⟩
        split at h
        · cases h
        · obtain ⟨kept, -, rfl⟩ := Lib.map_ok_iff.mp h
          exact List.cons_ne_nil _ _
      · rename_i hkept
        split at h
        · rename_i hcommand
          obtain ⟨kept, -, rfl⟩ := Lib.map_ok_iff.mp h
          exact iff_of_false (List.cons_ne_nil _ _)
            fun hno => hno ⟨[], l, ls, rfl, nofun, hpre, .inr hcommand⟩
        · rename_i hcommand
          rw [leaks_cons hpre (not_or.mpr ⟨hkept, hcommand⟩)]
          refine ih (fun b hb => hend b ?_) h
          cases ls with
          | nil => cases hb
          | cons m ls => exact List.mem_cons_of_mem _ hb

/-- After a line that ends a section, the scan is in none. -/
theorem keptLines_append (hbody : ∀ b ∈ body, ¬ isEnd b) (he : isEnd e)
    (h : keptLines (body ++ e :: rest) = .ok ks) :
    ∃ a b, keptLines (body ++ [e]) = .ok a ∧ keptLines rest = .ok b ∧ ks = a ++ b := by
  induction body generalizing ks with
  | nil =>
    obtain ⟨hpre, hkept, hcommand⟩ := not_opens_of_end he
    have hstep : ∀ ls, keptLines (e :: ls) = keptLines ls := by
      intro ls
      rw [keptLines_cons]
      simp only [hpre, hkept, hcommand, Bool.false_eq_true, if_false]
    rw [List.nil_append, hstep] at h
    exact ⟨[], ks, by rw [List.nil_append, hstep, keptLines_nil], h, rfl⟩
  | cons l body ih =>
    obtain ⟨-, hrest⟩ := List.forall_mem_cons.mp hbody
    rw [List.cons_append, keptLines_cons, sectionEnd_append hrest he] at h
    rw [List.cons_append, keptLines_cons, sectionEnd_append hrest he]
    split at h
    · rename_i hpre
      rw [if_pos hpre]
      exact ⟨[], ks, keptLines_nil, h, rfl⟩
    · rename_i hpre
      rw [if_neg hpre]
      split at h
      · rename_i hkept
        obtain ⟨kept, hb, rfl⟩ := Lib.map_ok_iff.mp h
        refine ⟨l :: (body ++ [e]) ++ [[]], kept, ?_, hb, ?_⟩
        · rw [if_pos hkept]
          dsimp only
          rw [keptLines_nil]
          rfl
        · rw [List.append_assoc, List.singleton_append]
      · rename_i hkept
        rw [if_neg hkept]
        split at h
        · rename_i hcommand
          obtain ⟨kept, hk, rfl⟩ := Lib.map_ok_iff.mp h
          obtain ⟨a, b, ha, hb, rfl⟩ := ih hrest hk
          rw [if_pos hcommand, ha]
          exact ⟨l :: a, b, rfl, hb, rfl⟩
        · rename_i hcommand
          obtain ⟨a, b, ha, hb, rfl⟩ := ih hrest h
          rw [if_neg hcommand]
          exact ⟨a, b, ha, hb, rfl⟩

/-- What the scan keeps of a template's part. -/
def Item.scanned : Item → List (List Char)
  | .sect .other lines => (keptLines lines).toOption.getD []
  | .sect .kept lines => Item.keep (.sect .kept lines)
  | .sect .pre _ => []
  | .line l => Item.keep (.line l)

/-- What the scan does in a section of another kind. -/
structure Scanned (lines : List (List Char)) : Prop where
  ends : ∀ b ∈ lines.dropLast, ¬ isEnd b
  ok : ∃ ks, keptLines lines = .ok ks

theorem kindOf_pre : kindOf others l = some .pre ↔ isPre l = true := by
  unfold kindOf
  split
  · rename_i h
    exact iff_of_true rfl h
  · rename_i h
    refine iff_of_false ?_ h
    split_ifs <;> simp

theorem kindOf_kept : kindOf others l = some .kept ↔ isPre l = false ∧ isKept l = true := by
  unfold kindOf
  split_ifs with hpre hkept hother <;> simp_all

theorem kindOf_none (hl : kindOf others l = none) : isPre l = false ∧ isKept l = false := by
  unfold kindOf at hl
  split_ifs at hl with hpre hkept hother
  exact ⟨Bool.eq_false_iff.mpr hpre, Bool.eq_false_iff.mpr hkept⟩

theorem not_isEnd_of_other (hl : kindOf others l = some .other) : ¬ isEnd l := by
  unfold kindOf at hl
  split at hl
  · cases hl
  · split at hl
    · cases hl
    · split at hl
      · rename_i hother
        exact hother.2
      · cases hl

/-- The scan of what is commands and sections keeps each part's lines. -/
theorem keptLines_layout (h : Layout others before items) (hk : keptLines (before ++ rest) = .ok ks) :
    ∃ b, keptLines rest = .ok b ∧ ks = items.flatMap Item.scanned ++ b ∧
      ∀ ls, Item.sect .other ls ∈ items → Scanned ls := by
  induction h generalizing ks with
  | nil => exact ⟨ks, hk, rfl, nofun⟩
  | @line l ls items hl h ih =>
    obtain ⟨hpre, hkept⟩ := kindOf_none hl
    rw [List.cons_append, keptLines_cons] at hk
    simp only [hpre, hkept, Bool.false_eq_true, if_false] at hk
    split at hk
    · rename_i hcommand
      obtain ⟨kept, hrest, rfl⟩ := Lib.map_ok_iff.mp hk
      obtain ⟨b, hb, rfl, hall⟩ := ih hrest
      refine ⟨b, hb, ?_, fun ls hls => hall ls (by simpa using hls)⟩
      rw [List.flatMap_cons, Item.scanned, Item.keep, if_pos hcommand]
      rfl
    · rename_i hcommand
      obtain ⟨b, hb, rfl, hall⟩ := ih hk
      refine ⟨b, hb, ?_, fun ls hls => hall ls (by simpa using hls)⟩
      rw [List.flatMap_cons, Item.scanned, Item.keep, if_neg hcommand]
      rfl
  | @sect k l body e ls items hl hbody he h ih =>
    have hsplit : l :: body ++ e :: ls ++ rest = l :: (body ++ e :: (ls ++ rest)) := by
      rw [List.cons_append, List.cons_append, List.append_assoc, List.cons_append]
    cases k with
    | pre =>
      rw [hsplit, keptLines_cons, if_pos (kindOf_pre.mp hl), sectionEnd_append hbody he] at hk
      obtain ⟨b, hb, rfl, hall⟩ := ih hk
      exact ⟨b, hb, rfl, fun ls hls => hall ls (by simpa using hls)⟩
    | kept =>
      obtain ⟨hpre, hkept⟩ := kindOf_kept.mp hl
      rw [hsplit, keptLines_cons, sectionEnd_append hbody he] at hk
      simp only [hpre, hkept, Bool.false_eq_true, if_false, if_true] at hk
      obtain ⟨kept, hrest, rfl⟩ := Lib.map_ok_iff.mp hk
      obtain ⟨b, hb, rfl, hall⟩ := ih hrest
      refine ⟨b, hb, ?_, fun ls hls => hall ls (by simpa using hls)⟩
      rw [List.flatMap_cons, Item.scanned, Item.keep]
      simp only [List.append_assoc, List.cons_append, List.nil_append]
    | other =>
      have hend := not_isEnd_of_other hl
      have hbody' : ∀ b ∈ l :: body, ¬ isEnd b := List.forall_mem_cons.mpr ⟨hend, hbody⟩
      rw [List.append_assoc] at hk
      obtain ⟨a, more, ha, hmore, rfl⟩ := keptLines_append hbody' he hk
      obtain ⟨b, hb, rfl, hall⟩ := ih hmore
      refine ⟨b, hb, ?_, fun lines hlines => ?_⟩
      · rw [List.flatMap_cons, Item.scanned, ha, List.append_assoc]
        rfl
      · rcases List.mem_cons.mp hlines with heq | hlines
        · cases heq
          exact ⟨by rwa [List.dropLast_concat], a, ha⟩
        · exact hall lines hlines

/-- The payload is what the scan keeps of each part. -/
theorem keptLines_parsed (h : Parsed others ls items) (hk : keptLines ls = .ok ks) :
    ks = items.flatMap Item.scanned ∧ ∀ lines, Item.sect .other lines ∈ items → Scanned lines := by
  cases h with
  | closed h =>
    rw [← List.append_nil ls] at hk
    obtain ⟨b, hb, rfl, hall⟩ := keptLines_layout h hk
    rw [keptLines_nil] at hb
    cases hb
    exact ⟨List.append_nil _, hall⟩
  | @unended before items l body h hl hbody =>
    obtain ⟨b, hb, rfl, hall⟩ := keptLines_layout h hk
    refine ⟨?_, fun lines hlines => ?_⟩
    · rw [List.flatMap_append, List.flatMap_singleton, Item.scanned, hb]
      rfl
    · rcases List.mem_append.mp hlines with hlines | hlines
      · exact hall lines hlines
      · cases List.mem_singleton.mp hlines
        have hall : ∀ b ∈ l :: body, ¬ isEnd b :=
          List.forall_mem_cons.mpr ⟨not_isEnd_of_other hl, hbody⟩
        exact ⟨fun b hb' => hall b (List.mem_of_mem_dropLast hb'), b, hb⟩

/-- A section that has to end and does not is refused. -/
theorem keptLines_unended (h : Unended others ls) : keptLines ls ≠ .ok ks := by
  obtain ⟨before, items, l, rest, rfl, hbefore, hl, hrest⟩ := h
  intro hk
  obtain ⟨b, hb, -⟩ := keptLines_layout hbefore hk
  rw [keptLines_cons, sectionEnd_none hrest] at hb
  rcases hl with hl | hl
  · rw [if_pos (kindOf_pre.mp hl)] at hb
    cases hb
  · obtain ⟨hpre, hkept⟩ := kindOf_kept.mp hl
    simp only [hpre, hkept, Bool.false_eq_true, if_false, if_true] at hb
    cases hb

end scan

/-! ### The text of the payload -/

section payload
variable {s t l : List Char} {ls ks : List (List Char)} {items : List Item} {i : Item}

/-- What of a text is no space. -/
def ink (s : List Char) : List Char := s.filter (!isSpace ·)

theorem ink_append : ink (s ++ t) = ink s ++ ink t := List.filter_append ..

theorem ink_spaces (h : ∀ c ∈ s, isSpace c = true) : ink s = [] :=
  List.filter_eq_nil_iff.mpr fun c hc => by simp [h c hc]

theorem ink_strip (s : List Char) : ink (strip s) = ink s := by
  obtain ⟨u, v, hs, hu, hv, -⟩ := Volume.trimMatches_split isSpace s
  conv_rhs => rw [hs]
  rw [ink_append, ink_append, ink_spaces hu, ink_spaces hv, List.nil_append, List.append_nil]
  rfl

theorem ink_joinLines (ls : List (List Char)) : ink (joinLines ls) = ls.flatMap ink := by
  induction ls with
  | nil => rfl
  | cons l ls ih =>
    unfold joinLines at ih ⊢
    by_cases hls : ls = []
    · rw [hls, List.intercalate_singleton, List.flatMap_singleton]
    · rw [List.intercalate_cons_of_ne_nil hls, ink_append, ink_append, ih, List.flatMap_cons,
        show ink ['\n'] = [] from rfl, List.append_nil]

/-- A kept line is not blank. -/
theorem ink_ne_nil (h : isKept l = true ∨ isCommand l = true) : ink l ≠ [] := by
  intro hnil
  have hstrip : strip l = [] := by
    obtain ⟨u, v, hs, -, -, hfirst, -⟩ := Volume.trimMatches_split isSpace l
    cases htrim : strip l with
    | nil => rfl
    | cons c s =>
      have hc : isSpace c = false := hfirst c (by rw [show Volume.trimMatches isSpace l = c :: s from htrim]; rfl)
      have hmem : c ∈ ink (strip l) := by
        rw [htrim]
        exact List.mem_filter.mpr ⟨List.mem_cons_self, by rw [hc]; rfl⟩
      rw [ink_strip, hnil] at hmem
      cases hmem
  unfold isKept isCommand at h
  rw [hstrip] at h
  exact absurd h (by decide)

theorem scanned_eq_keep (h : ∀ ls, i = .sect .other ls → Scanned ls ∧ ¬ Leaks ls) :
    i.scanned = i.keep := by
  match i with
  | .line l => rfl
  | .sect .pre ls => rfl
  | .sect .kept ls => rfl
  | .sect .other ls =>
    obtain ⟨⟨hends, ks, hks⟩, hno⟩ := h ls rfl
    rw [Item.scanned, hks, (keptLines_nil_iff hends hks).mpr hno]
    rfl

theorem keep_le (i : Item) :
    (i.keep.flatMap ink).length ≤ (i.scanned.flatMap ink).length := by
  match i with
  | .line l => exact Nat.le_refl _
  | .sect .pre ls => exact Nat.le_refl _
  | .sect .kept ls => exact Nat.le_refl _
  | .sect .other ls => exact Nat.zero_le _

theorem flatMap_keep_le (items : List Item) :
    ((items.flatMap Item.keep).flatMap ink).length ≤
      ((items.flatMap Item.scanned).flatMap ink).length := by
  induction items with
  | nil => exact Nat.le_refl _
  | cons i items ih =>
    have hi := keep_le i
    simp only [List.flatMap_cons, List.flatMap_append, List.length_append]
    omega

/-- A line that is kept of a section of another kind shows in the text. -/
theorem lt_of_leaks (h : Scanned ls) (hleaks : Leaks ls) :
    0 < ((Item.scanned (.sect .other ls)).flatMap ink).length := by
  obtain ⟨hends, ks, hks⟩ := h
  rw [Item.scanned, hks]
  cases ks with
  | nil => exact absurd hleaks ((keptLines_nil_iff hends hks).mp rfl)
  | cons l ks =>
    have hink := List.length_pos_of_ne_nil (ink_ne_nil (head_keptLines hks))
    simp only [Except.toOption, Option.getD_some, List.flatMap_cons, List.length_append]
    omega

theorem not_leaks_of_length (hall : ∀ ls, Item.sect .other ls ∈ items → Scanned ls)
    (h : ((items.flatMap Item.scanned).flatMap ink).length ≤
      ((items.flatMap Item.keep).flatMap ink).length) :
    ∀ ls, Item.sect .other ls ∈ items → ¬ Leaks ls := by
  induction items with
  | nil => exact nofun
  | cons i items ih =>
    have hi := keep_le i
    have hitems := flatMap_keep_le items
    simp only [List.flatMap_cons, List.flatMap_append, List.length_append] at h
    intro ls hls hleaks
    rcases List.mem_cons.mp hls with rfl | hls
    · have hlt := lt_of_leaks (hall ls List.mem_cons_self) hleaks
      have hkeep : ((Item.keep (.sect .other ls)).flatMap ink).length = 0 := rfl
      omega
    · exact ih (fun ls hls => hall ls (List.mem_cons_of_mem _ hls)) (by omega) ls hls hleaks

/-- The payload is what the template's parts say exactly when nothing of another section is kept. -/
theorem ink_payload_iff {others : List Char → Bool} (h : Parsed others ls items)
    (hk : keptLines ls = .ok ks) :
    ink (joinLines ks) = ink (joinLines (items.flatMap Item.keep)) ↔
      ∀ lines, Item.sect .other lines ∈ items → ¬ Leaks lines := by
  obtain ⟨rfl, hall⟩ := keptLines_parsed h hk
  rw [ink_joinLines, ink_joinLines]
  constructor
  · intro heq
    exact not_leaks_of_length hall (Nat.le_of_eq (congrArg List.length heq))
  · intro hno
    refine congrArg (List.flatMap ink) (List.flatMap_congr fun i hi => scanned_eq_keep ?_)
    rintro lines rfl
    exact ⟨hall lines hi, hno lines hi⟩

theorem keptLines_quiet {others : List Char → Bool} (h : Parsed others ls items)
    (hk : keptLines ls = .ok ks) (hno : ∀ lines, Item.sect .other lines ∈ items → ¬ Leaks lines) :
    ks = items.flatMap Item.keep := by
  obtain ⟨rfl, hall⟩ := keptLines_parsed h hk
  refine List.flatMap_congr fun i hi => scanned_eq_keep ?_
  rintro lines rfl
  exact ⟨hall lines hi, hno lines hi⟩

end payload

end Pertisk.Installer
