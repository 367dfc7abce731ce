import Pertisk.Volume.Zfs

namespace Pertisk.Seed

open PeerUrl (trim trimEnd isWhiteSpace)
open Volume (trimMatches)

/-- One character of the loop that both writers run over a host name. -/
def pushHost (out : List Char) (c : Char) : List Char :=
  if c.isAlphanum || c == '-' then out ++ [c]
  else if !out.isEmpty && !(out.getLast? == some '-') then out ++ ['-']
  else out

def sanitizeHostname (raw : List Char) : List Char :=
  let out := (trim raw).foldl pushHost []
  let out := (trimMatches (· == '-') out).take 63
  if out.isEmpty then "pertisk".toList else out

/-- The copy of `sanitizeHostname` in the disk injection. -/
def sanitizeHost (raw : List Char) : List Char :=
  let out := (trim raw).foldl pushHost []
  let out := (trimMatches (· == '-') out).take 63
  if out.isEmpty then "pertisk".toList else out

/-- A host label: letters, digits and inner hyphens, at most 63 of them. -/
structure Label (s : List Char) : Prop where
  nonempty : s ≠ []
  short : s.length ≤ 63
  chars : ∀ c ∈ s, c.isAlphanum = true ∨ c = '-'
  first : s.head? ≠ some '-'
  last : s.getLast? ≠ some '-'

def LowerLabel (s : List Char) : Prop := Label s ∧ ∀ c ∈ s, c.isUpper = false

/-- The part of a text from its first letter or digit to its last. -/
def core (s : List Char) : List Char := trimMatches (!·.isAlphanum) s

/-- Whether `c` takes a place of its own in the label when `before` stands before it: a separator
other than a hyphen does so only right behind a letter or digit. -/
def takesPlace (before : List Char) (c : Char) : Bool :=
  c.isAlphanum || c == '-' || before.getLast?.any Char.isAlphanum

/-- How many characters of a text take a place, the last of `before` standing before it. -/
def placesFrom (before : List Char) : List Char → ℕ
  | [] => 0
  | c :: s => (if takesPlace before c then 1 else 0) + placesFrom (before ++ [c]) s

def places (s : List Char) : ℕ := placesFrom [] s

/-- No separator takes the 63rd place, the last one that the cut keeps. -/
def CutBesideSeparators (raw : List Char) : Prop :=
  ∀ before c after, core raw = before ++ c :: after → places before = 62 →
    takesPlace before c = true → c.isAlphanum = true

/-- What the loop writes for a text behind a letter or digit (`word`) or elsewhere. -/
def labelFrom (word : Bool) : List Char → List Char
  | [] => []
  | c :: s =>
    if c.isAlphanum then c :: labelFrom true s
    else if c == '-' || word then '-' :: labelFrom false s
    else labelFrom false s

variable {s t : List Char} {c : Char}

theorem ne_hyphen_of_isAlphanum (h : c.isAlphanum = true) : c ≠ '-' := by
  rintro rfl
  cases h

theorem foldl_pushHost (out s : List Char) :
    s.foldl pushHost out = out ++ labelFrom (out.getLast?.any (· != '-')) s := by
  induction s generalizing out with
  | nil => exact (List.append_nil out).symm
  | cons c s ih =>
    rw [List.foldl_cons, ih, labelFrom]
    have hword : (!out.isEmpty && !(out.getLast? == some '-')) = out.getLast?.any (· != '-') := by
      cases h : out.getLast? with
      | none => simp [List.getLast?_eq_none_iff.mp h]
      | some d =>
        have hne : out ≠ [] := by
          rintro rfl
          cases h
        simp [List.isEmpty_eq_false_iff.mpr hne, bne]
    by_cases hc : c.isAlphanum = true
    · have hne : (c != '-') = true := bne_iff_ne.mpr (ne_hyphen_of_isAlphanum hc)
      simp [pushHost, hc, hne]
    · by_cases hh : c = '-'
      · subst hh
        simp [pushHost, hc]
      · cases hw : out.getLast?.any (· != '-') with
        | true => simp [pushHost, hc, hh, hword, hw]
        | false => simp [pushHost, hc, hh, hword, hw]

/-- Behind a text the loop goes on as its last character says. -/
theorem labelFrom_append (word : Bool) (s t : List Char) :
    labelFrom word (s ++ t) =
      labelFrom word s ++ labelFrom (s.getLast?.elim word Char.isAlphanum) t := by
  induction s generalizing word with
  | nil => rfl
  | cons c s ih =>
    have hlast : ∀ b, (c :: s).getLast?.elim b Char.isAlphanum =
        s.getLast?.elim c.isAlphanum Char.isAlphanum := by
      intro b
      cases h : s.getLast? with
      | none =>
        rw [List.getLast?_eq_none_iff.mp h]
        rfl
      | some d => simp [List.getLast?_cons, h]
    rw [List.cons_append, labelFrom, labelFrom, ih, ih, hlast]
    by_cases hc : c.isAlphanum = true
    · simp [hc]
    · simp only [hc, Bool.false_eq_true, if_false]
      split <;> rfl

/-- A stretch of separators leaves hyphens. -/
theorem labelFrom_separators (word : Bool) (h : ∀ c ∈ s, c.isAlphanum = false) :
    ∀ d ∈ labelFrom word s, (d == '-') = true := by
  induction s generalizing word with
  | nil => nofun
  | cons c s ih =>
    have hrest := ih false fun d hd => h d (List.mem_cons_of_mem _ hd)
    rw [labelFrom, h c List.mem_cons_self, if_neg Bool.false_ne_true]
    split
    · intro d hd
      rcases List.mem_cons.mp hd with rfl | hd
      · rfl
      · exact hrest d hd
    · exact hrest

theorem labelFrom_chars (word : Bool) : ∀ d ∈ labelFrom word s, d.isAlphanum = true ∨ d = '-' := by
  induction s generalizing word with
  | nil => nofun
  | cons c s ih =>
    intro d hd
    rw [labelFrom] at hd
    split at hd
    · rename_i hc
      rcases List.mem_cons.mp hd with rfl | hd
      · exact .inl hc
      · exact ih true d hd
    · split at hd
      · rcases List.mem_cons.mp hd with rfl | hd
        · exact .inr rfl
        · exact ih false d hd
      · exact ih false d hd

/-- Label characters are written as they are. -/
theorem labelFrom_eq_self (word : Bool) (h : ∀ c ∈ s, c.isAlphanum = true ∨ c = '-') :
    labelFrom word s = s := by
  induction s generalizing word with
  | nil => rfl
  | cons c s ih =>
    have hrest := fun w => ih w fun d hd => h d (List.mem_cons_of_mem _ hd)
    rw [labelFrom, hrest, hrest]
    rcases h c List.mem_cons_self with hc | rfl
    · rw [if_pos hc]
    · rfl

theorem head_labelFrom (word : Bool) (h : ∀ c ∈ s.head?, c.isAlphanum = true) :
    (labelFrom word s).head? = s.head? := by
  cases s with
  | nil => rfl
  | cons c s => rw [labelFrom, if_pos (h c rfl), List.head?_cons, List.head?_cons]

theorem last_labelFrom (word : Bool) (h : ∀ c ∈ s.getLast?, c.isAlphanum = true) :
    (labelFrom word s).getLast? = s.getLast? := by
  rcases List.eq_nil_or_concat s with rfl | ⟨u, c, rfl⟩
  · rfl
  · have hc : c.isAlphanum = true := h c (by simp)
    rw [List.concat_eq_append, labelFrom_append, labelFrom, if_pos hc, List.getLast?_append,
      List.getLast?_append]
    rfl

/-! ### The core of a text -/

/-- A text is its core between two stretches of separators. -/
theorem core_split (s : List Char) :
    ∃ u v, s = u ++ core s ++ v ∧ (∀ c ∈ u, c.isAlphanum = false) ∧
      (∀ c ∈ v, c.isAlphanum = false) ∧ (∀ c ∈ (core s).head?, c.isAlphanum = true) ∧
      (∀ c ∈ (core s).getLast?, c.isAlphanum = true) := by
  obtain ⟨u, v, hs, hu, hv, hfirst, hlast⟩ := Volume.trimMatches_split (!·.isAlphanum) s
  simp only [Bool.not_eq_true', Bool.not_eq_false'] at hu hv hfirst hlast
  exact ⟨u, v, hs, hu, hv, hfirst, hlast⟩

theorem core_of_ends {u m v : List Char} (hu : ∀ c ∈ u, c.isAlphanum = false)
    (hfirst : ∀ c ∈ m.head?, c.isAlphanum = true) (hlast : ∀ c ∈ m.getLast?, c.isAlphanum = true)
    (hv : ∀ c ∈ v, c.isAlphanum = false) : core (u ++ m ++ v) = m := by
  refine Volume.trimMatches_of_ends ?_ ?_ ?_ ?_
  all_goals simpa only [Bool.not_eq_true', Bool.not_eq_false']

theorem not_alphanum_of_whiteSpace (h : isWhiteSpace c = true) : c.isAlphanum = false := by
  cases hc : c.isAlphanum with
  | false => rfl
  | true =>
    have hset : Volume.datasetChar c = true := by simp [Volume.datasetChar, hc]
    rw [Volume.not_whiteSpace_of_datasetChar hset] at h
    cases h

theorem core_trim (s : List Char) : core (trim s) = core s := by
  obtain ⟨u, v, hs, hu, hv, -, -⟩ := Volume.trimMatches_split isWhiteSpace s
  obtain ⟨u', v', ht, hu', hv', hfirst, hlast⟩ := core_split (trim s)
  have hall : s = (u ++ u') ++ core (trim s) ++ (v' ++ v) := by
    calc s = u ++ trim s ++ v := hs
      _ = u ++ (u' ++ core (trim s) ++ v') ++ v := by rw [← ht]
      _ = (u ++ u') ++ core (trim s) ++ (v' ++ v) := by simp only [List.append_assoc]
  have hcore := core_of_ends (u := u ++ u') (v := v' ++ v) ?_ hfirst hlast ?_
  · rw [← hall] at hcore
    exact hcore.symm
  · intro c hc
    rcases List.mem_append.mp hc with hc | hc
    · exact not_alphanum_of_whiteSpace (hu c hc)
    · exact hu' c hc
  · intro c hc
    rcases List.mem_append.mp hc with hc | hc
    · exact hv' c hc
    · exact not_alphanum_of_whiteSpace (hv c hc)

/-- Trimming the hyphens leaves what the loop writes for the core. -/
theorem trimmed_label (raw : List Char) :
    trimMatches (· == '-') ((trim raw).foldl pushHost []) = labelFrom false (core raw) := by
  obtain ⟨u, v, hs, hu, hv, hfirst, hlast⟩ := core_split (trim raw)
  rw [core_trim] at hs hfirst hlast
  rw [foldl_pushHost, hs, List.nil_append, labelFrom_append, labelFrom_append]
  have hword : u.getLast?.elim (([] : List Char).getLast?.any (· != '-')) Char.isAlphanum =
      false := by
    cases h : u.getLast? with
    | none => rfl
    | some d => exact hu d (List.mem_of_getLast? h)
  rw [hword]
  refine Volume.trimMatches_of_ends (labelFrom_separators _ hu) ?_ ?_ (labelFrom_separators _ hv)
  · rw [head_labelFrom false hfirst]
    exact fun c hc => beq_false_of_ne (ne_hyphen_of_isAlphanum (hfirst c hc))
  · rw [last_labelFrom false hlast]
    exact fun c hc => beq_false_of_ne (ne_hyphen_of_isAlphanum (hlast c hc))

theorem sanitizeHostname_eq (raw : List Char) :
    sanitizeHostname raw = if core raw = [] then "pertisk".toList
      else (labelFrom false (core raw)).take 63 := by
  simp only [sanitizeHostname, trimmed_label]
  obtain ⟨-, -, -, -, -, hfirst, -⟩ := core_split raw
  have hhead := head_labelFrom false hfirst
  cases hc : core raw with
  | nil => rfl
  | cons c s =>
    rw [hc, List.head?_cons] at hhead
    obtain ⟨t, ht⟩ := List.head?_eq_some_iff.mp hhead
    rw [ht, if_neg (List.cons_ne_nil c s)]
    rfl

/-- A separator of `s` takes place `n`, counted behind `before`. -/
def SeparatorAt (before s : List Char) (n : ℕ) : Prop :=
  ∃ u c v, s = u ++ c :: v ∧ placesFrom before u = n ∧ takesPlace (before ++ u) c = true ∧
    c.isAlphanum = false

theorem separatorAt_cons (before s : List Char) (n : ℕ) :
    SeparatorAt before (c :: s) n ↔
      (n = 0 ∧ takesPlace before c = true ∧ c.isAlphanum = false) ∨
      ∃ m, (if takesPlace before c then 1 else 0) + m = n ∧ SeparatorAt (before ++ [c]) s m := by
  constructor
  · rintro ⟨u, d, v, hs, hn, hplace, hd⟩
    cases u with
    | nil =>
      obtain ⟨rfl, -⟩ := List.cons.inj hs
      rw [List.append_nil] at hplace
      exact .inl ⟨hn.symm, hplace, hd⟩
    | cons e u =>
      obtain ⟨rfl, htail⟩ := List.cons.inj hs
      refine .inr ⟨_, hn, u, d, v, htail, rfl, ?_, hd⟩
      rwa [List.append_assoc]
  · rintro (⟨rfl, hplace, hc⟩ | ⟨m, hn, u, d, v, rfl, rfl, hplace, hd⟩)
    · exact ⟨[], c, s, rfl, rfl, by rwa [List.append_nil], hc⟩
    · refine ⟨c :: u, d, v, rfl, hn, ?_, hd⟩
      rwa [List.append_assoc] at hplace

/-- A place of the label holds a hyphen when a separator takes it. -/
theorem labelFrom_hyphen_iff (before s : List Char) (n : ℕ) :
    (labelFrom (before.getLast?.any Char.isAlphanum) s)[n]? = some '-' ↔
      SeparatorAt before s n := by
  induction s generalizing before n with
  | nil => simp [labelFrom, SeparatorAt]
  | cons c s ih =>
    have ih := ih (before ++ [c])
    rw [List.getLast?_concat, Option.any_some] at ih
    rw [separatorAt_cons, labelFrom]
    by_cases hc : c.isAlphanum = true
    · have hplace : takesPlace before c = true := by simp [takesPlace, hc]
      rw [hc] at ih
      cases n with
      | zero => simp [hc, hplace, ne_hyphen_of_isAlphanum hc]
      | succ n => simp [hc, hplace, ih, Nat.add_comm 1]
    · rw [Bool.not_eq_true] at hc
      rw [hc] at ih
      have hplace : takesPlace before c = (c == '-' || before.getLast?.any Char.isAlphanum) := by
        simp [takesPlace, hc]
      rw [hc, if_neg Bool.false_ne_true, hplace]
      cases c == '-' || before.getLast?.any Char.isAlphanum with
      | true =>
        cases n with
        | zero => simp
        | succ n => simp [ih, Nat.add_comm 1]
      | false => simp [ih]

theorem getLast_take {s : List Char} {n : ℕ} (hlen : n < s.length) :
    (s.take (n + 1)).getLast? = s[n]? := by
  rw [List.getLast?_take, if_neg (Nat.succ_ne_zero n), Nat.add_sub_cancel,
    List.getElem?_eq_getElem hlen]
  rfl

/-- The cut keeps a label exactly when no separator takes its last place. -/
theorem label_take_iff (hne : s ≠ []) (hfirst : ∀ c ∈ s.head?, c.isAlphanum = true)
    (hlast : ∀ c ∈ s.getLast?, c.isAlphanum = true) :
    Label ((labelFrom false s).take 63) ↔ ¬ SeparatorAt [] s 62 := by
  have hhead := head_labelFrom false hfirst
  have hend := last_labelFrom false hlast
  have hplace := labelFrom_hyphen_iff [] s 62
  rw [List.getLast?_nil, Option.any_none] at hplace
  rw [← hplace]
  obtain ⟨c, t, rfl⟩ := List.exists_cons_of_ne_nil hne
  rw [List.head?_cons] at hhead
  have hlabel : labelFrom false (c :: t) ≠ [] := by
    intro h
    rw [h] at hhead
    cases hhead
  have hcut : ((labelFrom false (c :: t)).take 63).getLast? = some '-' ↔
      (labelFrom false (c :: t))[62]? = some '-' := by
    by_cases hlen : 62 < (labelFrom false (c :: t)).length
    · rw [getLast_take hlen]
    · rw [List.take_of_length_le (by omega), hend, List.getElem?_eq_none (by omega)]
      refine iff_of_false (fun h => ?_) nofun
      exact ne_hyphen_of_isAlphanum (hlast _ h) rfl
  refine ⟨fun h => mt hcut.mpr h.last, fun h => ⟨?_, ?_, ?_, ?_, mt hcut.mp h⟩⟩
  · simpa using hlabel
  · exact List.length_take_le _ _
  · exact fun d hd => labelFrom_chars false d (List.mem_of_mem_take hd)
  · rw [List.head?_take, if_neg (by decide), hhead]
    intro h
    obtain rfl := Option.some.inj h
    exact ne_hyphen_of_isAlphanum (hfirst _ rfl) rfl

theorem cutBesideSeparators_iff (raw : List Char) :
    CutBesideSeparators raw ↔ ¬ SeparatorAt [] (core raw) 62 := by
  constructor
  · rintro h ⟨u, c, v, hs, hn, hplace, hc⟩
    rw [h u c v hs hn hplace] at hc
    cases hc
  · intro h u c v hs hn hplace
    by_contra hc
    exact h ⟨u, c, v, hs, hn, hplace, Bool.not_eq_true _ ▸ hc⟩

theorem label_ends (h : Label s) : (∀ c ∈ s.head?, c.isAlphanum = true) ∧
    ∀ c ∈ s.getLast?, c.isAlphanum = true := by
  constructor
  · intro c hc
    refine (h.chars c (List.mem_of_head? hc)).resolve_right ?_
    rintro rfl
    exact h.first hc
  · intro c hc
    refine (h.chars c (List.mem_of_getLast? hc)).resolve_right ?_
    rintro rfl
    exact h.last hc

/-- A label is left as it is, whatever the case of its letters. -/
theorem sanitizeHostname_label (h : Label s) : sanitizeHostname s = s := by
  obtain ⟨hfirst, hlast⟩ := label_ends h
  have hcore : core s = s := by
    have := core_of_ends (u := []) (v := []) nofun hfirst hlast nofun
    rwa [List.nil_append, List.append_nil] at this
  rw [sanitizeHostname_eq, hcore, if_neg h.nonempty, labelFrom_eq_self false h.chars,
    List.take_of_length_le h.short]

theorem label_pertisk : Label "pertisk".toList where
  nonempty := by decide
  short := by decide
  chars := PeerUrl.forall_of_all (by decide)
  first := by decide
  last := by decide

theorem label_sanitizeHostname_iff (raw : List Char) :
    Label (sanitizeHostname raw) ↔ CutBesideSeparators raw := by
  rw [sanitizeHostname_eq, cutBesideSeparators_iff]
  obtain ⟨-, -, -, -, -, hfirst, hlast⟩ := core_split raw
  by_cases hc : core raw = []
  · rw [if_pos hc, hc]
    refine iff_of_true label_pertisk ?_
    rintro ⟨u, c, v, hs, -⟩
    cases u <;> cases hs
  · rw [if_neg hc]
    exact label_take_iff hc hfirst hlast

theorem hostname_iff (raw : List Char) :
    (Label (sanitizeHostname raw) ∧ (LowerLabel raw → sanitizeHostname raw = raw) ∧
      sanitizeHost raw = sanitizeHostname raw) ↔ CutBesideSeparators raw := by
  rw [← label_sanitizeHostname_iff]
  exact ⟨fun h => h.1, fun h => ⟨h, fun hraw => sanitizeHostname_label hraw.1, rfl⟩⟩

/-- A hyphen behind 62 letters is kept by the cut that drops the letter behind it. -/
theorem cut_at_hyphen : ¬ ∀ raw, Label (sanitizeHostname raw) ∧
    (LowerLabel raw → sanitizeHostname raw = raw) ∧ sanitizeHost raw = sanitizeHostname raw := by
  intro h
  exact (h (List.replicate 62 'a' ++ "-b".toList)).1.last (by decide +kernel)

end Pertisk.Seed
