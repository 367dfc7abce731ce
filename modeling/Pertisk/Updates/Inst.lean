import Pertisk.Text

namespace Pertisk.Updates
open Lib PeerUrl Text

structure UpdatePackage where
  name : List Char
  version : List Char
  available : List Char
  arch : List Char
  origin : List Char
  deriving DecidableEq

def isBracket (c : Char) : Bool := c = '[' || c = ']'

/-- What stands in the first brackets. -/
def bracketed (s : List Char) : Option (List Char) := do
  let (_, after) ← splitOnce s '['
  let (inside, _) ← splitOnce after ']'
  return inside

/-- What stands between the first parenthesis and the last one. -/
def parenthesised (s : List Char) : Option (List Char) := do
  let (_, after) ← splitOnce s '('
  let (inside, _) ← rsplitOnce after ')'
  return inside

/-- `starts_with('[') && ends_with(']')` -/
def isArch (word : List Char) : Bool := word.head? == some '[' && word.getLast? == some ']'

/-- The candidate's version, its origins and its architecture. -/
def parseCandidate (inside : List Char) : List Char × List Char × List Char :=
  let parts := splitWhitespace (trim inside)
  let restOrigin := parts.drop 1
  let available := parts.head?.getD []
  match restOrigin.getLast? with
  | some last =>
    if isArch last then
      (available, [' '].intercalate restOrigin.dropLast, Volume.trimMatches isBracket last)
    else (available, [' '].intercalate restOrigin, [])
  | none => (available, [' '].intercalate restOrigin, [])

def parseInstLine (line : List Char) : Option UpdatePackage := do
  let rest ← stripPrefix (trim line) "Inst "
  let pkg ← (splitWhitespace rest).head?
  let version := ((bracketed rest).map trim).getD []
  let (available, origin, arch) := ((parenthesised rest).map parseCandidate).getD ([], [], [])
  return { name := pkg, version, available, arch, origin }

def parseInstLines (text : List Char) : List UpdatePackage := (lines text).filterMap parseInstLine

/-- A name, a version or an architecture. -/
structure Token where
  chars : List Char
  nonempty : chars ≠ []
  plain : ∀ c ∈ chars, isWhiteSpace c = false ∧ c ∉ "[]()".toList

/-- A word of an origin. -/
structure Word where
  chars : List Char
  nonempty : chars ≠ []
  unblank : ∀ c ∈ chars, isWhiteSpace c = false

/-- What apt notes in brackets behind a package. -/
structure Note where
  chars : List Char
  plain : ∀ c ∈ chars, c ≠ '\n' ∧ c ∉ "[]()".toList

structure Package where
  name : Token
  installed : Option Token
  available : Token
  origins : List Word
  arch : Option Token

/-- The words in the parentheses. -/
def Package.words (p : Package) : List (List Char) :=
  p.available.chars :: p.origins.map Word.chars ++
    (p.arch.map (fun arch => '[' :: arch.chars ++ [']'])).toList

def Package.text (p : Package) (notes : List Note) : List Char :=
  "Inst ".toList ++ p.name.chars ++
    ((p.installed.map (fun v => [' ', '['] ++ v.chars ++ [']'])).getD []) ++
    [' ', '('] ++ [' '].intercalate p.words ++ [')'] ++
    notes.flatMap (fun note => [' ', '['] ++ note.chars ++ [']'])

def Package.record (p : Package) : UpdatePackage where
  name := p.name.chars
  version := (p.installed.map Token.chars).getD []
  available := p.available.chars
  arch := (p.arch.map Token.chars).getD []
  origin := [' '].intercalate (p.origins.map Word.chars)

/-- The first brackets, if there are any, have nothing but blanks in them. -/
def Silent (s : List Char) : Prop :=
  ∀ a b c, s = a ++ '[' :: (b ++ ']' :: c) → '[' ∉ a → ']' ∉ b → ∀ x ∈ b, isWhiteSpace x = true

/-- The version is there, or no brackets of another part stand for it; and so for the
architecture. -/
def Package.Decodable (p : Package) (notes : List Note) : Prop :=
  (p.installed.isSome = true ∨
    Silent ([' '].intercalate p.words ++ [')'] ++
      notes.flatMap (fun note => [' ', '['] ++ note.chars ++ [']']))) ∧
  (p.arch.isSome = true ∨ ∀ w ∈ p.origins.getLast?, isArch w.chars = false)

section texts
variable {s t : List Char}

theorem bracketed_append (h : '[' ∉ s) : bracketed (s ++ t) = bracketed t := by
  unfold bracketed
  by_cases ht : '[' ∈ t
  · obtain ⟨a, b, rfl, ha⟩ := List.eq_append_cons_of_mem ht
    have hs : '[' ∉ s ++ a := fun hmem => (List.mem_append.mp hmem).elim h ha
    rw [← List.append_assoc, splitOnce_append hs, splitOnce_append ha]
    rfl
  · have hst : '[' ∉ s ++ t := fun hmem => (List.mem_append.mp hmem).elim h ht
    rw [splitOnce_of_notMem hst, splitOnce_of_notMem ht]

theorem bracketed_eq_some {inside : List Char} (h : bracketed s = some inside) :
    ∃ a c, s = a ++ '[' :: (inside ++ ']' :: c) ∧ '[' ∉ a ∧ ']' ∉ inside := by
  unfold bracketed at h
  cases hopen : splitOnce s '[' with
  | none =>
    rw [hopen] at h
    cases h
  | some parts =>
    obtain ⟨a, after⟩ := parts
    obtain ⟨rfl, ha⟩ := splitOnce_eq_some hopen
    cases hclose : splitOnce after ']' with
    | none => simp [hopen, hclose] at h
    | some parts =>
      obtain ⟨b, c⟩ := parts
      obtain ⟨rfl, hb⟩ := splitOnce_eq_some hclose
      simp only [hopen, hclose, Option.bind_eq_bind, Option.bind_some, Option.pure_def,
        Option.some.injEq] at h
      subst h
      exact ⟨a, c, rfl, ha, hb⟩

theorem bracketed_of_eq {a b c : List Char} (ha : '[' ∉ a) (hb : ']' ∉ b) :
    bracketed (a ++ '[' :: (b ++ ']' :: c)) = some b := by
  unfold bracketed
  simp only [splitOnce_append ha, splitOnce_append hb, Option.bind_eq_bind, Option.bind_some,
    Option.pure_def]

theorem version_eq_nil_iff : ((bracketed s).map trim).getD [] = [] ↔ Silent s := by
  constructor
  · rintro h a b c rfl ha hb
    rw [bracketed_of_eq ha hb] at h
    exact trim_eq_nil_iff.mp h
  · intro hsilent
    cases h : bracketed s with
    | none => rfl
    | some inside =>
      obtain ⟨a, c, hs, ha, hinside⟩ := bracketed_eq_some h
      exact trim_eq_nil_iff.mpr (hsilent a inside c hs ha hinside)

end texts

section fields
variable (p : Package) (notes : List Note) (t : Token)

theorem Token.trim_chars : trim t.chars = t.chars :=
  trim_eq_self (fun c hc => (t.plain c (List.mem_of_mem_head? hc)).1)
    (fun c hc => (t.plain c (List.mem_of_getLast? hc)).1)

theorem Token.notMem {c : Char} (hc : c ∈ "[]()".toList) : c ∉ t.chars :=
  fun hmem => (t.plain c hmem).2 hc

/-- The architecture is what is left without the brackets. -/
theorem Token.trim_brackets :
    Volume.trimMatches isBracket ('[' :: t.chars ++ [']']) = t.chars := by
  have hplain : ∀ c ∈ t.chars, isBracket c = false := by
    intro c hc
    have hne := (t.plain c hc).2
    simp only [isBracket, Bool.or_eq_false_iff, decide_eq_false_iff_not]
    constructor
    · rintro rfl
      exact hne (by decide)
    · rintro rfl
      exact hne (by decide)
  refine Volume.trimMatches_of_ends (u := ['[']) (v := [']']) (by simp [isBracket])
    (fun c hc => hplain c (List.mem_of_mem_head? hc))
    (fun c hc => hplain c (List.mem_of_getLast? hc)) (by simp [isBracket])

theorem Token.unblank : ∀ c ∈ t.chars, isWhiteSpace c = false := fun c hc => (t.plain c hc).1

theorem words_unblank : ∀ w ∈ p.words, w ≠ [] ∧ ∀ c ∈ w, isWhiteSpace c = false := by
  intro w hw
  rcases List.mem_append.mp hw with hw | hw
  · rcases List.mem_cons.mp hw with rfl | hw
    · exact ⟨p.available.nonempty, p.available.unblank⟩
    · obtain ⟨word, -, rfl⟩ := List.mem_map.mp hw
      exact ⟨word.nonempty, word.unblank⟩
  · obtain ⟨arch, -, rfl⟩ := Option.map_eq_some_iff.mp (Option.mem_toList.mp hw)
    refine ⟨List.cons_ne_nil _ _, fun c hc => ?_⟩
    rcases List.mem_append.mp hc with hc | hc
    · rcases List.mem_cons.mp hc with rfl | hc
      · rfl
      · exact arch.unblank c hc
    · rw [List.mem_singleton.mp hc]
      rfl

theorem splitWhitespace_words :
    splitWhitespace (trim ([' '].intercalate p.words)) = p.words := by
  rw [splitWhitespace_trim]
  exact wordsBy_intercalate rfl (words_unblank p)

/-- The origins and the architecture are told apart by the brackets of the last word. -/
theorem parseCandidate_words : parseCandidate ([' '].intercalate p.words) =
    match p.arch, p.origins.getLast? with
    | some arch, _ =>
      (p.available.chars, [' '].intercalate (p.origins.map Word.chars), arch.chars)
    | none, some last =>
      if isArch last.chars then
        (p.available.chars, [' '].intercalate (p.origins.map Word.chars).dropLast,
          Volume.trimMatches isBracket last.chars)
      else (p.available.chars, [' '].intercalate (p.origins.map Word.chars), [])
    | none, none => (p.available.chars, [], []) := by
  unfold parseCandidate
  rw [splitWhitespace_words]
  cases harch : p.arch with
  | some arch =>
    have hwords : p.words = p.available.chars :: (p.origins.map Word.chars ++
        ['[' :: arch.chars ++ [']']]) := by
      unfold Package.words
      rw [harch]
      rfl
    have his : isArch ('[' :: arch.chars ++ [']']) = true := by
      unfold isArch
      rw [List.getLast?_concat]
      rfl
    rw [hwords]
    simp only [List.drop_one, List.tail_cons, List.getLast?_concat, his, if_true,
      List.dropLast_concat, List.head?_cons, Option.getD_some, arch.trim_brackets]
  | none =>
    have hwords : p.words = p.available.chars :: p.origins.map Word.chars := by
      unfold Package.words
      rw [harch]
      exact List.append_nil _
    rw [hwords]
    simp only [List.drop_one, List.tail_cons, List.getLast?_map, List.head?_cons,
      Option.getD_some]
    cases hlast : p.origins.getLast? with
    | none =>
      rw [List.getLast?_eq_none_iff.mp hlast]
      rfl
    | some last => rfl

/-- What apt notes behind the parentheses. -/
def notesText : List Char := notes.flatMap (fun note => [' ', '['] ++ note.chars ++ [']'])

/-- The installed version, if there is one. -/
def Package.version : List Char :=
  (p.installed.map (fun v => [' ', '['] ++ v.chars ++ [']'])).getD []

theorem notMem_notesText {c : Char} (hc : c ∈ ['(', ')', '\n']) : c ∉ notesText notes := by
  intro hmem
  obtain ⟨note, -, hnote⟩ := List.mem_flatMap.mp hmem
  simp only [List.mem_append] at hnote
  rcases hnote with (hopen | hinside) | hclose
  · simp only [List.mem_cons, List.not_mem_nil, or_false] at hc
    rcases hc with rfl | rfl | rfl <;> exact absurd hopen (by decide)
  · obtain ⟨hline, hplain⟩ := note.plain c hinside
    simp only [List.mem_cons, List.not_mem_nil, or_false] at hc
    rcases hc with rfl | rfl | rfl
    · exact hplain (by decide)
    · exact hplain (by decide)
    · exact hline rfl
  · simp only [List.mem_cons, List.not_mem_nil, or_false] at hc
    rcases hc with rfl | rfl | rfl <;> exact absurd hclose (by decide)

theorem notMem_version {c : Char} (hc : c ∈ ['(', ')', '\n']) : c ∉ p.version := by
  intro hmem
  unfold Package.version at hmem
  cases hv : p.installed with
  | none =>
    rw [hv] at hmem
    cases hmem
  | some v =>
    rw [hv, Option.map_some, Option.getD_some] at hmem
    simp only [List.mem_append] at hmem
    simp only [List.mem_cons, List.not_mem_nil, or_false] at hc
    rcases hmem with (hopen | hinside) | hclose
    · rcases hc with rfl | rfl | rfl <;> exact absurd hopen (by decide)
    · obtain ⟨hblank, hplain⟩ := v.plain c hinside
      rcases hc with rfl | rfl | rfl
      · exact hplain (by decide)
      · exact hplain (by decide)
      · cases hblank
    · rcases hc with rfl | rfl | rfl <;> exact absurd hclose (by decide)

/-- The line behind its first word. -/
def Package.rest : List Char :=
  p.name.chars ++ (p.version ++ ' ' :: '(' :: ([' '].intercalate p.words ++ ')' :: notesText notes))

theorem Package.text_eq : p.text notes = "Inst ".toList ++ p.rest notes := by
  unfold Package.text Package.rest Package.version notesText
  generalize "Inst ".toList = start
  simp only [List.append_assoc, List.cons_append, List.nil_append]

theorem last_rest : ∀ c ∈ (p.rest notes).getLast?, c = ')' ∨ c = ']' := by
  have hlast : ∀ s : List Char, (∀ c ∈ s.getLast?, c = ')' ∨ c = ']') →
      ∀ c ∈ (s ++ notesText notes).getLast?, c = ')' ∨ c = ']' := by
    intro s hs
    induction notes generalizing s with
    | nil =>
      rw [notesText, List.flatMap_nil, List.append_nil]
      exact hs
    | cons note notes ih =>
      have hcons : s ++ notesText (note :: notes) =
          (s ++ ([' ', '['] ++ note.chars) ++ [']']) ++ notesText notes := by
        simp only [notesText, List.flatMap_cons, List.append_assoc]
      rw [hcons]
      refine ih _ (fun c hc => ?_)
      rw [List.getLast?_concat] at hc
      exact .inr (Option.some.inj hc).symm
  have hsplit : p.rest notes =
      (p.name.chars ++ (p.version ++ ' ' :: '(' :: ([' '].intercalate p.words)) ++ [')']) ++
        notesText notes := by
    simp only [Package.rest, List.append_assoc, List.cons_append, List.nil_append]
  rw [hsplit]
  refine hlast _ (fun c hc => ?_)
  rw [List.getLast?_concat] at hc
  exact .inl (Option.some.inj hc).symm

theorem rest_ne_nil : p.rest notes ≠ [] := by
  unfold Package.rest
  exact fun h => p.name.nonempty (List.append_eq_nil_iff.mp h).1

theorem trim_text : trim (p.text notes) = p.text notes := by
  rw [Package.text_eq]
  refine trim_eq_self (fun c hc => ?_) (fun c hc => ?_)
  · cases hc
    rfl
  · rw [List.getLast?_append_of_ne_nil _ (rest_ne_nil p notes)] at hc
    rcases last_rest p notes c hc with rfl | rfl <;> rfl

theorem splitWhitespace_rest : (splitWhitespace (p.rest notes)).head? = some p.name.chars := by
  have hname := wordsBy_word p.name.unblank p.name.nonempty
  unfold splitWhitespace Package.rest Package.version
  cases p.installed with
  | none =>
    rw [Option.map_none, Option.getD_none, List.nil_append, wordsBy_append_blank rfl, hname]
    rfl
  | some v =>
    have hblank : ([' ', '['] ++ v.chars ++ [']']) ++
        ' ' :: '(' :: ([' '].intercalate p.words ++ ')' :: notesText notes) =
        ' ' :: ('[' :: v.chars ++ [']'] ++
          ' ' :: '(' :: ([' '].intercalate p.words ++ ')' :: notesText notes)) := rfl
    rw [Option.map_some, Option.getD_some, hblank, wordsBy_append_blank rfl, hname]
    rfl

theorem parenthesised_rest : parenthesised (p.rest notes) = some ([' '].intercalate p.words) := by
  have hsplit : p.rest notes = (p.name.chars ++ (p.version ++ [' '])) ++
      '(' :: ([' '].intercalate p.words ++ ')' :: notesText notes) := by
    simp only [Package.rest, List.append_assoc, List.cons_append, List.nil_append]
  have hopen : '(' ∉ p.name.chars ++ (p.version ++ [' ']) := by
    simp only [List.mem_append, not_or]
    exact ⟨p.name.notMem (by decide), notMem_version p (by decide), by decide⟩
  unfold parenthesised
  rw [hsplit, splitOnce_append hopen]
  simp only [Option.bind_eq_bind, Option.bind_some,
    rsplitOnce_append _ (notMem_notesText notes (c := ')') (by decide))]
  rfl

theorem version_rest : ((bracketed (p.rest notes)).map trim).getD [] =
    match p.installed with
    | some v => v.chars
    | none => ((bracketed ([' '].intercalate p.words ++ ')' :: notesText notes)).map trim).getD [] := by
  unfold Package.rest Package.version
  cases p.installed with
  | none =>
    have hsplit : p.name.chars ++ ([] ++ ' ' :: '(' ::
        ([' '].intercalate p.words ++ ')' :: notesText notes)) =
        (p.name.chars ++ [' ', '(']) ++ ([' '].intercalate p.words ++ ')' :: notesText notes) := by
      simp only [List.append_assoc, List.cons_append, List.nil_append]
    have hnone : '[' ∉ p.name.chars ++ [' ', '('] := by
      simp only [List.mem_append, not_or]
      exact ⟨p.name.notMem (by decide), by decide⟩
    rw [Option.map_none, Option.getD_none, hsplit, bracketed_append hnone]
  | some v =>
    have hsplit : p.name.chars ++ ([' ', '['] ++ v.chars ++ [']'] ++ ' ' :: '(' ::
        ([' '].intercalate p.words ++ ')' :: notesText notes)) =
        (p.name.chars ++ [' ']) ++ '[' :: (v.chars ++ ']' :: (' ' :: '(' ::
          ([' '].intercalate p.words ++ ')' :: notesText notes))) := by
      simp only [List.append_assoc, List.cons_append, List.nil_append]
    have hnone : '[' ∉ p.name.chars ++ [' '] := by
      simp only [List.mem_append, not_or]
      exact ⟨p.name.notMem (by decide), by decide⟩
    rw [Option.map_some, Option.getD_some, hsplit,
      bracketed_of_eq hnone (v.notMem (by decide)), Option.map_some, Option.getD_some, v.trim_chars]

end fields

section lines

/-- What is read of a line is the record but for the parts that other brackets stand for. -/
theorem parseInstLine_text (p : Package) (notes : List Note) :
    parseInstLine (p.text notes) = some
      { name := p.name.chars
        version := ((bracketed (p.rest notes)).map trim).getD []
        available := (parseCandidate ([' '].intercalate p.words)).1
        origin := (parseCandidate ([' '].intercalate p.words)).2.1
        arch := (parseCandidate ([' '].intercalate p.words)).2.2 } := by
  have hstrip : stripPrefix (p.text notes) "Inst " = some (p.rest notes) := by
    rw [Package.text_eq, stripPrefix_append]
  unfold parseInstLine
  rw [trim_text, hstrip]
  simp only [Option.bind_eq_bind, Option.bind_some, splitWhitespace_rest, parenthesised_rest,
    Option.map_some, Option.getD_some, Option.pure_def]

theorem parseInstLine_iff (p : Package) (notes : List Note) :
    parseInstLine (p.text notes) = some p.record ↔ p.Decodable notes := by
  have hversion : ((bracketed (p.rest notes)).map trim).getD [] = p.record.version ↔
      p.installed.isSome = true ∨
        Silent ([' '].intercalate p.words ++ [')'] ++ notesText notes) := by
    rw [version_rest, Package.record]
    cases p.installed with
    | some v => simp
    | none =>
      rw [List.append_assoc, List.singleton_append, Option.map_none, Option.getD_none]
      exact version_eq_nil_iff.trans ⟨.inr, fun h => h.resolve_left Bool.false_ne_true⟩
  have harch : parseCandidate ([' '].intercalate p.words) =
      (p.record.available, p.record.origin, p.record.arch) ↔
      p.arch.isSome = true ∨ ∀ w ∈ p.origins.getLast?, isArch w.chars = false := by
    rw [parseCandidate_words, Package.record]
    cases p.arch with
    | some arch => simp
    | none =>
      cases hlast : p.origins.getLast? with
      | none =>
        rw [List.getLast?_eq_none_iff.mp hlast]
        simp
      | some last =>
        cases his : isArch last.chars with
        | false => simp [his]
        | true =>
          have hwords : ∀ w ∈ p.origins.map Word.chars, w ≠ [] ∧ ∀ c ∈ w, isWhiteSpace c = false := by
            intro w hw
            obtain ⟨word, -, rfl⟩ := List.mem_map.mp hw
            exact ⟨word.nonempty, word.unblank⟩
          have hne : [' '].intercalate (p.origins.map Word.chars).dropLast ≠
              [' '].intercalate (p.origins.map Word.chars) := by
            intro heq
            have hsplit := congrArg (wordsBy isWhiteSpace) heq
            rw [wordsBy_intercalate rfl hwords,
              wordsBy_intercalate rfl fun w hw => hwords w (List.mem_of_mem_dropLast hw)] at hsplit
            have hlen := congrArg List.length hsplit
            rw [List.length_dropLast, List.length_map] at hlen
            have hpos := List.length_pos_of_mem (List.mem_of_getLast? hlast)
            omega
          simp [his, hne]
  rw [parseInstLine_text, Option.some.injEq, Package.Decodable, UpdatePackage.mk.injEq]
  rw [Prod.mk.injEq, Prod.mk.injEq] at harch
  constructor
  · rintro ⟨-, hv, havail, ha, ho⟩
    exact ⟨hversion.mp hv, harch.mp ⟨havail, ho, ha⟩⟩
  · rintro ⟨hv, ha⟩
    obtain ⟨havail, ho, ha⟩ := harch.mpr ha
    exact ⟨rfl, hversion.mpr hv, havail, ha, ho⟩

/-- A line of apt's output, about a package or about something else. -/
inductive Line
  | inst (p : Package) (notes : List Note)
  | other (text : List Char) (ends : '\n' ∉ text ∧ '\r' ∉ text)
      (foreign : startsWith (trim text) "Inst " = false)

def Line.text : Line → List Char
  | inst p notes => p.text notes
  | other text _ _ => text

def Line.record : Line → Option UpdatePackage
  | inst p _ => some p.record
  | other .. => none

def Line.Clear : Line → Prop
  | inst p notes => p.Decodable notes
  | other .. => True

theorem newline_notMem_text (l : Line) : '\n' ∉ l.text := by
  cases l with
  | other text ends foreign => exact ends.1
  | inst p notes =>
    have hblank : ∀ c : Char, isWhiteSpace c = false → c ≠ '\n' := by
      rintro c hc rfl
      cases hc
    have hwords : '\n' ∉ [' '].intercalate p.words := by
      intro hmem
      have hall : ∀ ws : List (List Char), (∀ w ∈ ws, '\n' ∉ w) → '\n' ∉ [' '].intercalate ws := by
        intro ws hws
        induction ws with
        | nil => exact List.not_mem_nil
        | cons w ws ih =>
          have hrest := ih fun w hw => hws w (List.mem_cons_of_mem _ hw)
          by_cases hnil : ws = []
          · rw [hnil, List.intercalate_singleton]
            exact hws w List.mem_cons_self
          · rw [List.intercalate_cons_of_ne_nil hnil]
            simp only [List.mem_append, not_or]
            exact ⟨⟨hws w List.mem_cons_self, by decide⟩, hrest⟩
      exact hall _ (fun w hw hc => hblank _ ((words_unblank p w hw).2 _ hc) rfl) hmem
    rw [Line.text, Package.text_eq, Package.rest]
    simp only [List.mem_append, List.mem_cons, not_or]
    refine ⟨by decide, fun hc => hblank _ (p.name.unblank _ hc) rfl,
      notMem_version p (by decide), by decide, by decide, hwords, by decide,
      notMem_notesText notes (by decide)⟩

theorem chop_text (l : Line) : chop l.text = l.text := by
  cases l with
  | other text ends foreign => exact chop_of_notMem ends.2
  | inst p notes =>
    refine if_neg fun hlast => ?_
    rw [Line.text, Package.text_eq, List.getLast?_append_of_ne_nil _ (rest_ne_nil p notes)] at hlast
    rcases last_rest p notes _ hlast with h | h <;> exact absurd h (by decide)

/-- The packages of the output are read exactly when each of its lines is clear. -/
theorem parseInstLines_iff (ls : List Line) :
    parseInstLines (unlines (ls.map Line.text)) = ls.filterMap Line.record ↔
      ∀ l ∈ ls, l.Clear := by
  have hlines : lines (unlines (ls.map Line.text)) = ls.map Line.text := by
    refine lines_unlines (fun t ht => ?_) (fun t ht => ?_)
    · obtain ⟨l, -, rfl⟩ := List.mem_map.mp ht
      exact newline_notMem_text l
    · obtain ⟨l, -, rfl⟩ := List.mem_map.mp ht
      exact chop_text l
  unfold parseInstLines
  rw [hlines]
  clear hlines
  induction ls with
  | nil => simp
  | cons l ls ih =>
    rw [List.map_cons, List.forall_mem_cons]
    refine Iff.trans ?_ (and_congr_right' ih)
    cases l with
    | inst p notes =>
      have hone : parseInstLine (Line.inst p notes).text = _ := parseInstLine_text p notes
      have hrecord : (Line.inst p notes).record = some p.record := rfl
      rw [List.filterMap_cons_some hone, List.filterMap_cons_some hrecord, List.cons.injEq,
        Line.Clear, ← parseInstLine_iff, parseInstLine_text, Option.some.injEq]
    | other text ends foreign =>
      have hnone : parseInstLine text = none := by
        unfold parseInstLine
        rw [stripPrefix_eq_none foreign]
        rfl
      have hrecord : (Line.other text ends foreign).record = none := rfl
      rw [Line.text, List.filterMap_cons_none hnone, List.filterMap_cons_none hrecord]
      exact ⟨fun h => ⟨trivial, h⟩, And.right⟩

/-- A package that is not installed yet. -/
def newPackage : Package where
  name := ⟨"curl".toList, by decide, PeerUrl.forall_of_all (by decide)⟩
  installed := none
  available := ⟨"8.14".toList, by decide, PeerUrl.forall_of_all (by decide)⟩
  origins := [⟨"Debian:13/stable".toList, by decide, PeerUrl.forall_of_all (by decide)⟩]
  arch := some ⟨"amd64".toList, by decide, PeerUrl.forall_of_all (by decide)⟩

/-- The architecture is taken for the version that is installed. -/
theorem new_package_installed :
    parseInstLines "Inst curl (8.14 Debian:13/stable [amd64])\n".toList =
      [{ newPackage.record with version := "amd64".toList }] ∧
    unlines [newPackage.text []] = "Inst curl (8.14 Debian:13/stable [amd64])\n".toList ∧
    newPackage.record.version = [] := by
  decide

end lines

end Pertisk.Updates
