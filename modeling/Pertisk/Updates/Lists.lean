import Pertisk.Lib.Text
import Pertisk.Text

namespace Pertisk.Updates
open Lib PeerUrl Text

/-- One apt source line or stanza, or a section of a yum file. -/
structure AptRepository where
  id : List Char
  enabled : Bool
  file : List Char
  types : List Char
  uri : List Char
  suite : List Char
  components : List Char
  deriving DecidableEq

/-- What a source says. -/
structure Deb where
  types : List Char
  uri : List Char
  suite : List Char
  components : List Char
  deriving DecidableEq

/-- The type that a source line begins with, and what follows. -/
def typeWord (rest : List Char) : Option (List Char × List Char) :=
  if startsWith rest "deb-src" then some ("deb-src".toList, rest.drop 7)
  else if startsWith rest "deb" then some ("deb".toList, rest.drop 3)
  else none

def withoutOptions (rest : List Char) : Option (List Char) :=
  if rest.head? = some '[' then (splitOnce rest ']').map (fun parts => trim parts.2) else some rest

def parseDebLine (line : List Char) : Option Deb := do
  let (types, rest) ← typeWord (trim line)
  let rest ← withoutOptions (trim rest)
  match splitWhitespace rest with
  | uri :: suite :: parts => some { types, uri, suite, components := [' '].intercalate parts }
  | _ => none

/-- The line without the mark of a comment, and whether it had none. -/
def uncommented (raw : List Char) : Option (Bool × List Char) :=
  let trimmed := trim raw
  if trimmed.isEmpty then none
  else
    match stripPrefix trimmed "#" with
    | some rest => if startsWith (trim rest) "deb" then some (false, trim rest) else none
    | none => some (true, trimmed)

def parseListLine (raw : List Char) : Option (Bool × Deb) := do
  let (enabled, body) ← uncommented raw
  let repo ← parseDebLine body
  return (enabled, repo)

def repository (file : List Char) (i : ℕ) (entry : Bool × Deb) : AptRepository where
  id := file ++ ':' :: (toString i).toList
  enabled := entry.1
  file := file
  types := entry.2.types
  uri := entry.2.uri
  suite := entry.2.suite
  components := entry.2.components

def parseListFile (file text : List Char) : List AptRepository :=
  (lines text).zipIdx.filterMap (fun (raw, i) => (parseListLine raw).map (repository file i))

/-! ### What a source line is -/

def Blank (s : List Char) : Prop := ∀ c ∈ s, isWhiteSpace c = true

/-- A word that begins with a scheme and a colon. -/
def IsUri (w : List Char) : Prop :=
  ∃ first scheme rest, w = first :: scheme ++ ':' :: rest ∧ first.isAlpha = true ∧
    ∀ c ∈ scheme, c.isAlphanum = true ∨ c ∈ ['+', '-', '.']

/-- A list of options in brackets, with blanks behind it, or nothing. -/
def IsOptions (s : List Char) : Prop :=
  s = [] ∨ ∃ inner gap, s = '[' :: inner ++ ']' :: gap ∧ ']' ∉ inner ∧ Blank gap ∧ gap ≠ []

/-- The type, the options, the address, the suite and the components, with blanks between them. -/
def IsSource (body : List Char) (deb : Deb) : Prop :=
  ∃ gap options rest parts, body = deb.types ++ gap ++ options ++ rest ∧
    (deb.types = "deb".toList ∨ deb.types = "deb-src".toList) ∧ Blank gap ∧ gap ≠ [] ∧
    IsOptions options ∧ splitWhitespace rest = deb.uri :: deb.suite :: parts ∧ IsUri deb.uri ∧
    deb.components = [' '].intercalate parts

/-- A source that may be commented out. -/
def IsEntry (raw : List Char) (entry : Bool × Deb) : Prop :=
  ∃ lead mark body, raw = lead ++ mark ++ body ∧ Blank lead ∧
    (mark = [] ∧ entry.1 = true ∨ ∃ gap, mark = '#' :: gap ∧ Blank gap ∧ entry.1 = false) ∧
    IsSource body entry.2

/-- One repository for each line that is an entry, with its fields, and no other. -/
def Tells (file text : List Char) (repos : List AptRepository) : Prop :=
  (repos.map AptRepository.id).Nodup ∧
  ∀ repo, repo ∈ repos ↔ ∃ i raw entry, (lines text)[i]? = some raw ∧ IsEntry raw entry ∧
    repo = repository file i entry

/-- Two words or more follow `deb`, but not behind a blank, or behind options without one, or the
first of them is no address. -/
def Misread (raw : List Char) : Prop :=
  ∃ enabled body types tail rest uri suite parts,
    uncommented raw = some (enabled, body) ∧ typeWord body = some (types, tail) ∧
    withoutOptions (trim tail) = some rest ∧ splitWhitespace rest = uri :: suite :: parts ∧
    ((∃ c ∈ tail.head?, isWhiteSpace c = false) ∨
      (∃ inner after, trim tail = '[' :: inner ++ ']' :: after ∧ ']' ∉ inner ∧
        ∃ c ∈ after.head?, isWhiteSpace c = false) ∨
      ¬IsUri uri)

section pieces
variable {raw body lead gap trail tail rest s : List Char} {types : List Char} {enabled : Bool}
  {deb : Deb} {entry : Bool × Deb}

theorem typeWord_deb (hgap : Blank gap) (hne : gap ≠ []) :
    typeWord ("deb".toList ++ gap ++ s) = some ("deb".toList, gap ++ s) := by
  obtain ⟨c, gap, rfl⟩ := List.exists_cons_of_ne_nil hne
  have hc : ('-' == c) = false := by
    rw [beq_eq_false_iff_ne]
    rintro rfl
    exact absurd (hgap _ List.mem_cons_self) (by decide)
  have hsrc : startsWith ("deb".toList ++ (c :: gap) ++ s) "deb-src" = false := by
    simp [startsWith, List.isPrefixOf, hc]
  unfold typeWord
  rw [hsrc, List.append_assoc, if_neg Bool.false_ne_true, if_pos (startsWith_append _ _)]
  rfl

theorem typeWord_src : typeWord ("deb-src".toList ++ s) = some ("deb-src".toList, s) := by
  unfold typeWord
  rw [if_pos (startsWith_append _ _)]
  rfl

theorem typeWord_eq_some (h : typeWord body = some (types, tail)) :
    body = types ++ tail ∧ (types = "deb".toList ∨ types = "deb-src".toList) := by
  unfold typeWord at h
  split at h
  · rename_i hstarts
    obtain ⟨t, rfl⟩ := List.isPrefixOf_iff_prefix.mp hstarts
    cases h
    exact ⟨rfl, .inr rfl⟩
  · split at h
    · rename_i hstarts
      obtain ⟨t, rfl⟩ := List.isPrefixOf_iff_prefix.mp hstarts
      cases h
      exact ⟨rfl, .inl rfl⟩
    · cases h

theorem startsWith_of_typeWord (h : typeWord body = some (types, tail)) :
    startsWith body "deb" = true := by
  obtain ⟨rfl, rfl | rfl⟩ := typeWord_eq_some h
  · exact startsWith_append _ _
  · rfl

theorem withoutOptions_eq_some (h : withoutOptions s = some rest) :
    (s.head? ≠ some '[' ∧ rest = s) ∨
      ∃ inner after, s = '[' :: inner ++ ']' :: after ∧ ']' ∉ inner ∧ rest = trim after := by
  unfold withoutOptions at h
  split at h
  · rename_i hopen
    obtain ⟨parts, hparts, rfl⟩ := Option.map_eq_some_iff.mp h
    obtain ⟨before, after⟩ := parts
    obtain ⟨rfl, hbefore⟩ := splitOnce_eq_some hparts
    cases before with
    | nil => cases hopen
    | cons c inner =>
      cases hopen
      exact .inr ⟨inner, after, rfl, fun hmem => hbefore (List.mem_cons_of_mem _ hmem), rfl⟩
  · rename_i hopen
    exact .inl ⟨hopen, (Option.some.inj h).symm⟩

theorem withoutOptions_of_eq {inner after : List Char} (h : ']' ∉ inner) :
    withoutOptions ('[' :: inner ++ ']' :: after) = some (trim after) := by
  have hne : ']' ∉ '[' :: inner := List.not_mem_cons_of_ne_of_not_mem (by decide) h
  have hopen : ('[' :: inner ++ ']' :: after).head? = some '[' := rfl
  unfold withoutOptions
  rw [if_pos hopen, splitOnce_append hne]
  rfl

theorem uncommented_eq_some (h : uncommented raw = some (enabled, body)) :
    trim body = body ∧ ∃ lead mark trail, raw = lead ++ mark ++ body ++ trail ∧ Blank lead ∧
      Blank trail ∧
      (mark = [] ∧ enabled = true ∨ ∃ gap, mark = '#' :: gap ∧ Blank gap ∧ enabled = false) := by
  obtain ⟨u, v, hraw, hu, hv, -, -⟩ := trim_split raw
  unfold uncommented at h
  dsimp only at h
  split at h
  · cases h
  · split at h
    · rename_i rest hstrip
      split at h
      · cases h
        obtain ⟨u', v', hrest, hu', hv', -, -⟩ := trim_split rest
        refine ⟨trim_trim rest, u, '#' :: u', v' ++ v, ?_, hu, ?_, .inr ⟨u', rfl, hu', rfl⟩⟩
        · have htrim := stripPrefix_eq_some hstrip
          rw [hrest] at htrim
          rw [hraw, htrim]
          simp
        · intro c hc
          exact (List.mem_append.mp hc).elim (hv' c) (hv c)
      · cases h
    · cases h
      refine ⟨trim_trim raw, u, [], v, ?_, hu, hv, .inl ⟨rfl, rfl⟩⟩
      rw [List.append_nil]
      exact hraw

/-- What stands before a source, and blanks behind it, do not change what is read. -/
theorem uncommented_of_parts {mark : List Char} (hlead : Blank lead) (htrail : Blank trail)
    (hbody : startsWith body "deb" = true) (hlast : ∀ c ∈ body.getLast?, isWhiteSpace c = false)
    (hmark : mark = [] ∧ enabled = true ∨
      ∃ gap, mark = '#' :: gap ∧ Blank gap ∧ enabled = false) :
    uncommented (lead ++ (mark ++ body) ++ trail) = some (enabled, body) := by
  obtain ⟨t, rfl⟩ := List.isPrefixOf_iff_prefix.mp hbody
  have hhead : ∀ c ∈ ("deb".toList ++ t).head?, isWhiteSpace c = false := by
    intro c hc
    cases hc
    rfl
  have hne : "deb".toList ++ t ≠ [] := nofun
  rcases hmark with ⟨rfl, rfl⟩ | ⟨gap, rfl, hgap, rfl⟩
  · have htrim : trim (lead ++ ([] ++ ("deb".toList ++ t)) ++ trail) = "deb".toList ++ t :=
      trim_of_ends hlead hhead hlast htrail
    unfold uncommented
    rw [htrim]
    rfl
  · have htrim : trim (lead ++ ('#' :: gap ++ ("deb".toList ++ t)) ++ trail) =
        "#".toList ++ (gap ++ ("deb".toList ++ t)) := by
      refine trim_of_ends hlead (fun c hc => ?_) (fun c hc => ?_) htrail
      · cases hc
        rfl
      · rw [List.getLast?_append_of_ne_nil _ hne] at hc
        exact hlast c hc
    have hinner : trim (gap ++ ("deb".toList ++ t)) = "deb".toList ++ t := by
      have hends := trim_of_ends (v := []) hgap hhead hlast (fun c hc => by cases hc)
      rwa [List.append_nil] at hends
    unfold uncommented
    simp only [htrim, stripPrefix_append, hinner, startsWith_append, if_true]
    rfl

end pieces

section entries
variable {raw : List Char} {entry : Bool × Deb} {uri : List Char}

theorem IsUri.head (h : IsUri uri) : ∃ c rest, uri = c :: rest ∧ c ≠ '[' := by
  obtain ⟨first, scheme, rest, rfl, hfirst, -⟩ := h
  refine ⟨first, scheme ++ ':' :: rest, rfl, ?_⟩
  rintro rfl
  exact absurd hfirst (by decide)

/-- What is left of a text that words were read of. -/
theorem trim_ne_nil {s w : List Char} {ws : List (List Char)} (h : splitWhitespace s = w :: ws) :
    trim s ≠ [] := by
  intro hnil
  have hwords := splitWhitespace_trim s
  rw [hnil, h] at hwords
  cases hwords

theorem head_trim {s w : List Char} {ws : List (List Char)} (h : splitWhitespace s = w :: ws) :
    (trim s).head? = w.head? := by
  obtain ⟨u, v, -, -, -, hhead, -⟩ := trim_split s
  have hwords := (splitWhitespace_trim s).trans h
  cases htrim : trim s with
  | nil => exact absurd htrim (trim_ne_nil h)
  | cons c t =>
    have hc : isWhiteSpace c = false := hhead c (by rw [htrim]; rfl)
    obtain ⟨w', ws', hfirst⟩ := wordsBy_cons (s := t) hc
    rw [htrim, splitWhitespace, hfirst] at hwords
    cases hwords
    rfl

/-- An entry is read as it is, and nothing is wrong with its blanks and its address. -/
theorem parseListLine_of_entry (h : IsEntry raw entry) :
    parseListLine raw = some entry ∧ ¬Misread raw := by
  obtain ⟨lead, mark, body, rfl, hlead, hmark, hsource⟩ := h
  obtain ⟨gap, options, rest, parts, rfl, htypes, hgap, hgapne, hoptions, hwords, huri, hparts⟩ :=
    hsource
  obtain ⟨u, v, hrest, hu, hv, -, hlast⟩ := trim_split rest
  have hne := trim_ne_nil hwords
  obtain ⟨c, ws, huric, hc⟩ := huri.head
  have hhead : (trim rest).head? = some c := by
    rw [head_trim hwords, huric]
    rfl
  have hfirst : ∀ d ∈ (trim rest).head?, isWhiteSpace d = false := by
    obtain ⟨-, -, -, -, -, hfirst, -⟩ := trim_split rest
    exact hfirst
  -- The text behind the type, without the blanks at its end.
  let tail := gap ++ (options ++ (u ++ trim rest))
  have hbody : entry.2.types ++ gap ++ options ++ rest = entry.2.types ++ tail ++ v := by
    simp only [tail]
    conv_lhs => rw [hrest]
    simp only [List.append_assoc]
  have hword : typeWord (entry.2.types ++ tail) = some (entry.2.types, tail) := by
    rcases htypes with htypes | htypes
    · rw [htypes]
      simp only [tail]
      rw [← List.append_assoc]
      exact typeWord_deb hgap hgapne
    · rw [htypes]
      exact typeWord_src
  have htailne : tail ≠ [] := fun h => hgapne (List.append_eq_nil_iff.mp h).1
  have htaillast : ∀ d ∈ tail.getLast?, isWhiteSpace d = false := by
    intro d hd
    have hassoc : tail = (gap ++ (options ++ u)) ++ trim rest := by
      simp only [tail, List.append_assoc]
    rw [hassoc, List.getLast?_append_of_ne_nil _ hne] at hd
    exact hlast d hd
  have hbodylast : ∀ d ∈ (entry.2.types ++ tail).getLast?, isWhiteSpace d = false := by
    intro d hd
    rw [List.getLast?_append_of_ne_nil _ htailne] at hd
    exact htaillast d hd
  have huncommented : uncommented (lead ++ mark ++ (entry.2.types ++ gap ++ options ++ rest)) =
      some (entry.1, entry.2.types ++ tail) := by
    have hparts := uncommented_of_parts hlead hv (startsWith_of_typeWord hword) hbodylast hmark
    rw [hbody, ← hparts]
    simp only [List.append_assoc]
  have hinner : ∃ s, trim tail = s ∧ withoutOptions s = some (trim rest) ∧
      ¬∃ inner after, s = '[' :: inner ++ ']' :: after ∧ ']' ∉ inner ∧
        ∃ d ∈ after.head?, isWhiteSpace d = false := by
    rcases hoptions with rfl | ⟨inner, gap', rfl, hinner, hgap', hgapne'⟩
    · refine ⟨trim rest, ?_, ?_, ?_⟩
      · have hblank : ∀ d ∈ gap ++ u, isWhiteSpace d = true := fun d hd =>
          (List.mem_append.mp hd).elim (hgap d) (hu d)
        have hends := trim_of_ends (v := []) hblank hfirst hlast (fun d hd => by cases hd)
        rw [List.append_nil] at hends
        rw [← hends]
        simp only [tail, List.nil_append, List.append_assoc]
      · unfold withoutOptions
        rw [hhead, if_neg fun h => hc (Option.some.inj h)]
      · rintro ⟨inner, after, heq, -⟩
        rw [heq] at hhead
        exact hc (Option.some.inj hhead).symm
    · refine ⟨'[' :: inner ++ ']' :: (gap' ++ u ++ trim rest), ?_, ?_, ?_⟩
      · have hends : trim (gap ++ ('[' :: inner ++ ']' :: (gap' ++ u ++ trim rest)) ++ []) = _ :=
          trim_of_ends hgap (fun d hd => by cases hd; rfl) (fun d hd => ?_)
            (fun d hd => by cases hd)
        · rw [List.append_nil] at hends
          rw [← hends]
          simp only [tail, List.append_assoc, List.cons_append]
        · have hassoc : '[' :: inner ++ ']' :: (gap' ++ u ++ trim rest) =
              ('[' :: inner ++ ']' :: (gap' ++ u)) ++ trim rest := by
            simp only [List.append_assoc, List.cons_append]
          rw [hassoc, List.getLast?_append_of_ne_nil _ hne] at hd
          exact hlast d hd
      · have hblank : ∀ d ∈ gap' ++ u, isWhiteSpace d = true := fun d hd =>
          (List.mem_append.mp hd).elim (hgap' d) (hu d)
        have hends := trim_of_ends (v := []) hblank hfirst hlast (fun d hd => by cases hd)
        rw [List.append_nil] at hends
        rw [withoutOptions_of_eq hinner, hends]
      · rintro ⟨inner', after, heq, hinner', d, hd, hblank⟩
        have hne' : ']' ∉ '[' :: inner := List.not_mem_cons_of_ne_of_not_mem (by decide) hinner
        have hne'' : ']' ∉ '[' :: inner' := List.not_mem_cons_of_ne_of_not_mem (by decide) hinner'
        have hsplit := congrArg (fun l => splitOnce l ']') heq
        simp only [splitOnce_append hne', splitOnce_append hne'', Option.some.injEq,
          Prod.mk.injEq] at hsplit
        obtain ⟨e, gap', rfl⟩ := List.exists_cons_of_ne_nil hgapne'
        rw [← hsplit.2] at hd
        cases hd
        rw [hgap' _ List.mem_cons_self] at hblank
        cases hblank
  obtain ⟨s, hs, hrest', hjoined⟩ := hinner
  have hsplit : splitWhitespace (trim rest) = entry.2.uri :: entry.2.suite :: parts :=
    (splitWhitespace_trim rest).trans hwords
  constructor
  · have htrim : trim (entry.2.types ++ tail) = entry.2.types ++ tail := by
      refine trim_eq_self (fun d hd => ?_) hbodylast
      obtain ⟨t, ht⟩ := List.isPrefixOf_iff_prefix.mp (startsWith_of_typeWord hword)
      rw [← ht] at hd
      cases hd
      rfl
    unfold parseListLine
    simp only [huncommented, Option.bind_eq_bind, Option.bind_some]
    unfold parseDebLine
    simp only [htrim, hword, hs, hrest', hsplit, Option.bind_eq_bind, Option.bind_some, ← hparts]
    rfl
  · rintro ⟨enabled, body', types', tail', rest', uri', suite', parts', hbody', hword', hrest'',
      hwords', hwrong⟩
    rw [huncommented] at hbody'
    cases hbody'
    rw [hword] at hword'
    cases hword'
    rw [hs] at hrest''
    rw [hrest'] at hrest''
    cases hrest''
    rw [hsplit] at hwords'
    cases hwords'
    rcases hwrong with ⟨d, hd, hblank⟩ | ⟨inner, after, heq, hafter⟩ | hnot
    · obtain ⟨e, gap, rfl⟩ := List.exists_cons_of_ne_nil hgapne
      cases hd
      rw [hgap _ List.mem_cons_self] at hblank
      cases hblank
    · exact hjoined ⟨inner, after, hs ▸ heq, hafter⟩
    · exact hnot huri

theorem parseDebLine_eq_some {line : List Char} {deb : Deb} (h : parseDebLine line = some deb) :
    ∃ tail rest parts, typeWord (trim line) = some (deb.types, tail) ∧
      withoutOptions (trim tail) = some rest ∧
      splitWhitespace rest = deb.uri :: deb.suite :: parts ∧
      deb.components = [' '].intercalate parts := by
  unfold parseDebLine at h
  obtain ⟨⟨types, tail⟩, htypes, h⟩ := Option.bind_eq_some_iff.mp h
  obtain ⟨rest, hrest, h⟩ := Option.bind_eq_some_iff.mp h
  split at h
  · rename_i uri suite parts hwords
    cases h
    exact ⟨tail, rest, parts, htypes, hrest, hwords, rfl⟩
  · cases h

theorem parseListLine_eq_some (h : parseListLine raw = some entry) :
    ∃ body, uncommented raw = some (entry.1, body) ∧ parseDebLine body = some entry.2 := by
  unfold parseListLine at h
  obtain ⟨⟨enabled, body⟩, hbody, h⟩ := Option.bind_eq_some_iff.mp h
  obtain ⟨deb, hdeb, h⟩ := Option.bind_eq_some_iff.mp h
  cases h
  exact ⟨body, hbody, hdeb⟩

theorem exists_cons_of_head {s : List Char} (hne : trim s ≠ [])
    (h : ¬∃ c ∈ s.head?, isWhiteSpace c = false) :
    ∃ u v, s = u ++ trim s ++ v ∧ Blank u ∧ u ≠ [] ∧ Blank v := by
  obtain ⟨u, v, hs, hu, hv, hhead, -⟩ := trim_split s
  refine ⟨u, v, hs, hu, ?_, hv⟩
  rintro rfl
  obtain ⟨c, t, hcons⟩ := List.exists_cons_of_ne_nil hne
  refine h ⟨c, ?_, hhead c (by rw [hcons]; rfl)⟩
  rw [hs, hcons]
  rfl

/-- What is read is an entry, where nothing is wrong with the blanks and the address. -/
theorem entry_of_parseListLine (h : parseListLine raw = some entry) (hclear : ¬Misread raw) :
    IsEntry raw entry := by
  obtain ⟨body, hbody, hdeb⟩ := parseListLine_eq_some h
  obtain ⟨htrim, lead, mark, trail, rfl, hlead, htrail, hmark⟩ := uncommented_eq_some hbody
  obtain ⟨tail, rest, parts, hword, hoptions, hwords, hparts⟩ := parseDebLine_eq_some hdeb
  rw [htrim] at hword
  obtain ⟨rfl, htypes⟩ := typeWord_eq_some hword
  have huri : IsUri entry.2.uri := by
    by_contra hnot
    exact hclear ⟨_, _, _, _, _, _, _, _, hbody, hword, hoptions, hwords, .inr (.inr hnot)⟩
  have hgap : ¬∃ c ∈ tail.head?, isWhiteSpace c = false := fun hgap =>
    hclear ⟨_, _, _, _, _, _, _, _, hbody, hword, hoptions, hwords, .inl hgap⟩
  have hne : trim tail ≠ [] := by
    intro hnil
    rw [hnil] at hoptions
    cases hoptions
    cases hwords
  obtain ⟨u, v, htail, hu, hune, hv⟩ := exists_cons_of_head hne hgap
  have hblank : Blank (v ++ trail) := fun c hc => (List.mem_append.mp hc).elim (hv c) (htrail c)
  refine ⟨lead, mark, entry.2.types ++ tail ++ trail, ?_, hlead, hmark, ?_⟩
  · simp only [List.append_assoc]
  rcases withoutOptions_eq_some hoptions with ⟨-, rfl⟩ | ⟨inner, after, hafter, hinner, rfl⟩
  · refine ⟨u, [], trim tail ++ (v ++ trail), parts, ?_, htypes, hu, hune, .inl rfl, ?_, huri,
      hparts⟩
    · conv_lhs => rw [htail]
      simp only [List.append_assoc, List.nil_append]
    · exact (wordsBy_append_blanks hblank).trans hwords
  · have hjoined : ¬∃ c ∈ after.head?, isWhiteSpace c = false := fun hjoined =>
      hclear ⟨_, _, _, _, _, _, _, _, hbody, hword, hoptions, hwords,
        .inr (.inl ⟨inner, after, hafter, hinner, hjoined⟩)⟩
    have hne' : trim after ≠ [] := by
      intro hnil
      rw [hnil] at hwords
      cases hwords
    obtain ⟨u', v', hsplit, hu', hune', hv'⟩ := exists_cons_of_head hne' hjoined
    have hblank' : Blank (v' ++ (v ++ trail)) := fun c hc =>
      (List.mem_append.mp hc).elim (hv' c) (hblank c)
    refine ⟨u, '[' :: inner ++ ']' :: u', trim after ++ (v' ++ (v ++ trail)), parts, ?_, htypes,
      hu, hune, .inr ⟨inner, u', rfl, hinner, hu', hune'⟩, ?_, huri, hparts⟩
    · conv_lhs => rw [htail, hafter, hsplit]
      simp only [List.append_assoc, List.cons_append]
    · exact (wordsBy_append_blanks hblank').trans hwords

theorem entry_iff (hclear : ¬Misread raw) : parseListLine raw = some entry ↔ IsEntry raw entry :=
  ⟨fun h => entry_of_parseListLine h hclear, fun h => (parseListLine_of_entry h).1⟩

/-- Something is read of a line that is misread. -/
theorem exists_of_misread (h : Misread raw) : ∃ entry, parseListLine raw = some entry := by
  obtain ⟨enabled, body, types, tail, rest, uri, suite, parts, hbody, hword, hrest, hwords, -⟩ := h
  obtain ⟨htrim, -⟩ := uncommented_eq_some hbody
  refine ⟨(enabled, { types, uri, suite, components := [' '].intercalate parts }), ?_⟩
  unfold parseListLine
  simp only [hbody, Option.bind_eq_bind, Option.bind_some]
  unfold parseDebLine
  simp only [htrim, hword, hrest, hwords, Option.bind_eq_bind, Option.bind_some]
  rfl

end entries

section files
variable {file text : List Char} {repo : AptRepository}

theorem repository_id_inj {i j : ℕ} {entry entry' : Bool × Deb}
    (h : (repository file i entry).id = (repository file j entry').id) : i = j := by
  have hdigits : (toString i).toList = (toString j).toList :=
    List.cons.inj (List.append_cancel_left h) |>.2
  have hi := decimal_toString i
  rw [hdigits, decimal_toString] at hi
  exact (Option.some.inj hi).symm

theorem mem_parseListFile : repo ∈ parseListFile file text ↔ ∃ i raw entry,
    (lines text)[i]? = some raw ∧ parseListLine raw = some entry ∧
      repo = repository file i entry := by
  unfold parseListFile
  rw [List.mem_filterMap]
  constructor
  · rintro ⟨⟨raw, i⟩, hmem, h⟩
    obtain ⟨entry, hentry, rfl⟩ := Option.map_eq_some_iff.mp h
    exact ⟨i, raw, entry, List.mem_zipIdx_iff_getElem?.mp hmem, hentry, rfl⟩
  · rintro ⟨i, raw, entry, hraw, hentry, rfl⟩
    refine ⟨(raw, i), List.mem_zipIdx_iff_getElem?.mpr hraw, ?_⟩
    dsimp only
    rw [hentry]
    rfl

/-- The repositories of a file have different ids. -/
theorem parseListFile_nodup : ((parseListFile file text).map AptRepository.id).Nodup := by
  unfold parseListFile
  have hidx : (((lines text).zipIdx).map Prod.snd).Nodup := by
    rw [List.zipIdx_map_snd]
    exact List.nodup_range'
  generalize (lines text).zipIdx = pairs at hidx
  induction pairs with
  | nil => exact List.nodup_nil
  | cons pair pairs ih =>
    obtain ⟨raw, i⟩ := pair
    obtain ⟨hnew, hrest⟩ := List.nodup_cons.mp hidx
    rw [List.filterMap_cons]
    split
    · exact ih hrest
    · rename_i repo hrepo
      obtain ⟨entry, -, rfl⟩ := Option.map_eq_some_iff.mp hrepo
      rw [List.map_cons, List.nodup_cons]
      refine ⟨fun hmem => hnew ?_, ih hrest⟩
      obtain ⟨other, hother, hid⟩ := List.mem_map.mp hmem
      obtain ⟨⟨raw', j⟩, hpair, hj⟩ := List.mem_filterMap.mp hother
      obtain ⟨entry', -, rfl⟩ := Option.map_eq_some_iff.mp hj
      exact List.mem_map.mpr ⟨(raw', j), hpair, repository_id_inj hid⟩

/-- A file is listed as it is exactly when none of its lines is misread. -/
theorem parseListFile_tells_iff (file text : List Char) :
    Tells file text (parseListFile file text) ↔ ∀ raw ∈ lines text, ¬Misread raw := by
  constructor
  · rintro ⟨-, htells⟩ raw hraw hmis
    obtain ⟨i, hi⟩ := List.getElem?_of_mem hraw
    obtain ⟨entry, hentry⟩ := exists_of_misread hmis
    obtain ⟨j, raw', entry', hj, hentry', heq⟩ :=
      (htells (repository file i entry)).mp (mem_parseListFile.mpr ⟨i, raw, entry, hi, hentry, rfl⟩)
    obtain rfl := repository_id_inj (congrArg AptRepository.id heq)
    obtain rfl : raw = raw' := Option.some.inj (hi.symm.trans hj)
    exact (parseListLine_of_entry hentry').2 hmis
  · intro hclear
    refine ⟨parseListFile_nodup, fun repo => mem_parseListFile.trans ?_⟩
    constructor
    · rintro ⟨i, raw, entry, hi, hentry, rfl⟩
      exact ⟨i, raw, entry, hi, (entry_iff (hclear raw (List.mem_of_getElem? hi))).mp hentry, rfl⟩
    · rintro ⟨i, raw, entry, hi, hentry, rfl⟩
      exact ⟨i, raw, entry, hi, (entry_iff (hclear raw (List.mem_of_getElem? hi))).mpr hentry, rfl⟩

/-- A comment that is no source. -/
def prose : List Char := "# debian packages are signed".toList

/-- What the comment is listed as. -/
def proseEntry : Bool × Deb :=
  (false,
    { types := "deb".toList, uri := "ian".toList, suite := "packages".toList
      components := "are signed".toList })

theorem prose_misread : Misread prose := by
  refine ⟨false, "debian packages are signed".toList, "deb".toList, "ian packages are signed".toList,
    "ian packages are signed".toList, "ian".toList, "packages".toList,
    ["are".toList, "signed".toList], by decide, by decide, by decide, by decide, .inl ⟨'i', ?_, ?_⟩⟩
  · rfl
  · decide

theorem prose_listed :
    parseListFile "etc/apt/sources.list".toList prose =
      [repository "etc/apt/sources.list".toList 0 proseEntry] ∧
    ¬Tells "etc/apt/sources.list".toList prose
      (parseListFile "etc/apt/sources.list".toList prose) := by
  have hlist : parseListFile "etc/apt/sources.list".toList prose =
      [repository "etc/apt/sources.list".toList 0 proseEntry] := by decide
  refine ⟨hlist, fun htells => ?_⟩
  have hmem : repository "etc/apt/sources.list".toList 0 proseEntry ∈
      parseListFile "etc/apt/sources.list".toList prose := by
    rw [hlist]
    exact List.mem_singleton_self _
  obtain ⟨i, raw, entry, hraw, hentry, -⟩ := (htells.2 _).mp hmem
  obtain rfl : raw = prose := by
    have hlines : lines prose = [prose] := by decide
    have hin := List.mem_of_getElem? hraw
    rwa [hlines, List.mem_singleton] at hin
  exact (parseListLine_of_entry hentry).2 prose_misread

end files

end Pertisk.Updates
