import Mathlib.Data.List.Nodup
import Pertisk.Updates.Lists

namespace Pertisk.Updates
open Lib PeerUrl Text

/-- What `set_list_enabled` writes for the line of the repository. -/
def switchLine (enabled : Bool) (raw : List Char) : List Char :=
  let trimmed := trim raw
  let body := ((stripPrefix trimmed "#").map trim).getD trimmed
  if enabled then body
  else if startsWith trimmed "#" then raw
  else "# ".toList ++ body

def lineId (file : List Char) (i : ℕ) : List Char := file ++ ':' :: (toString i).toList

def setListEnabled (text : List Char) (repo : AptRepository) (enabled : Bool) :
    Except (List Char) (List Char) :=
  if (lines text).zipIdx.any (fun p => decide (lineId repo.file p.2 = repo.id)) then
    .ok (unlines ((lines text).zipIdx.map (fun p =>
      if lineId repo.file p.2 = repo.id then switchLine enabled p.1 else p.1)))
  else .error "repository line not found in file".toList

/-- The repository is as asked for, and any other as it was. -/
def AptRepository.switch (id : List Char) (enabled : Bool) (r : AptRepository) : AptRepository :=
  if r.id = id then { r with enabled } else r

/-- The one-line source files, by their paths and in the order in which they are listed. -/
structure Sources where
  files : List (List Char × List Char)
  nodup : (files.map Prod.fst).Nodup

namespace Sources

/-- `list_repos_at`. -/
def repos (s : Sources) : List AptRepository :=
  s.files.flatMap (fun p => parseListFile p.1 p.2)

def read (s : Sources) (file : List Char) : Option (List Char) :=
  (s.files.find? (fun p => decide (p.1 = file))).map Prod.snd

def write (s : Sources) (file text : List Char) : Sources where
  files := s.files.map (fun p => (p.1, if p.1 = file then text else p.2))
  nodup := by
    rw [List.map_map]
    exact s.nodup

def find (s : Sources) (id : List Char) : Option AptRepository :=
  s.repos.find? (fun r => decide (r.id = id))

/-- The files afterwards and the answer. -/
def setRepoAt (s : Sources) (id : List Char) (enabled : Bool) :
    Sources × Except (List Char) AptRepository :=
  match s.find id with
  | none => (s, .error ("repository not found: ".toList ++ id))
  | some repo =>
    if repo.enabled = enabled then (s, .ok repo)
    else
      match s.read repo.file with
      | none => (s, .error ("read /".toList ++ repo.file))
      | some text =>
        match setListEnabled text repo enabled with
        | .error e => (s, .error e)
        | .ok updated =>
          let s := s.write repo.file updated
          match s.find id with
          | some r => (s, .ok r)
          | none => (s, .error "updated repository but failed to read it back".toList)

end Sources

/-! ### One line -/

section line
variable {raw body : List Char} {was : Bool} {entry : Bool × Deb}

theorem trim_chop (l : List Char) : trim (chop l) = trim l := by
  unfold chop
  split
  · next hlast =>
    obtain ⟨u, v, hl, hu, hv, hhead, hend⟩ := trim_split l.dropLast
    have hl : l = u ++ trim l.dropLast ++ (v ++ ['\r']) := by
      conv_lhs => rw [← List.dropLast_append_getLast? _ hlast, hl]
      exact List.append_assoc _ _ _
    have hblank : ∀ c ∈ v ++ ['\r'], isWhiteSpace c = true := by
      intro c hc
      rcases List.mem_append.mp hc with hc | hc
      · exact hv c hc
      · obtain rfl := List.mem_singleton.mp hc
        decide
    conv_rhs => rw [hl]
    exact (trim_of_ends hu hhead hend hblank).symm
  · rfl

theorem parseListLine_chop (l : List Char) : parseListLine (chop l) = parseListLine l := by
  unfold parseListLine uncommented
  rw [trim_chop]

/-- What is left of a line without its mark, and whether it has one. -/
theorem uncommented_body (h : uncommented raw = some (was, body)) :
    ((stripPrefix (trim raw) "#").map trim).getD (trim raw) = body ∧
      startsWith (trim raw) "#" = !was := by
  unfold uncommented at h
  dsimp only at h
  split at h
  · cases h
  · split at h
    · next rest hstrip =>
      split at h
      · cases h
        rw [hstrip]
        refine ⟨rfl, ?_⟩
        rw [stripPrefix_eq_some hstrip]
        exact startsWith_append _ _
      · cases h
    · next hstrip =>
      cases h
      rw [hstrip]
      refine ⟨rfl, ?_⟩
      cases hmark : startsWith (trim raw) "#" with
      | false => rfl
      | true =>
        unfold stripPrefix at hstrip
        rw [if_pos hmark] at hstrip
        cases hstrip

/-- The line that is written tells of the same source, switched as asked for. -/
theorem parseListLine_switchLine (h : parseListLine raw = some entry) (enabled : Bool) :
    parseListLine (chop (switchLine enabled raw)) = some (enabled, entry.2) := by
  obtain ⟨body, hbody, hdeb⟩ := parseListLine_eq_some h
  obtain ⟨hsame, hmark⟩ := uncommented_body hbody
  obtain ⟨htrim, -⟩ := uncommented_eq_some hbody
  obtain ⟨tail, rest, parts, hword, -⟩ := parseDebLine_eq_some hdeb
  rw [htrim] at hword
  have hstarts := startsWith_of_typeWord hword
  have hlast : ∀ c ∈ body.getLast?, isWhiteSpace c = false := by
    obtain ⟨-, -, -, -, -, -, hlast⟩ := trim_split body
    rwa [htrim] at hlast
  have hblank : Blank [] := fun c hc => by cases hc
  have hread (b : Bool) (mark : List Char) (hmark : mark = [] ∧ b = true ∨
      ∃ gap, mark = '#' :: gap ∧ Blank gap ∧ b = false) :
      parseListLine (mark ++ body) = some (b, entry.2) := by
    have hparts := uncommented_of_parts hblank hblank hstarts hlast hmark
    rw [List.nil_append, List.append_nil] at hparts
    unfold parseListLine
    simp only [hparts, hdeb, Option.bind_eq_bind, Option.bind_some]
    rfl
  rw [parseListLine_chop]
  unfold switchLine
  dsimp only
  rw [hsame, hmark]
  cases enabled with
  | true => exact hread true [] (.inl ⟨rfl, rfl⟩)
  | false =>
    cases hwas : entry.1 with
    | true =>
      refine hread false ['#', ' '] (.inr ⟨[' '], rfl, fun c hc => ?_, rfl⟩)
      obtain rfl := List.mem_singleton.mp hc
      decide
    | false =>
      show parseListLine raw = some (false, entry.2)
      rw [h]
      exact congrArg some (Prod.ext hwas rfl)

end line

/-! ### One file -/

section file
variable {file file' text : List Char} {repo r r' : AptRepository} {i j : ℕ}

theorem lineId_inj (h : lineId file i = lineId file' j) : file = file' ∧ i = j := by
  have hcolon (n : ℕ) : ':' ∉ (toString n).toList := notMem_toString (by decide)
  have hdigits : (toString i).toList = (toString j).toList := by
    have hlast := congrArg (lastField ':') h
    unfold lineId at hlast
    rwa [lastField_cons_append (hcolon i), lastField_cons_append (hcolon j)] at hlast
  refine ⟨?_, ?_⟩
  · unfold lineId at h
    rw [hdigits] at h
    exact List.append_cancel_right h
  · have hi := decimal_toString i
    rw [hdigits, decimal_toString] at hi
    exact (Option.some.inj hi).symm

theorem parseListFile_id (h : r ∈ parseListFile file text) :
    r.file = file ∧ ∃ i, r.id = lineId file i := by
  obtain ⟨i, raw, entry, -, -, rfl⟩ := mem_parseListFile.mp h
  exact ⟨rfl, i, rfl⟩

theorem parseListFile_id_inj (h : r ∈ parseListFile file text) (h' : r' ∈ parseListFile file text)
    (hid : r.id = r'.id) : r = r' := by
  obtain ⟨i, raw, entry, hraw, hentry, rfl⟩ := mem_parseListFile.mp h
  obtain ⟨j, raw', entry', hraw', hentry', rfl⟩ := mem_parseListFile.mp h'
  obtain rfl := repository_id_inj hid
  rw [hraw] at hraw'
  obtain rfl := Option.some.inj hraw'
  rw [hentry] at hentry'
  obtain rfl := Option.some.inj hentry'
  rfl

theorem zipIdx_map_zipIdx {α β : Type} (g : α → ℕ → β) (l : List α) :
    (l.zipIdx.map (fun p => g p.1 p.2)).zipIdx = l.zipIdx.map (fun p => (g p.1 p.2, p.2)) := by
  refine List.ext_getElem? (fun n => ?_)
  simp only [List.getElem?_zipIdx, List.getElem?_map, Option.map_map]
  cases l[n]? with
  | none => rfl
  | some a => simp

theorem newline_notMem_switchLine {raw : List Char} (h : '\n' ∉ raw) (enabled : Bool) :
    '\n' ∉ switchLine enabled raw := by
  have htrim : '\n' ∉ trim raw := fun hmem => h (mem_of_mem_trim hmem)
  have hbody : '\n' ∉ ((stripPrefix (trim raw) "#").map trim).getD (trim raw) := by
    cases hstrip : stripPrefix (trim raw) "#" with
    | none => exact htrim
    | some rest =>
      intro hmem
      rw [stripPrefix_eq_some hstrip] at htrim
      exact htrim (List.mem_append_right _ (mem_of_mem_trim hmem))
  unfold switchLine
  dsimp only
  split
  · exact hbody
  · split
    · exact h
    · intro hmem
      rcases List.mem_append.mp hmem with hmem | hmem
      · exact absurd hmem (by decide)
      · exact hbody hmem

/-- The lines of the file that is written: that of the repository is switched, and any other is the
one before, but for a carriage return at its end. -/
theorem setListEnabled_lines (hrepo : repo ∈ parseListFile file text) (enabled : Bool) :
    ∃ updated, setListEnabled text repo enabled = .ok updated ∧
      lines updated = (lines text).zipIdx.map (fun p =>
        chop (if lineId repo.file p.2 = repo.id then switchLine enabled p.1 else p.1)) := by
  have hfound : (lines text).zipIdx.any (fun p => decide (lineId repo.file p.2 = repo.id)) := by
    obtain ⟨i, raw, entry, hraw, -, rfl⟩ := mem_parseListFile.mp hrepo
    exact List.any_eq_true.mpr ⟨(raw, i), List.mem_zipIdx_iff_getElem?.mpr hraw, decide_eq_true rfl⟩
  refine ⟨_, if_pos hfound, ?_⟩
  have hclear : ∀ l ∈ (lines text).zipIdx.map (fun p =>
      if lineId repo.file p.2 = repo.id then switchLine enabled p.1 else p.1), '\n' ∉ l := by
    intro l hl
    obtain ⟨⟨raw, i⟩, hp, rfl⟩ := List.mem_map.mp hl
    have hraw := List.mem_zipIdx_iff_getElem?.mp hp
    have hnewline := newline_notMem_lines raw (List.mem_of_getElem? hraw)
    dsimp only
    split
    · exact newline_notMem_switchLine hnewline enabled
    · exact hnewline
  have hlines := lines_unlines_append hclear []
  rw [List.append_nil, lines_nil, List.append_nil, List.map_map] at hlines
  exact hlines

/-- The file that is written lists the same repositories in the same order, the one switched. -/
theorem setListEnabled_lists {enabled : Bool} {updated : List Char}
    (hrepo : repo ∈ parseListFile file text)
    (hset : setListEnabled text repo enabled = .ok updated) :
    parseListFile file updated = (parseListFile file text).map (.switch repo.id enabled) := by
  obtain ⟨_, hset', hlines⟩ := setListEnabled_lines hrepo enabled
  obtain rfl := Except.ok.inj (hset'.symm.trans hset)
  obtain ⟨j, raw₀, entry₀, hraw₀, hentry₀, rfl⟩ := mem_parseListFile.mp hrepo
  unfold parseListFile
  rw [hlines, zipIdx_map_zipIdx (fun raw i => chop (if lineId (repository file j entry₀).file i =
    (repository file j entry₀).id then switchLine enabled raw else raw)), List.filterMap_map,
    List.map_filterMap]
  refine List.filterMap_congr (fun p hp => ?_)
  obtain ⟨raw, i⟩ := p
  have hraw : (lines text)[i]? = some raw := List.mem_zipIdx_iff_getElem?.mp hp
  dsimp only [Function.comp_apply]
  by_cases hline : lineId file i = (repository file j entry₀).id
  · obtain ⟨-, rfl⟩ := lineId_inj hline
    rw [hraw₀] at hraw
    obtain rfl := Option.some.inj hraw
    have hfile : lineId (repository file i entry₀).file i = (repository file i entry₀).id := rfl
    rw [if_pos hfile, parseListLine_switchLine hentry₀, hentry₀]
    simp only [Option.map_some, AptRepository.switch, if_pos]
    rfl
  · have hfile : ¬ lineId (repository file j entry₀).file i = (repository file j entry₀).id := hline
    rw [if_neg hfile, parseListLine_chop]
    cases parseListLine raw with
    | none => rfl
    | some entry =>
      have hid : ¬ (repository file i entry).id = (repository file j entry₀).id := hline
      simp only [Option.map_some, AptRepository.switch, if_neg hid]

end file

/-! ### All files -/

section sources
variable {s s' : Sources} {text id updated : List Char} {enabled : Bool} {r r' repo : AptRepository}
  {p : List Char × List Char}

theorem AptRepository.switch_id (id : List Char) (enabled : Bool) (r : AptRepository) :
    (r.switch id enabled).id = r.id := by
  unfold AptRepository.switch
  split
  · rfl
  · rfl

/-- Switching changes nothing where the repository is as asked for, or is not there. -/
theorem map_switch_eq {rs : List AptRepository} (h : ∀ r ∈ rs, r.id = id → r.enabled = enabled) :
    rs.map (.switch id enabled) = rs := by
  refine (List.map_congr_left (fun r hr => ?_)).trans (List.map_id rs)
  unfold AptRepository.switch
  split
  · next hid =>
    rw [← h r hr hid]
    rfl
  · rfl

theorem Sources.mem_repos : r ∈ s.repos ↔ ∃ p ∈ s.files, r ∈ parseListFile p.1 p.2 :=
  List.mem_flatMap

theorem Sources.read_eq (h : p ∈ s.files) : s.read p.1 = some p.2 := by
  unfold Sources.read
  cases hfind : s.files.find? (fun q => decide (q.1 = p.1)) with
  | none => exact absurd (decide_eq_true rfl) (List.find?_eq_none.mp hfind p h)
  | some q =>
    have hname : q.1 = p.1 := by simpa using List.find?_some hfind
    obtain rfl := List.inj_on_of_nodup_map s.nodup (List.mem_of_find?_eq_some hfind) h hname
    rfl

theorem Sources.text_eq {file : List Char} (hp : p ∈ s.files) (hread : s.read file = some text)
    (hfile : p.1 = file) : p.2 = text := by
  have hown := read_eq hp
  rw [hfile, hread] at hown
  exact (Option.some.inj hown).symm

/-- An id is that of one repository, also across the files. -/
theorem Sources.repos_id_inj (h : r ∈ s.repos) (h' : r' ∈ s.repos) (hid : r.id = r'.id) :
    r = r' := by
  obtain ⟨p, hp, hr⟩ := mem_repos.mp h
  obtain ⟨q, hq, hr'⟩ := mem_repos.mp h'
  obtain ⟨-, i, hi⟩ := parseListFile_id hr
  obtain ⟨-, j, hj⟩ := parseListFile_id hr'
  obtain ⟨hfile, -⟩ := lineId_inj (hi.symm.trans (hid.trans hj))
  obtain rfl := List.inj_on_of_nodup_map s.nodup hp hq hfile
  exact parseListFile_id_inj hr hr' hid

theorem Sources.find_eq_some (h : s.find id = some r) : r ∈ s.repos ∧ r.id = id :=
  ⟨List.mem_of_find?_eq_some h, by simpa using List.find?_some h⟩

theorem Sources.find_eq_none (h : s.find id = none) (hr : r ∈ s.repos) : r.id ≠ id :=
  fun hid => List.find?_eq_none.mp h r hr (decide_eq_true hid)

theorem Sources.find_switched (h : s'.repos = s.repos.map (.switch id enabled)) :
    s'.find id = (s.find id).map (fun r => { r with enabled }) := by
  have hsame : (fun r : AptRepository => decide (r.id = id)) ∘ (.switch id enabled) =
      fun r => decide (r.id = id) :=
    funext fun r => by rw [Function.comp_apply, AptRepository.switch_id]
  unfold Sources.find
  rw [h, List.find?_map, hsame]
  cases hfind : s.repos.find? (fun r => decide (r.id = id)) with
  | none => rfl
  | some r =>
    have hid : r.id = id := by simpa using List.find?_some hfind
    exact congrArg some (if_pos hid)

theorem Sources.repos_write (hrepo : repo ∈ parseListFile repo.file text)
    (hread : s.read repo.file = some text)
    (hlists : parseListFile repo.file updated =
      (parseListFile repo.file text).map (.switch repo.id enabled)) :
    (s.write repo.file updated).repos = s.repos.map (.switch repo.id enabled) := by
  unfold Sources.repos Sources.write
  rw [List.flatMap_map, List.map_flatMap]
  refine List.flatMap_congr (fun p hp => ?_)
  by_cases hfile : p.1 = repo.file
  · dsimp only
    rw [if_pos hfile, hfile, text_eq hp hread hfile, hlists]
  · dsimp only
    rw [if_neg hfile, map_switch_eq]
    intro r hr hid
    obtain ⟨-, i, hi⟩ := parseListFile_id hr
    obtain ⟨-, j, hj⟩ := parseListFile_id hrepo
    exact absurd (lineId_inj (hi.symm.trans (hid.trans hj))).1 hfile

/-- A file without the repository is as it was, and so is any line but that of the repository,
except for a carriage return at its end. -/
def Sources.KeepsOthers (s s' : Sources) (id : List Char) : Prop :=
  ∀ p ∈ s.files, ∃ text, (p.1, text) ∈ s'.files ∧
    ((∀ r ∈ s.repos, r.id = id → r.file ≠ p.1) → text = p.2) ∧
    ∀ (i : ℕ) (raw : List Char), (lines p.2)[i]? = some raw → lineId p.1 i ≠ id →
      (lines text)[i]? = some raw ∨ (lines text)[i]? = some (chop raw)

theorem Sources.keepsOthers_refl (s : Sources) (id : List Char) : s.KeepsOthers s id :=
  fun p hp => ⟨p.2, hp, fun _ => rfl, fun _ _ hraw _ => .inl hraw⟩

theorem Sources.keepsOthers_write (hrepo : repo ∈ parseListFile repo.file text)
    (hread : s.read repo.file = some text) (hset : setListEnabled text repo enabled = .ok updated)
    (hlisted : repo ∈ s.repos) : s.KeepsOthers (s.write repo.file updated) repo.id := by
  intro p hp
  refine ⟨if p.1 = repo.file then updated else p.2, List.mem_map.mpr ⟨p, hp, rfl⟩, ?_, ?_⟩
  · intro hother
    exact if_neg (hother repo hlisted rfl).symm
  · intro i raw hraw hid
    by_cases hfile : p.1 = repo.file
    · obtain ⟨_, hset', hlines⟩ := setListEnabled_lines hrepo enabled
      obtain rfl := Except.ok.inj (hset'.symm.trans hset)
      rw [text_eq hp hread hfile] at hraw
      rw [hfile] at hid
      refine .inr ?_
      rw [if_pos hfile, hlines, List.getElem?_map, List.getElem?_zipIdx, hraw]
      simp [hid]
    · rw [if_neg hfile]
      exact .inl hraw

/-- Of all that is listed exactly the repository that is asked for is switched, the answer is what
is listed of it then, and nothing else in the files changes. -/
theorem setRepoAt_switches (s : Sources) (id : List Char) (enabled : Bool) :
    (s.setRepoAt id enabled).1.repos = s.repos.map (.switch id enabled) ∧
      (s.setRepoAt id enabled).2.toOption = (s.find id).map (fun r => { r with enabled }) ∧
      s.KeepsOthers (s.setRepoAt id enabled).1 id := by
  unfold Sources.setRepoAt
  cases hfind : s.find id with
  | none =>
    have hsame : s.repos.map (.switch id enabled) = s.repos :=
      map_switch_eq (fun r hr hid => absurd hid (Sources.find_eq_none hfind hr))
    exact ⟨hsame.symm, rfl, s.keepsOthers_refl id⟩
  | some repo =>
    obtain ⟨hrepo, rfl⟩ := Sources.find_eq_some hfind
    dsimp only
    by_cases henabled : repo.enabled = enabled
    · have hsame : s.repos.map (.switch repo.id enabled) = s.repos :=
        map_switch_eq (fun r hr hid => (Sources.repos_id_inj hr hrepo hid).symm ▸ henabled)
      rw [if_pos henabled]
      refine ⟨hsame.symm, ?_, s.keepsOthers_refl repo.id⟩
      rw [← henabled]
      rfl
    · obtain ⟨⟨file, text⟩, hp, hr⟩ := Sources.mem_repos.mp hrepo
      obtain ⟨rfl, -⟩ := parseListFile_id hr
      have hread : s.read repo.file = some text := Sources.read_eq hp
      obtain ⟨updated, hset, -⟩ := setListEnabled_lines hr enabled
      have hrepos := Sources.repos_write hr hread (setListEnabled_lists hr hset)
      have hagain := Sources.find_switched hrepos
      rw [hfind] at hagain
      simp only [if_neg henabled, hread, hset, hagain, Option.map_some]
      exact ⟨hrepos, rfl, Sources.keepsOthers_write hr hread hset hrepo⟩

/-! ### A sequence of requests -/

/-- What was asked for last of an id. -/
def lastAsked : List (List Char × Bool) → List Char → Option Bool
  | [], _ => none
  | q :: qs, id => (lastAsked qs id).or (if q.1 = id then some q.2 else none)

def Sources.after (s : Sources) (qs : List (List Char × Bool)) : Sources :=
  qs.foldl (fun s q => (s.setRepoAt q.1 q.2).1) s

/-- After any requests the same repositories are listed in the same order, each as it was asked for
last, or else as it was. -/
theorem after_lists (s : Sources) (qs : List (List Char × Bool)) :
    (s.after qs).repos =
      s.repos.map (fun r => { r with enabled := (lastAsked qs r.id).getD r.enabled }) := by
  induction qs generalizing s with
  | nil => exact (List.map_id _).symm
  | cons q qs ih =>
    have hstep : (s.after (q :: qs)).repos = ((s.setRepoAt q.1 q.2).1.after qs).repos := rfl
    rw [hstep, ih, (setRepoAt_switches s q.1 q.2).1, List.map_map]
    refine List.map_congr_left (fun r _ => ?_)
    have hlast : lastAsked (q :: qs) r.id =
        (lastAsked qs r.id).or (if q.1 = r.id then some q.2 else none) := rfl
    rw [Function.comp_apply, AptRepository.switch_id, hlast]
    unfold AptRepository.switch
    by_cases hid : r.id = q.1
    · rw [if_pos hid, if_pos hid.symm]
      cases lastAsked qs r.id <;> rfl
    · rw [if_neg hid, if_neg (Ne.symm hid), Option.or_none]

end sources

/-! ### A new repository -/

structure AddRepositoryRequest where
  name : List Char
  uri : List Char
  suite : List Char
  components : List Char

def sanitizeRepoName (name : List Char) : Except (List Char) (List Char) :=
  let name := trim name
  if name.isEmpty then .error "name is required".toList
  else if !name.all (fun c => c.isAlphanum || c == '-' || c == '_' || c == '.') ||
      startsWith name "." then
    .error "name may only contain letters, digits, '.', '-' and '_'".toList
  else .ok name

def listName (name : List Char) : List Char := name ++ ".list".toList

def repoFile (name : List Char) : List Char := "etc/apt/sources.list.d/".toList ++ listName name

/-- The line that is written, without its end. -/
def AddRepositoryRequest.line (req : AddRepositoryRequest) : List Char :=
  let components := trim req.components
  "deb ".toList ++ trim req.uri ++ ' ' :: trim req.suite ++
    ' ' :: (if components.isEmpty then "main".toList else components)

namespace Sources

/-- The new file takes its place before the first one whose path is not less. -/
def add (s : Sources) (file text : List Char) (h : file ∉ s.files.map Prod.fst) : Sources where
  files := s.files.takeWhile (fun p => decide (p.1 < file)) ++
    (file, text) :: s.files.dropWhile (fun p => decide (p.1 < file))
  nodup := by
    have hperm : (s.files.takeWhile (fun p => decide (p.1 < file)) ++
        (file, text) :: s.files.dropWhile (fun p => decide (p.1 < file))).Perm
          ((file, text) :: s.files) := by
      refine List.perm_middle.trans (List.Perm.cons _ ?_)
      rw [List.takeWhile_append_dropWhile]
    rw [(hperm.map Prod.fst).nodup_iff]
    exact List.nodup_cons.mpr ⟨h, s.nodup⟩

def addRepoAt (s : Sources) (req : AddRepositoryRequest) :
    Sources × Except (List Char) AptRepository :=
  match sanitizeRepoName req.name with
  | .error e => (s, .error e)
  | .ok name =>
    if (trim req.uri).isEmpty || (trim req.suite).isEmpty then
      (s, .error "uri and suite are required".toList)
    else if h : repoFile name ∈ s.files.map Prod.fst then
      (s, .error ("repository file already exists: /".toList ++ repoFile name))
    else
      let s := s.add (repoFile name) (req.line ++ ['\n']) h
      match s.repos.find? (fun r => (listName name).isSuffixOf r.file) with
      | some r => (s, .ok r)
      | none => (s, .error "added repository but failed to read it back".toList)

end Sources

/-- What is asked for: an address and a suite that are one word each, and no further line. -/
structure AddRepositoryRequest.Plain (req : AddRepositoryRequest) : Prop where
  uri : IsUri (trim req.uri)
  uriWord : ∀ c ∈ trim req.uri, isWhiteSpace c = false
  suite : trim req.suite ≠ []
  suiteWord : ∀ c ∈ trim req.suite, isWhiteSpace c = false
  components : '\n' ∉ req.components

def AddRepositoryRequest.deb (req : AddRepositoryRequest) : Deb where
  types := "deb".toList
  uri := trim req.uri
  suite := trim req.suite
  components := [' '].intercalate (splitWhitespace
    (if (trim req.components).isEmpty then "main".toList else trim req.components))

section added
variable {req : AddRepositoryRequest} {name : List Char} {s : Sources}

theorem AddRepositoryRequest.Plain.entry (h : req.Plain) : IsEntry req.line (true, req.deb) := by
  have hblank : Blank [' '] := fun c hc => by
    obtain rfl := List.mem_singleton.mp hc
    decide
  have huri : trim req.uri ≠ [] := by
    obtain ⟨first, scheme, rest, huri, -⟩ := h.uri
    rw [huri]
    exact List.cons_ne_nil _ _
  have hnone : Blank [] := fun c hc => by cases hc
  refine ⟨[], [], req.line, rfl, hnone, .inl ⟨rfl, rfl⟩, [' '], [],
    trim req.uri ++ ' ' :: (trim req.suite ++ ' ' ::
      (if (trim req.components).isEmpty then "main".toList else trim req.components)),
    splitWhitespace (if (trim req.components).isEmpty then "main".toList else trim req.components),
    ?_, .inl rfl, hblank, List.cons_ne_nil _ _, .inl rfl, ?_, h.uri, rfl⟩
  · simp [AddRepositoryRequest.line, AddRepositoryRequest.deb]
  · unfold splitWhitespace
    rw [wordsBy_append_blank (by decide), wordsBy_append_blank (by decide),
      wordsBy_word h.uriWord huri, wordsBy_word h.suiteWord h.suite]
    rfl

theorem AddRepositoryRequest.Plain.newline (h : req.Plain) : '\n' ∉ req.line := by
  have hblank : isWhiteSpace '\n' = true := by decide
  have hcomponents : '\n' ∉
      (if (trim req.components).isEmpty then "main".toList else trim req.components) := by
    split
    · decide
    · exact fun hmem => h.components (mem_of_mem_trim hmem)
  have huri : '\n' ∉ trim req.uri := fun hmem => by
    rw [h.uriWord _ hmem] at hblank
    cases hblank
  have hsuite : '\n' ∉ trim req.suite := fun hmem => by
    rw [h.suiteWord _ hmem] at hblank
    cases hblank
  intro hmem
  unfold AddRepositoryRequest.line at hmem
  rcases List.mem_append.mp hmem with hmem | hmem
  · rcases List.mem_append.mp hmem with hmem | hmem
    · rcases List.mem_append.mp hmem with hmem | hmem
      · exact absurd hmem (by decide)
      · exact huri hmem
    · rcases List.mem_cons.mp hmem with heq | hmem
      · cases heq
      · exact hsuite hmem
  · rcases List.mem_cons.mp hmem with heq | hmem
    · cases heq
    · exact hcomponents hmem

/-- The new file lists the repository that was asked for, and no other. -/
theorem AddRepositoryRequest.Plain.listed (h : req.Plain) (file : List Char) :
    parseListFile file (req.line ++ ['\n']) = [repository file 0 (true, req.deb)] := by
  have hlines : lines (req.line ++ ['\n']) = [chop req.line] := lines_newline h.newline
  unfold parseListFile
  rw [hlines]
  simp [parseListLine_chop, (parseListLine_of_entry h.entry).1]

/-- The new repository is listed in its place among all that were listed. It is also the answer,
exactly if no file before it that lists a repository has a path that ends with its file's name. -/
theorem addRepoAt_adds (s : Sources) (h : req.Plain)
    (hname : sanitizeRepoName req.name = .ok name) (hnew : repoFile name ∉ s.files.map Prod.fst) :
    ∃ before after, s.files = before ++ after ∧
      (s.addRepoAt req).1.files = before ++ (repoFile name, req.line ++ ['\n']) :: after ∧
      (s.addRepoAt req).1.repos = before.flatMap (fun p => parseListFile p.1 p.2) ++
        repository (repoFile name) 0 (true, req.deb) ::
          after.flatMap (fun p => parseListFile p.1 p.2) ∧
      ((s.addRepoAt req).2 = .ok (repository (repoFile name) 0 (true, req.deb)) ↔
        ∀ p ∈ before, parseListFile p.1 p.2 ≠ [] → ¬ listName name <:+ p.1) := by
  refine ⟨s.files.takeWhile (fun p => decide (p.1 < repoFile name)),
    s.files.dropWhile (fun p => decide (p.1 < repoFile name)),
    List.takeWhile_append_dropWhile.symm, ?_⟩
  set t := s.add (repoFile name) (req.line ++ ['\n']) hnew with ht
  set before := s.files.takeWhile (fun p => decide (p.1 < repoFile name)) with hbefore
  set after := s.files.dropWhile (fun p => decide (p.1 < repoFile name))
  set added := repository (repoFile name) 0 (true, req.deb)
  set ends := fun r : AptRepository => (listName name).isSuffixOf r.file with hends
  have hfiles : t.files = before ++ (repoFile name, req.line ++ ['\n']) :: after := rfl
  have hrepos : t.repos = before.flatMap (fun p => parseListFile p.1 p.2) ++
      added :: after.flatMap (fun p => parseListFile p.1 p.2) := by
    unfold Sources.repos
    rw [hfiles, List.flatMap_append, List.flatMap_cons, h.listed]
    rfl
  have hadded : ends added = true := List.isSuffixOf_iff_suffix.mpr (List.suffix_append _ _)
  have hfind : t.repos.find? ends =
      ((before.flatMap (fun p => parseListFile p.1 p.2)).find? ends).or (some added) := by
    rw [hrepos, List.find?_append, List.find?_cons_of_pos hadded]
  have huri : (trim req.uri).isEmpty = false := by
    obtain ⟨first, scheme, rest, huri, -⟩ := h.uri
    rw [huri]
    rfl
  have hsuite : (trim req.suite).isEmpty = false := by
    rw [List.isEmpty_eq_false_iff]
    exact h.suite
  have hanswer : s.addRepoAt req = (t, .ok
      (((before.flatMap (fun p => parseListFile p.1 p.2)).find? ends).getD added)) := by
    unfold Sources.addRepoAt
    simp only [hname, huri, hsuite, Bool.or_self, Bool.false_eq_true, if_false, dif_neg hnew]
    rw [← ht, hfind]
    cases (before.flatMap (fun p => parseListFile p.1 p.2)).find? ends with
    | none => rfl
    | some r => rfl
  rw [hanswer]
  refine ⟨hfiles, hrepos, ?_⟩
  cases hfirst : (before.flatMap (fun p => parseListFile p.1 p.2)).find? ends with
  | none =>
    refine iff_of_true rfl (fun p hp hlists hsuffix => ?_)
    obtain ⟨r, hr⟩ := List.exists_mem_of_ne_nil _ hlists
    have hnot := List.find?_eq_none.mp hfirst r (List.mem_flatMap.mpr ⟨p, hp, hr⟩)
    rw [← (parseListFile_id hr).1] at hsuffix
    exact hnot (List.isSuffixOf_iff_suffix.mpr hsuffix)
  | some r =>
    obtain ⟨p, hp, hr⟩ := List.mem_flatMap.mp (List.mem_of_find?_eq_some hfirst)
    have hfile : r.file = p.1 := (parseListFile_id hr).1
    refine iff_of_false (fun heq => hnew ?_) (fun hall => ?_)
    · have hsame : r = added := Except.ok.inj heq
      have hpath : p.1 = repoFile name := by
        rw [← hfile, hsame]
        rfl
      exact List.mem_map.mpr ⟨p, (List.takeWhile_prefix _).subset hp, hpath⟩
    · have hsuffix : ends r = true := by simpa using List.find?_some hfirst
      refine hall p hp (List.ne_nil_of_mem hr) ?_
      rw [← hfile]
      exact List.isSuffixOf_iff_suffix.mp hsuffix

/-- A file whose name ends with that of the new one, and is listed before it. -/
def crowded : Sources where
  files := [(repoFile "ab".toList, "deb http://a.org b main\n".toList)]
  nodup := List.nodup_singleton _

def mirror : AddRepositoryRequest :=
  { name := "b".toList, uri := "https://b.org".toList, suite := "stable".toList, components := [] }

theorem mirror_plain : mirror.Plain := by
  have hscheme : "ttps".toList.all Char.isAlphanum = true := by decide +kernel
  have huri : (trim mirror.uri).all (fun c => !isWhiteSpace c) = true := by decide +kernel
  have hsuite : (trim mirror.suite).all (fun c => !isWhiteSpace c) = true := by decide +kernel
  exact
    { uri := ⟨'h', "ttps".toList, "//b.org".toList, by decide +kernel, by decide,
        fun c hc => .inl (List.all_eq_true.mp hscheme c hc)⟩
      uriWord := fun c hc => by simpa using List.all_eq_true.mp huri c hc
      suite := by decide +kernel
      suiteWord := fun c hc => by simpa using List.all_eq_true.mp hsuite c hc
      components := by decide }

theorem addRepoAt_adds_mirror : ∃ before after, crowded.files = before ++ after ∧
    (crowded.addRepoAt mirror).1.files =
      before ++ (repoFile "b".toList, mirror.line ++ ['\n']) :: after ∧
    (crowded.addRepoAt mirror).1.repos = before.flatMap (fun p => parseListFile p.1 p.2) ++
      repository (repoFile "b".toList) 0 (true, mirror.deb) ::
        after.flatMap (fun p => parseListFile p.1 p.2) ∧
    ((crowded.addRepoAt mirror).2 = .ok (repository (repoFile "b".toList) 0 (true, mirror.deb)) ↔
      ∀ p ∈ before, parseListFile p.1 p.2 ≠ [] → ¬ listName "b".toList <:+ p.1) :=
  addRepoAt_adds crowded mirror_plain (by decide +kernel) (by decide +kernel)

/-- The answer is then what the other file lists. -/
example : ((crowded.addRepoAt mirror).2.toOption.map AptRepository.file) =
    some (repoFile "ab".toList) := by
  decide +kernel

end added

end Pertisk.Updates
