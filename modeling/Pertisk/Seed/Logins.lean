import Pertisk.Seed.Accounts

namespace Pertisk.Seed
open Lib PeerUrl Text

/-! ### The accounts as tables -/

/-- What the account files say, row by row. -/
structure Accounts where
  passwd : List Row
  shadow : List Row
  group : List Row
  gshadow : Option (List Row)

def AccountFiles.accounts (files : AccountFiles) : Accounts where
  passwd := rows ':' (files.passwd.getD [])
  shadow := rows ':' (files.shadow.getD [])
  group := rows ':' (files.group.getD [])
  gshadow := files.gshadow.map (rows ':')

/-- Account files without carriage returns. -/
structure AccountFiles.Unix (files : AccountFiles) : Prop where
  passwd : '\r' ∉ files.passwd.getD []
  shadow : '\r' ∉ files.shadow.getD []
  group : '\r' ∉ files.group.getD []
  gshadow : '\r' ∉ files.gshadow.getD []

/-- Whether a table has a row for the name. -/
def Has (name : List Char) (rs : List Row) : Prop := ∃ r ∈ rs, Keyed name r

instance (name : List Char) (rs : List Row) : Decidable (Has name rs) :=
  inferInstanceAs (Decidable (∃ r ∈ rs, Keyed name r))

def homeOf (user : List Char) : List Row → Option (ℕ × ℕ × List Char)
  | [] => none
  | r :: rest =>
    if Keyed user r then
      match homeFields r with
      | some found => found
      | none => homeOf user rest
    else homeOf user rest

/-- The number in the third field. -/
def numberOf (r : Row) : Option ℕ :=
  match r with
  | _ :: _ :: number :: _ => parseU32 number
  | _ => none

def freeUid (passwd : List Row) : ℕ :=
  let used := passwd.filterMap numberOf
  firstFree used used.length 1000

def groupNumber (name : List Char) (gid : ℕ) (group : List Row) : ℕ :=
  match group.find? (fun r => decide (Keyed name r)) with
  | some r => (r[2]?.bind parseU32).getD gid
  | none => gid

def memberRow (user : List Char) (groups : List (List Char)) (r : Row) : Row :=
  match r with
  | name :: password :: gid :: members :: rest =>
    if name ∈ groups then
      let members := if user ∈ membersOf members then members
        else [','].intercalate (membersOf members ++ [user])
      name :: password :: gid :: members :: rest
    else r
  | _ => r

def hashRow (days : ℕ) (user hash : List Char) (r : Row) : Row :=
  if Keyed user r then (r.set 1 hash).set 2 (shadowLastchg days) else r

def locks : List (List Char) := ["!".toList, "*".toList, "!!".toList]

def unlockedRow (user : List Char) (r : Row) : Row :=
  match r with
  | name :: password :: rest =>
    if name = user ∧ password ∈ locks then name :: "x".toList :: rest else r
  | _ => r

def digits (n : ℕ) : List Char := (toString n).toList

def passwdRow (user : List Char) (uid gid : ℕ) : Row :=
  [user, "x".toList, digits uid, digits gid, "Cloud User".toList, "/home/".toList ++ user,
    "/bin/bash".toList]

def shadowRow (days : ℕ) (user password : List Char) : Row :=
  [user, password, shadowLastchg days, "0".toList, "99999".toList, "7".toList, [], [], []]

def groupRow (user : List Char) (gid : ℕ) : Row := [user, "x".toList, digits gid, []]

def gshadowRow (user : List Char) : Row := [user, "*".toList, [], user]

/-- A table with a row for the name. -/
def withRow (name : List Char) (row : Row) (rs : List Row) : List Row :=
  if Has name rs then rs else rs ++ [row]

namespace Accounts

def Known (user : List Char) (a : Accounts) : Prop :=
  (homeOf user a.passwd).isSome = true ∧ Has user a.shadow

instance (user : List Char) (a : Accounts) : Decidable (a.Known user) :=
  inferInstanceAs (Decidable (_ ∧ _))

def gid (user : List Char) (a : Accounts) : ℕ := groupNumber user (freeUid a.passwd) a.group

def ensured (days : ℕ) (user : List Char) (a : Accounts) : Accounts :=
  if a.Known user then { a with group := a.group.map (memberRow user adminGroups) }
  else
    { passwd := if (homeOf user a.passwd).isSome then a.passwd
        else a.passwd ++ [passwdRow user (freeUid a.passwd) (a.gid user)]
      shadow := withRow user (shadowRow days user "*".toList) a.shadow
      group := (withRow user (groupRow user (freeUid a.passwd)) a.group).map
        (memberRow user (adminGroups ++ [user]))
      gshadow := if Has user a.group then a.gshadow
        else a.gshadow.map (withRow user (gshadowRow user)) }

def hashed (days : ℕ) (user hash : List Char) (a : Accounts) : Accounts :=
  { a with
    passwd := a.passwd.map (unlockedRow user)
    shadow := if Has user a.shadow then a.shadow.map (hashRow days user hash)
      else a.shadow ++ [shadowRow days user hash] }

/-- What a login's injection does to the tables; `hash` is that of a password that was given. -/
def login (days : ℕ) (user : List Char) (hash : Option (List Char)) (a : Accounts) : Accounts :=
  match hash with
  | none => a.ensured days user
  | some hash => (a.ensured days user).hashed days user hash

end Accounts

/-- What the names of users are made of. -/
structure UserName (s : List Char) : Prop where
  nonempty : s ≠ []
  chars : ∀ c ∈ s, isUserChar c = true

theorem userName_sanitizeUser (raw : List Char) : UserName (sanitizeUser raw) := by
  unfold sanitizeUser
  simp only
  split
  · exact ⟨by decide, PeerUrl.forall_of_all (by decide)⟩
  · rename_i hout
    simp only [Bool.or_eq_true, List.isEmpty_iff, not_or] at hout
    refine ⟨fun hnil => ?_, fun c hc => ?_⟩
    · rcases List.take_eq_nil_iff.mp hnil with h | h
      · cases h
      · exact hout.1 h
    · exact (List.mem_filter.mp (List.mem_of_mem_take hc)).2

section fields
variable {user hash l name : List Char} {groups : List (List Char)} {r : Row} {days n : ℕ}

theorem line_colon : Line [':'] := ⟨by decide, by decide⟩

theorem line_comma : Line [','] := ⟨by decide, by decide⟩

theorem UserName.notMem (h : UserName user) {c : Char} (hc : isUserChar c = false) : c ∉ user := by
  intro hmem
  rw [h.chars c hmem] at hc
  cases hc

theorem UserName.field (h : UserName user) : Field ':' user :=
  ⟨⟨h.notMem (by decide), h.notMem (by decide)⟩, h.notMem (by decide)⟩

theorem field_digits (n : ℕ) : Field ':' (digits n) :=
  ⟨⟨notMem_toString (by decide), notMem_toString (by decide)⟩, notMem_toString (by decide)⟩

/-- A text of plain characters is a field. -/
theorem field_of_all (h : l.all (fun c => c != ':' && c != '\n' && c != '\r') = true) :
    Field ':' l := by
  have hall : ∀ c ∈ l, c ≠ ':' ∧ c ≠ '\n' ∧ c ≠ '\r' := by
    intro c hc
    have := List.all_eq_true.mp h c hc
    simp only [Bool.and_eq_true, bne_iff_ne] at this
    exact ⟨this.1.1, this.1.2, this.2⟩
  exact ⟨⟨fun hc => (hall _ hc).2.1 rfl, fun hc => (hall _ hc).2.2 rfl⟩,
    fun hc => (hall _ hc).1 rfl⟩

theorem fields_ofFields (hne : r ≠ []) (h : ∀ x ∈ r, Field ':' x) :
    Line (ofFields r) ∧ fields (ofFields r) = r :=
  ⟨line_join line_colon fun x hx => (h x hx).toLine, splitOn_join hne h⟩

theorem ofFields_fields (l : List Char) : ofFields (fields l) = l := join_splitOn ':' l

theorem fields_ne_nil (l : List Char) : fields l ≠ [] := List.splitOn_ne_nil ':' l

theorem startsEntry_iff (h : Field ':' user) : startsEntry user l = true ↔ Keyed user (fields l) :=
  isPrefixOf_iff_keyed h.sep

/-! ### What each edit does to a line -/

theorem field_withMember {members : List Char} (hu : Field ':' user) (hm : Field ':' members) :
    Field ':' ([','].intercalate (membersOf members ++ [user])) := by
  have hparts : ∀ x ∈ membersOf members ++ [user], Field ':' x := by
    intro x hx
    rcases List.mem_append.mp hx with hx | hx
    · unfold membersOf at hx
      split at hx
      · cases hx
      · refine ⟨(field_of_mem hm.toLine x hx).toLine, fun hc => hm.sep ?_⟩
        rw [← join_splitOn ',' members]
        exact mem_join_of_mem hx hc
    · exact List.mem_singleton.mp hx ▸ hu
  refine ⟨line_join line_comma fun x hx => (hparts x hx).toLine, fun hc => ?_⟩
  obtain habs | ⟨x, hx, hcx⟩ := mem_join hc
  · exact absurd habs (by decide)
  · exact (hparts x hx).sep hcx

theorem withMember_spec (groups : List (List Char)) (hu : Field ':' user) (hl : Line l) :
    Line (withMember user groups l) ∧
      fields (withMember user groups l) = memberRow user groups (fields l) := by
  have hfields : ∀ x ∈ l.splitOn ':', Field ':' x := field_of_mem hl
  unfold withMember memberRow
  change ∀ x ∈ fields l, Field ':' x at hfields
  cases hf : fields l with
  | nil => exact absurd hf (fields_ne_nil l)
  | cons name rest =>
    match rest, hf with
    | password :: gid :: members :: rest, hf =>
      rw [hf] at hfields
      simp only
      split
      · refine fields_ofFields (List.cons_ne_nil _ _) fun x hx => ?_
        simp only [List.mem_cons] at hx hfields
        rcases hx with rfl | rfl | rfl | rfl | hx
        · exact hfields _ (by simp)
        · exact hfields _ (by simp)
        · exact hfields _ (by simp)
        · split
          · exact hfields _ (by simp)
          · exact field_withMember hu (hfields _ (by simp))
        · exact hfields _ (by simp [hx])
      · exact ⟨hl, hf⟩
    | [], hf => exact ⟨hl, hf⟩
    | [_], hf => exact ⟨hl, hf⟩
    | [_, _], hf => exact ⟨hl, hf⟩

theorem withHash_spec (days : ℕ) (hu : Field ':' user) (hh : Field ':' hash) (hl : Line l) :
    Line (withHash days user hash l) ∧
      fields (withHash days user hash l) = hashRow days user hash (fields l) := by
  unfold withHash hashRow
  by_cases hkey : Keyed user (fields l)
  · rw [if_pos hkey, if_pos ((startsEntry_iff hu).mpr hkey)]
    apply fields_ofFields
    · intro hnil
      have hlen := congrArg List.length hnil
      rw [List.length_set, List.length_set, List.length_nil] at hlen
      exact fields_ne_nil l (List.length_eq_zero_iff.mp hlen)
    · intro x hx
      rcases List.mem_or_eq_of_mem_set hx with hx | rfl
      · rcases List.mem_or_eq_of_mem_set hx with hx | rfl
        · exact field_of_mem hl x hx
        · exact hh
      · exact field_digits _
  · rw [if_neg hkey, if_neg fun h => hkey ((startsEntry_iff hu).mp h)]
    exact ⟨hl, rfl⟩

theorem unlocked_spec (hu : Field ':' user) (hl : Line l) :
    Line (unlocked user l) ∧ fields (unlocked user l) = unlockedRow user (fields l) := by
  have hfields : ∀ x ∈ fields l, Field ':' x := field_of_mem hl
  unfold unlocked unlockedRow
  match hf : fields l with
  | [] => exact absurd hf (fields_ne_nil l)
  | [x] =>
    rw [if_neg]
    · exact ⟨hl, hf⟩
    · rw [startsEntry_iff hu, hf]
      exact fun h => absurd h.2 (by simp)
  | name :: password :: rest =>
    have hkey : startsEntry user l = true ↔ name = user := by
      rw [startsEntry_iff hu, hf]
      exact ⟨fun h => Option.some.inj h.1, fun h => ⟨by rw [h]; rfl, by simp⟩⟩
    rw [hf] at hfields
    simp only [hkey]
    by_cases hname : name = user
    · rw [if_pos hname]
      by_cases hlock : password ∈ locks
      · rw [if_pos (by simpa [locks] using hlock), if_pos ⟨hname, hlock⟩]
        refine fields_ofFields (List.cons_ne_nil _ _) fun x hx => ?_
        rcases List.mem_cons.mp hx with rfl | hx
        · exact hfields _ List.mem_cons_self
        · rcases List.mem_cons.mp hx with rfl | hx
          · exact field_of_all (by decide)
          · exact hfields x (List.mem_cons_of_mem _ (List.mem_cons_of_mem _ hx))
      · rw [if_neg (by simpa [locks] using hlock), if_neg fun h => hlock h.2, ← hf, ofFields_fields]
        exact ⟨hl, rfl⟩
    · rw [if_neg hname, if_neg fun h => hname h.1]
      exact ⟨hl, hf⟩

end fields

section tables
variable {user name hash text : List Char} {groups : List (List Char)} {r : Row} {rs : List Row}
  {days uid gid : ℕ} {files new : AccountFiles}

theorem any_startsEntry (h : Field ':' name) :
    (lines text).any (startsEntry name) = true ↔ Has name (rows ':' text) := by
  rw [List.any_eq_true]
  constructor
  · rintro ⟨l, hl, hstarts⟩
    exact ⟨fields l, List.mem_map_of_mem hl, (startsEntry_iff h).mp hstarts⟩
  · rintro ⟨r, hr, hkey⟩
    obtain ⟨l, hl, rfl⟩ := List.mem_map.mp hr
    exact ⟨l, hl, (startsEntry_iff h).mpr hkey⟩

theorem not_has_nil : ¬ Has name [] := fun ⟨_, hr, _⟩ => nomatch hr

theorem rows_nil (sep : Char) : rows sep [] = [] := rfl

theorem shadowHas_iff (h : Field ':' user) :
    shadowHas user files = true ↔ Has user files.accounts.shadow := by
  unfold shadowHas AccountFiles.accounts
  cases files.shadow with
  | none => exact iff_of_false Bool.false_ne_true not_has_nil
  | some text => exact any_startsEntry h

theorem homeIn_eq (h : Field ':' user) (ls : List (List Char)) :
    homeIn user ls = homeOf user (ls.map fields) := by
  induction ls with
  | nil => rfl
  | cons l ls ih =>
    rw [List.map_cons]
    unfold homeIn homeOf
    by_cases hkey : Keyed user (fields l)
    · rw [if_pos hkey, if_pos ((startsEntry_iff h).mpr hkey)]
      cases homeFields (fields l) with
      | none => exact ih
      | some found => rfl
    · rw [if_neg hkey, if_neg fun hs => hkey ((startsEntry_iff h).mp hs)]
      exact ih

theorem passwdHome_eq (h : Field ':' user) :
    passwdHome user files = homeOf user files.accounts.passwd := by
  unfold passwdHome AccountFiles.accounts
  cases files.passwd with
  | none => rfl
  | some text => exact homeIn_eq h (lines text)

theorem nextUid_eq : nextUid files = freeUid files.accounts.passwd := by
  unfold nextUid freeUid AccountFiles.accounts rows
  rw [List.filterMap_map]
  rfl

theorem find_startsEntry (h : Field ':' name) (ls : List (List Char)) :
    (ls.find? (startsEntry name)).map fields =
      (ls.map fields).find? fun r => decide (Keyed name r) := by
  rw [List.find?_map]
  congr 2
  funext l
  rw [Function.comp_apply, Bool.eq_iff_iff, startsEntry_iff h, decide_eq_true_iff]

theorem gidIn_eq (h : Field ':' name) : gidIn name gid text =
    if Has name (rows ':' text) then some (groupNumber name gid (rows ':' text)) else none := by
  have hfind : ((lines text).find? (startsEntry name)).map fields =
      (rows ':' text).find? fun r => decide (Keyed name r) := find_startsEntry h (lines text)
  unfold gidIn groupNumber
  cases hl : (lines text).find? (startsEntry name) with
  | none =>
    rw [hl] at hfind
    rw [if_neg]
    · rfl
    · rintro ⟨r, hr, hkey⟩
      have hnone := List.find?_eq_none.mp hfind.symm r hr
      exact hnone (decide_eq_true hkey)
  | some l =>
    rw [hl, Option.map_some] at hfind
    rw [if_pos, ← hfind]
    · rfl
    · have hkey := List.find?_some hfind.symm
      exact ⟨_, List.mem_of_find?_eq_some hfind.symm, of_decide_eq_true hkey⟩

theorem groupNumber_of_not_has (h : ¬ Has name rs) : groupNumber name gid rs = gid := by
  unfold groupNumber
  rw [List.find?_eq_none.mpr fun r hr hkey => h ⟨r, hr, of_decide_eq_true hkey⟩]

/-! ### The rows that are added -/

theorem ofFields_groupRow : user ++ ":x:".toList ++ (toString gid).toList ++ ":".toList =
    ofFields (groupRow user gid) := by
  simp [ofFields, groupRow, digits, List.intercalate_cons_cons]

theorem ofFields_gshadowRow : user ++ ":*::".toList ++ user = ofFields (gshadowRow user) := by
  simp [ofFields, gshadowRow, List.intercalate_cons_cons]

theorem ofFields_shadowRow : user ++ ":".toList ++ hash ++ ":".toList ++ shadowLastchg days ++
    ":0:99999:7:::".toList = ofFields (shadowRow days user hash) := by
  simp [ofFields, shadowRow, List.intercalate_cons_cons]

theorem ofFields_passwdRow : user ++ ":x:".toList ++ (toString uid).toList ++ ":".toList ++
    (toString gid).toList ++ ":Cloud User:/home/".toList ++ user ++ ":/bin/bash".toList =
    ofFields (passwdRow user uid gid) := by
  simp [ofFields, passwdRow, digits, List.intercalate_cons_cons]

theorem field_nil : Field ':' [] := field_of_all rfl

theorem groupRow_fields (hu : Field ':' user) : ∀ x ∈ groupRow user gid, Field ':' x := by
  simp only [groupRow, List.forall_mem_cons]
  exact ⟨hu, field_of_all (by decide), field_digits gid, field_nil, fun _ h => nomatch h⟩

theorem gshadowRow_fields (hu : Field ':' user) : ∀ x ∈ gshadowRow user, Field ':' x := by
  simp only [gshadowRow, List.forall_mem_cons]
  exact ⟨hu, field_of_all (by decide), field_nil, hu, fun _ h => nomatch h⟩

theorem shadowRow_fields (hu : Field ':' user) (hh : Field ':' hash) :
    ∀ x ∈ shadowRow days user hash, Field ':' x := by
  simp only [shadowRow, List.forall_mem_cons]
  exact ⟨hu, hh, field_digits _, field_of_all (by decide), field_of_all (by decide),
    field_of_all (by decide), field_nil, field_nil, field_nil, fun _ h => nomatch h⟩

theorem passwdRow_fields (hu : Field ':' user) : ∀ x ∈ passwdRow user uid gid, Field ':' x := by
  simp only [passwdRow, List.forall_mem_cons]
  exact ⟨hu, field_of_all (by decide), field_digits uid, field_digits gid,
    field_of_all (by decide), (field_of_all (by decide)).append hu, field_of_all (by decide),
    fun _ h => nomatch h⟩

/-- A row is added to a file as its line. -/
theorem rows_append {row : Row} (htext : '\r' ∉ text) (hne : row ≠ [])
    (hrow : ∀ x ∈ row, Field ':' x) :
    rows ':' (appendLine text (ofFields row)) = rows ':' text ++ [row] ∧
      '\r' ∉ appendLine text (ofFields row) := by
  obtain ⟨hline, hfields⟩ := fields_ofFields hne hrow
  refine ⟨?_, carriage_appendLine htext hline⟩
  rw [rows_appendLine htext hline]
  exact congrArg (fun r => rows ':' text ++ [r]) hfields

/-! ### The operations -/

theorem addUserToGroups_spec (groups : List (List Char)) (hu : Field ':' user)
    (hunix : files.Unix) :
    (addUserToGroups user groups files).accounts =
        { files.accounts with group := files.accounts.group.map (memberRow user groups) } ∧
      (addUserToGroups user groups files).Unix := by
  unfold addUserToGroups
  have hgroup := hunix.group
  cases hfile : files.group with
  | none =>
    refine ⟨?_, hunix⟩
    simp only [AccountFiles.accounts, hfile, Option.getD_none, rows_nil, List.map_nil]
  | some text =>
    rw [hfile, Option.getD_some] at hgroup
    have hrows := rows_rewriteLines hgroup
      (fun l hl => (withMember_spec groups hu hl).1) fun l hl => (withMember_spec groups hu hl).2
    refine ⟨?_, { hunix with group := ?_ }⟩
    · simp only [AccountFiles.accounts, hfile, Option.getD_some, hrows]
    · exact carriage_rewriteLines hgroup fun l hl => (withMember_spec groups hu hl).1

theorem ensureGroup_spec (uid : ℕ) (hu : UserName user) (hunix : files.Unix) :
    (ensureGroup user uid files).1 = groupNumber user uid files.accounts.group ∧
      (ensureGroup user uid files).2.accounts = { files.accounts with
        group := withRow user (groupRow user uid) files.accounts.group
        gshadow := if Has user files.accounts.group then files.accounts.gshadow
          else files.accounts.gshadow.map (withRow user (gshadowRow user)) } ∧
      (ensureGroup user uid files).2.Unix := by
  have hfield := hu.field
  have hgroupRow : groupRow user uid ≠ [] := List.cons_ne_nil _ _
  have hgshadowRow : gshadowRow user ≠ [] := List.cons_ne_nil _ _
  obtain ⟨hgrown, hcarriage⟩ := rows_append hunix.group hgroupRow (groupRow_fields hfield)
  unfold ensureGroup withRow
  rw [gidIn_eq hfield]
  have hgroup : files.accounts.group = rows ':' (files.group.getD []) := rfl
  rw [hgroup]
  by_cases hhas : Has user (rows ':' (files.group.getD []))
  · rw [if_pos hhas, if_pos hhas, if_pos hhas]
    exact ⟨rfl, rfl, hunix⟩
  · rw [if_neg hhas, if_neg hhas, if_neg hhas]
    have hnumber : groupNumber user uid (rows ':' (files.group.getD [])) = uid :=
      groupNumber_of_not_has hhas
    rw [hnumber, ofFields_groupRow, ofFields_gshadowRow]
    have hgshadow := hunix.gshadow
    cases hfile : files.gshadow with
    | none =>
      refine ⟨rfl, ?_, { hunix with group := hcarriage, gshadow := ?_ }⟩
      · simp only [AccountFiles.accounts, Option.getD_some, hgrown, hfile, Option.map_none]
      · exact fun h => nomatch h
    | some text =>
      rw [hfile, Option.getD_some] at hgshadow
      simp only
      by_cases hin : Has user (rows ':' text)
      · rw [if_pos ((any_startsEntry hfield).mpr hin)]
        refine ⟨rfl, ?_, { hunix with group := hcarriage, gshadow := ?_ }⟩
        · simp only [AccountFiles.accounts, Option.getD_some, hgrown, hfile, Option.map_some,
            if_pos hin]
        · simpa only [hfile, Option.getD_some] using hgshadow
      · rw [if_neg fun h => hin ((any_startsEntry hfield).mp h)]
        obtain ⟨hadded, hclean⟩ := rows_append hgshadow hgshadowRow (gshadowRow_fields hfield)
        refine ⟨rfl, ?_, { hunix with group := hcarriage, gshadow := hclean }⟩
        simp only [AccountFiles.accounts, Option.getD_some, hgrown, hfile, Option.map_some,
          if_neg hin, hadded]

theorem addPasswdEntry_spec (uid gid : ℕ) (hu : UserName user) (hunix : files.Unix) :
    (addPasswdEntry user uid gid files).accounts = { files.accounts with
        passwd := if (homeOf user files.accounts.passwd).isSome then files.accounts.passwd
          else files.accounts.passwd ++ [passwdRow user uid gid] } ∧
      (addPasswdEntry user uid gid files).Unix := by
  have hne : passwdRow user uid gid ≠ [] := List.cons_ne_nil _ _
  obtain ⟨hrows, hcarriage⟩ := rows_append hunix.passwd hne (passwdRow_fields hu.field)
  unfold addPasswdEntry
  rw [passwdHome_eq hu.field, ofFields_passwdRow]
  cases homeOf user files.accounts.passwd with
  | some home => exact ⟨rfl, hunix⟩
  | none =>
    refine ⟨?_, { hunix with passwd := hcarriage }⟩
    simp only [AccountFiles.accounts, Option.isNone_none, if_true, Option.getD_some, hrows,
      Option.isSome_none, Bool.false_eq_true, if_false]

theorem addShadowEntry_spec (days : ℕ) (hu : UserName user) (hunix : files.Unix) :
    (addShadowEntry days user files).accounts = { files.accounts with
        shadow := withRow user (shadowRow days user "*".toList) files.accounts.shadow } ∧
      (addShadowEntry days user files).Unix := by
  have hne : shadowRow days user "*".toList ≠ [] := List.cons_ne_nil _ _
  obtain ⟨hrows, hcarriage⟩ := rows_append hunix.shadow hne
    (shadowRow_fields hu.field (field_of_all (by decide)))
  unfold addShadowEntry withRow
  rw [ofFields_shadowRow]
  by_cases hhas : Has user files.accounts.shadow
  · rw [if_pos hhas, (shadowHas_iff hu.field).mpr hhas]
    exact ⟨rfl, hunix⟩
  · have hnot : shadowHas user files = false :=
      Bool.eq_false_iff.mpr fun h => hhas ((shadowHas_iff hu.field).mp h)
    rw [if_neg hhas, hnot]
    refine ⟨?_, { hunix with shadow := hcarriage }⟩
    simp only [AccountFiles.accounts, Bool.not_false, if_true, Option.getD_some, hrows]

theorem ensureUser_spec (days : ℕ) (hu : UserName user) (hunix : files.Unix) :
    (ensureUser days user files).accounts = files.accounts.ensured days user ∧
      (ensureUser days user files).Unix := by
  have hknown : ((passwdHome user files).isSome && shadowHas user files) = true ↔
      files.accounts.Known user := by
    rw [Bool.and_eq_true, shadowHas_iff hu.field, passwdHome_eq hu.field]
    rfl
  unfold ensureUser Accounts.ensured
  by_cases h : files.accounts.Known user
  · rw [if_pos h, if_pos (hknown.mpr h)]
    exact addUserToGroups_spec adminGroups hu.field hunix
  · rw [if_neg h, if_neg fun hcond => h (hknown.mp hcond)]
    obtain ⟨hgid, hgroup, hunix₁⟩ := ensureGroup_spec (nextUid files) hu hunix
    obtain ⟨hpasswd, hunix₂⟩ := addPasswdEntry_spec (nextUid files)
      (ensureGroup user (nextUid files) files).1 hu hunix₁
    obtain ⟨hshadow, hunix₃⟩ := addShadowEntry_spec days hu hunix₂
    obtain ⟨hmembers, hunix₄⟩ :=
      addUserToGroups_spec (adminGroups ++ [user]) hu.field hunix₃
    refine ⟨?_, hunix₄⟩
    refine hmembers.trans ?_
    rw [hshadow, hpasswd, hgroup, hgid, nextUid_eq]
    rfl

theorem setShadowHash_spec (hu : UserName user) (hhash : Field ':' hash) (hunix : files.Unix)
    (h : setShadowHash days user hash files = .ok new) :
    new.accounts = { files.accounts with
        shadow := if Has user files.accounts.shadow
          then files.accounts.shadow.map (hashRow days user hash)
          else files.accounts.shadow ++ [shadowRow days user hash] } ∧ new.Unix := by
  have hshadow := hunix.shadow
  unfold setShadowHash at h
  cases hfile : files.shadow with
  | none =>
    rw [hfile] at h
    cases h
  | some text =>
    rw [hfile] at h hshadow
    rw [Option.getD_some] at hshadow
    simp only [Except.ok.injEq] at h
    subst h
    have hrows : files.accounts.shadow = rows ':' text := by
      rw [AccountFiles.accounts, hfile, Option.getD_some]
    rw [hrows]
    by_cases hhas : Has user (rows ':' text)
    · rw [if_pos hhas, if_pos ((any_startsEntry hu.field).mpr hhas)]
      have hmap := rows_rewriteLines hshadow
        (fun l hl => (withHash_spec days hu.field hhash hl).1)
        fun l hl => (withHash_spec days hu.field hhash hl).2
      refine ⟨?_, { hunix with shadow := ?_ }⟩
      · simp only [AccountFiles.accounts, Option.getD_some]
        rw [← hmap]
        rfl
      · exact carriage_rewriteLines hshadow fun l hl => (withHash_spec days hu.field hhash hl).1
    · rw [if_neg hhas, if_neg fun hany => hhas ((any_startsEntry hu.field).mp hany)]
      have hself : ∀ l ∈ lines text, withHash days user hash l = l := fun l hl =>
        if_neg fun hstarts =>
        hhas ⟨fields l, List.mem_map_of_mem hl, (startsEntry_iff hu.field).mp hstarts⟩
      have hsame : (lines text).map (withHash days user hash) = lines text := by
        rw [List.map_congr_left hself, List.map_id']
      have hne : shadowRow days user hash ≠ [] := List.cons_ne_nil _ _
      obtain ⟨hgrown, hcarriage⟩ := rows_append hshadow hne (shadowRow_fields hu.field hhash)
      rw [appendLine_eq hshadow] at hgrown hcarriage
      rw [hsame, ofFields_shadowRow, intercalate_newline]
      refine ⟨?_, { hunix with shadow := hcarriage }⟩
      simp only [AccountFiles.accounts, Option.getD_some, hgrown]

theorem unlockPasswd_spec (hu : Field ':' user) (hunix : files.Unix) :
    (unlockPasswd user files).accounts =
        { files.accounts with passwd := files.accounts.passwd.map (unlockedRow user) } ∧
      (unlockPasswd user files).Unix := by
  have hpasswd := hunix.passwd
  unfold unlockPasswd
  cases hfile : files.passwd with
  | none =>
    refine ⟨?_, hunix⟩
    simp only [AccountFiles.accounts, hfile, Option.getD_none, rows_nil, List.map_nil]
  | some text =>
    rw [hfile, Option.getD_some] at hpasswd
    have hrows := rows_rewriteLines hpasswd (fun l hl => (unlocked_spec hu hl).1)
      fun l hl => (unlocked_spec hu hl).2
    refine ⟨?_, { hunix with passwd := ?_ }⟩
    · simp only [AccountFiles.accounts, hfile, Option.getD_some, hrows]
    · exact carriage_rewriteLines hpasswd fun l hl => (unlocked_spec hu hl).1

/-- The hash of the password, if one is given. -/
def hashOf (hashPassword : List Char → Except String (List Char)) (password : Option (List Char)) :
    Except String (Option (List Char)) :=
  match password.filter (!·.isEmpty) with
  | none => .ok none
  | some password => (hashPassword password).map some

/-- On the tables a login's injection is `Accounts.login`. -/
theorem injectLogin_spec {hashPassword : List Char → Except String (List Char)} {raw : List Char}
    {password : Option (List Char)} {keys : List (List Char)} {written : Option AuthorizedKeys}
    (hhash : ∀ password hash, hashPassword password = .ok hash → Field ':' hash)
    (hunix : files.Unix)
    (h : injectLogin hashPassword days raw password keys files = .ok (new, written)) :
    ∃ hash, hashOf hashPassword password = .ok hash ∧ (∀ x ∈ hash, Field ':' x) ∧
      new.accounts = files.accounts.login days (sanitizeUser raw) hash ∧ new.Unix ∧
      writeAuthorizedKeys (sanitizeUser raw) keys new = .ok written := by
  have hu := userName_sanitizeUser raw
  obtain ⟨hensured, hunix₁⟩ := ensureUser_spec days hu hunix
  unfold injectLogin at h
  unfold hashOf
  cases hpassword : password.filter (!·.isEmpty) with
  | none =>
    rw [hpassword] at h
    obtain ⟨_, hpure, h⟩ := bind_ok h
    cases hpure
    obtain ⟨w, hkeys, h⟩ := bind_ok h
    cases h
    exact ⟨none, rfl, fun x hx => absurd hx (Option.not_mem_none x), hensured, hunix₁, hkeys⟩
  | some password =>
    rw [hpassword] at h
    obtain ⟨hash, hok, h⟩ := bind_ok h
    obtain ⟨files₁, hset, h⟩ := bind_ok h
    obtain ⟨_, hpure, h⟩ := bind_ok h
    cases hpure
    obtain ⟨w, hkeys, h⟩ := bind_ok h
    cases h
    have hfield := hhash password hash hok
    obtain ⟨hshadow, hunix₂⟩ := setShadowHash_spec hu hfield hunix₁ hset
    obtain ⟨hunlocked, hunix₃⟩ := unlockPasswd_spec hu.field hunix₂
    refine ⟨some hash, congrArg (Except.map some) hok, fun x hx => Option.some.inj hx ▸ hfield, ?_,
      hunix₃, hkeys⟩
    rw [hunlocked, hshadow, hensured]
    rfl

end tables

end Pertisk.Seed
