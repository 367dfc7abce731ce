import Pertisk.Seed.Access

namespace Pertisk.Seed
open Lib PeerUrl Text

/-! ### Rewriting a file again -/

section again
variable {f g : List Char → List Char} {text user hash l : List Char} {groups : List (List Char)}
  {days : ℕ} {r : Row} {files new : AccountFiles}

theorem rewriteLines_again (htext : '\r' ∉ text) (hf : ∀ l, Line l → Line (f l))
    (hfg : ∀ l, Line l → g (f l) = f l) :
    rewriteLines g (rewriteLines f text) = rewriteLines f text := by
  rw [rewriteLines_eq, lines_rewriteLines htext hf, rewriteLines_eq, List.map_map]
  congr 1
  exact List.map_congr_left fun l hl => hfg l (line_of_mem_lines htext l hl)

theorem withMember_eq (user : List Char) (groups : List (List Char)) (l : List Char) :
    withMember user groups l = ofFields (memberRow user groups (fields l)) := by
  have hl : ∀ {r}, fields l = r → l = ofFields r := fun hf =>
    (ofFields_fields l).symm.trans (congrArg ofFields hf)
  unfold withMember memberRow
  rcases hf : fields l with - | ⟨name, - | ⟨password, - | ⟨gid, - | ⟨members, rest⟩⟩⟩⟩
  · exact hl hf
  · exact hl hf
  · exact hl hf
  · exact hl hf
  · dsimp only
    split
    · rfl
    · exact hl hf

theorem withHash_eq (hu : Field ':' user) (l : List Char) :
    withHash days user hash l = ofFields (hashRow days user hash (fields l)) := by
  unfold withHash hashRow
  by_cases hkey : Keyed user (fields l)
  · rw [if_pos hkey, if_pos ((startsEntry_iff hu).mpr hkey)]
  · rw [if_neg hkey, if_neg fun h => hkey ((startsEntry_iff hu).mp h), ofFields_fields]

theorem unlocked_eq (hu : Field ':' user) (hl : Line l) :
    unlocked user l = ofFields (unlockedRow user (fields l)) := by
  rw [← (unlocked_spec hu hl).2, ofFields_fields]

theorem memberRow_again (hu : UserName user) {admins : List (List Char)} (hsub : admins ⊆ groups)
    (r : Row) : memberRow user admins (memberRow user groups r) = memberRow user groups r := by
  rcases r with - | ⟨name, - | ⟨password, - | ⟨gid, - | ⟨members, rest⟩⟩⟩⟩
  · rfl
  · rfl
  · rfl
  · rfl
  · by_cases hname : name ∈ groups
    · have hin : ∀ members', members' = (if user ∈ membersOf members then members
          else [','].intercalate (membersOf members ++ [user])) → user ∈ membersOf members' := by
        rintro members' rfl
        split
        · assumption
        · rw [membersOf_join hu]
          exact List.mem_append_right _ List.mem_cons_self
      simp only [memberRow, if_pos hname, if_pos (hin _ rfl), ite_self]
    · simp only [memberRow, if_neg hname, if_neg fun h => hname (hsub h)]

theorem hashRow_again :
    hashRow days user hash (hashRow days user hash r) = hashRow days user hash r := by
  by_cases hkey : Keyed user r
  · have hagain : Keyed user (hashRow days user hash r) := hashRow_keepsKey.keyed.mpr hkey
    rw [hashRow, if_pos hagain, hashRow, if_pos hkey]
    rw [List.set_comm _ _ (show 2 ≠ 1 by decide), List.set_set, List.set_set]
  · rw [hashRow_other hkey, hashRow_other hkey]

theorem unlockedRow_again : unlockedRow user (unlockedRow user r) = unlockedRow user r := by
  rcases r with - | ⟨name, - | ⟨password, rest⟩⟩
  · rfl
  · rfl
  · by_cases h : name = user ∧ password ∈ locks
    · have hopen : ¬ (name = user ∧ "x".toList ∈ locks) := fun h => absurd h.2 (by decide)
      simp only [unlockedRow, if_pos h, if_neg hopen]
    · simp only [unlockedRow, if_neg h]

/-! ### The operations again -/

theorem addUserToGroups_eq (user : List Char) (groups : List (List Char)) (files : AccountFiles) :
    addUserToGroups user groups files =
      { files with group := files.group.map (rewriteLines (withMember user groups)) } := by
  obtain ⟨passwd, shadow, group, gshadow⟩ := files
  cases group with
  | none => rfl
  | some text => rfl

theorem unlockPasswd_eq (user : List Char) (files : AccountFiles) :
    unlockPasswd user files =
      { files with passwd := files.passwd.map (rewriteLines (unlocked user)) } := by
  obtain ⟨passwd, shadow, group, gshadow⟩ := files
  cases passwd with
  | none => rfl
  | some text => rfl

/-- The last step of every run leaves the groups so that it need not be taken again. -/
theorem addUserToGroups_again (hu : UserName user) (hsub : adminGroups ⊆ groups)
    (hgroup : '\r' ∉ files.group.getD [])
    (hnew : new.group = (addUserToGroups user groups files).group) :
    addUserToGroups user adminGroups new = new := by
  rw [addUserToGroups_eq] at hnew ⊢
  dsimp only at hnew
  cases hfile : files.group with
  | none =>
    rw [hfile, Option.map_none] at hnew
    rw [hnew, Option.map_none, ← hnew]
  | some text =>
    rw [hfile, Option.getD_some] at hgroup
    rw [hfile, Option.map_some] at hnew
    have hsame : rewriteLines (withMember user adminGroups)
        (rewriteLines (withMember user groups) text) =
        rewriteLines (withMember user groups) text := by
      refine rewriteLines_again hgroup (fun l hl => (withMember_spec groups hu.field hl).1)
        fun l hl => ?_
      rw [withMember_eq, (withMember_spec groups hu.field hl).2, memberRow_again hu hsub,
        ← withMember_eq]
    rw [hnew, Option.map_some, hsame, ← hnew]

theorem unlockPasswd_again (hu : Field ':' user) (hpasswd : '\r' ∉ files.passwd.getD [])
    (hnew : new.passwd = (unlockPasswd user files).passwd) : unlockPasswd user new = new := by
  rw [unlockPasswd_eq] at hnew ⊢
  dsimp only at hnew
  cases hfile : files.passwd with
  | none =>
    rw [hfile, Option.map_none] at hnew
    rw [hnew, Option.map_none, ← hnew]
  | some text =>
    rw [hfile, Option.getD_some] at hpasswd
    rw [hfile, Option.map_some] at hnew
    have hsame : rewriteLines (unlocked user) (rewriteLines (unlocked user) text) =
        rewriteLines (unlocked user) text := by
      refine rewriteLines_again hpasswd (fun l hl => (unlocked_spec hu hl).1) fun l hl => ?_
      rw [unlocked_eq hu (unlocked_spec hu hl).1, (unlocked_spec hu hl).2, unlockedRow_again,
        ← unlocked_eq hu hl]
    rw [hnew, Option.map_some, hsame, ← hnew]

theorem setShadowHash_again (hu : Field ':' user) (hhash : Field ':' hash)
    (hshadow : '\r' ∉ files.shadow.getD []) {set : AccountFiles}
    (h : setShadowHash days user hash files = .ok set) (hhas : Has user files.accounts.shadow)
    (hnew : new.shadow = set.shadow) : setShadowHash days user hash new = .ok new := by
  unfold setShadowHash at h
  cases hfile : files.shadow with
  | none =>
    rw [hfile] at h
    cases h
  | some text =>
    rw [hfile] at h hshadow
    rw [Option.getD_some] at hshadow
    simp only [Except.ok.injEq] at h
    subst h
    have hany : (lines text).any (startsEntry user) = true := by
      rw [AccountFiles.accounts, hfile] at hhas
      exact (any_startsEntry hu).mpr hhas
    rw [if_pos hany] at hnew
    have hfixed : new.shadow = some (rewriteLines (withHash days user hash) text) := hnew
    have hline : ∀ l, Line l → Line (withHash days user hash l) :=
      fun l hl => (withHash_spec days hu hhash hl).1
    have hsame : rewriteLines (withHash days user hash)
        (rewriteLines (withHash days user hash) text) =
        rewriteLines (withHash days user hash) text := by
      refine rewriteLines_again hshadow hline fun l hl => ?_
      rw [withHash_eq hu, (withHash_spec days hu hhash hl).2, hashRow_again, ← withHash_eq hu]
    have hagain : (lines (rewriteLines (withHash days user hash) text)).any (startsEntry user) =
        true := by
      rw [any_startsEntry hu,
        rows_rewriteLines hshadow hline fun l hl => (withHash_spec days hu hhash hl).2,
        has_map hashRow_keepsKey]
      exact (any_startsEntry hu).mp hany
    unfold setShadowHash
    rw [hfixed]
    dsimp only
    rw [if_pos hagain]
    change Except.ok { new with
      shadow := some (rewriteLines (withHash days user hash) (rewriteLines _ text)) } = _
    rw [hsame, ← hfixed]

end again

section relogin
variable {hashPassword : List Char → Except String (List Char)} {days : ℕ} {raw user : List Char}
  {password : Option (List Char)} {keys : List (List Char)} {files new : AccountFiles}
  {written : Option AuthorizedKeys} {a : Accounts}

theorem ensureUser_last (hu : UserName user) (days : ℕ) (hunix : files.Unix) :
    ∃ groups base, adminGroups ⊆ groups ∧ base.Unix ∧
      ensureUser days user files = addUserToGroups user groups base := by
  unfold ensureUser
  split
  · exact ⟨adminGroups, files, List.Subset.refl _, hunix, rfl⟩
  · obtain ⟨-, -, hunix₁⟩ := ensureGroup_spec (nextUid files) hu hunix
    obtain ⟨-, hunix₂⟩ := addPasswdEntry_spec (nextUid files)
      (ensureGroup user (nextUid files) files).1 hu hunix₁
    obtain ⟨-, hunix₃⟩ := addShadowEntry_spec days hu hunix₂
    exact ⟨adminGroups ++ [user], _, List.subset_append_left _ _, hunix₃, rfl⟩

theorem ensureUser_again (hu : UserName user) (hunix : files.Unix)
    (hnew : new.group = (ensureUser days user files).group) (hknown : new.accounts.Known user) :
    ensureUser days user new = new := by
  obtain ⟨groups, base, hsub, hbase, hlast⟩ := ensureUser_last hu days hunix
  have hcond : ((passwdHome user new).isSome && shadowHas user new) = true := by
    rw [Bool.and_eq_true, shadowHas_iff hu.field, passwdHome_eq hu.field]
    exact hknown
  unfold ensureUser
  rw [if_pos hcond]
  rw [hlast] at hnew
  exact addUserToGroups_again hu hsub hbase.group hnew

theorem login_shadow (days : ℕ) (user : List Char) (hash : Option (List Char)) (a : Accounts) :
    Has user (a.login days user hash).shadow := by
  have hensured : Has user (a.ensured days user).shadow := ensured_shadow a
  cases hash with
  | none => exact hensured
  | some hash =>
    unfold Accounts.login Accounts.hashed
    dsimp only
    rw [if_pos hensured]
    exact (has_map hashRow_keepsKey).mpr hensured

theorem garbled_login (hash : Option (List Char)) (h : Garbled user a.passwd) :
    Garbled user (a.login days user hash).passwd := by
  rw [Garbled, firstHome_login, ensured_passwd]
  split
  · exact h
  · rw [firstHome_append keyed_passwdRow, h]
    rfl

theorem length_login_garbled (hash : Option (List Char)) (h : Garbled user a.passwd) :
    (a.login days user hash).passwd.length = a.passwd.length + 1 := by
  have hnone : homeOf user a.passwd = none := by
    rw [homeOf_eq, h]
    rfl
  rw [login_passwd, List.length_map, ensured_passwd, hnone, if_neg (by simp), List.length_append,
    List.length_singleton]

end relogin

end Pertisk.Seed
