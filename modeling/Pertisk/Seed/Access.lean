import Pertisk.Seed.Provisioned

namespace Pertisk.Seed
open Lib PeerUrl Text

/-! ### The entry that is read -/

/-- The first complete entry of the user. -/
def firstHome (user : List Char) (rs : List Row) : Option (Option (ℕ × ℕ × List Char)) :=
  (ownRows user rs).findSome? homeFields

/-- The user's first complete entry has an id that is no number. -/
def Garbled (user : List Char) (rs : List Row) : Prop := firstHome user rs = some none

section home
variable {user hash : List Char} {rs : List Row} {r : Row} {uid gid days : ℕ} {a : Accounts}
  {s : List Char} {n : ℕ}

theorem homeOf_eq (user : List Char) (rs : List Row) :
    homeOf user rs = (firstHome user rs).join := by
  induction rs with
  | nil => rfl
  | cons r rs ih =>
    unfold homeOf firstHome
    by_cases hkey : Keyed user r
    · rw [if_pos hkey, ownRows_cons hkey, List.findSome?_cons]
      cases homeFields r with
      | none => exact ih
      | some found => rfl
    · rw [if_neg hkey, ownRows_cons_other hkey]
      exact ih

theorem homeFields_unlockedRow (r : Row) : homeFields (unlockedRow user r) = homeFields r := by
  unfold unlockedRow
  split
  · rename_i name password rest
    split
    · rcases rest with - | ⟨uid, - | ⟨gid, - | ⟨gecos, - | ⟨home, rest⟩⟩⟩⟩
      · rfl
      · rfl
      · rfl
      · rfl
      · rfl
    · rfl
  · rfl

theorem firstHome_unlocked : firstHome user (rs.map (unlockedRow user)) = firstHome user rs := by
  unfold firstHome
  rw [unlockedRow_keepsKey.ownRows, List.findSome?_map]
  exact congrArg (fun f => List.findSome? f _) (funext homeFields_unlockedRow)

theorem firstHome_append (hkey : Keyed user r) :
    firstHome user (rs ++ [r]) = (firstHome user rs).or (homeFields r) := by
  unfold firstHome
  rw [ownRows_append hkey, List.findSome?_append, List.findSome?_singleton]

theorem parseU32_lt (h : parseU32 s = some n) : n < 2 ^ 32 :=
  of_decide_eq_true (Option.filter_eq_some_iff.mp h).2

theorem groupNumber_lt (h : gid < 2 ^ 32) : groupNumber user gid rs < 2 ^ 32 := by
  unfold groupNumber
  split
  · rename_i r _
    cases hnumber : r[2]?.bind parseU32 with
    | none => exact h
    | some n =>
      obtain ⟨s, -, hs⟩ := Option.bind_eq_some_iff.mp hnumber
      exact parseU32_lt hs
  · exact h

theorem freeUid_lt (hroom : rs.length + 1000 < 2 ^ 32) : freeUid rs < 2 ^ 32 := by
  have hle := freeUid_le rs
  omega

theorem homeFields_passwdRow (user : List Char) (huid : uid < 2 ^ 32) (hgid : gid < 2 ^ 32) :
    homeFields (passwdRow user uid gid) = some (some (uid, gid, "/home/".toList ++ user)) := by
  unfold homeFields passwdRow
  simp only [parseU32_digits huid, parseU32_digits hgid]
  rfl

theorem ensured_passwd (days : ℕ) (user : List Char) (a : Accounts) :
    (a.ensured days user).passwd = if (homeOf user a.passwd).isSome then a.passwd
      else a.passwd ++ [passwdRow user (freeUid a.passwd) (a.gid user)] := by
  unfold Accounts.ensured
  by_cases hknown : a.Known user
  · rw [if_pos hknown, if_pos hknown.1]
  · rw [if_neg hknown]

theorem login_passwd (days : ℕ) (user : List Char) (hash : Option (List Char)) (a : Accounts) :
    (a.login days user hash).passwd = (a.ensured days user).passwd.map
      (if hash.isSome then unlockedRow user else id) := by
  cases hash with
  | none => exact (List.map_id _).symm
  | some hash => rfl

theorem firstHome_login (hash : Option (List Char)) :
    firstHome user (a.login days user hash).passwd =
      firstHome user (a.ensured days user).passwd := by
  rw [login_passwd]
  split
  · exact firstHome_unlocked
  · rw [List.map_id]

/-- Afterwards the user's entry can be read, or the one that was there before cannot. -/
theorem homeOf_login (hash : Option (List Char)) (hroom : a.passwd.length + 1000 < 2 ^ 32) :
    homeOf user (a.login days user hash).passwd = none ↔ Garbled user a.passwd := by
  have huid := freeUid_lt hroom
  have hgid : a.gid user < 2 ^ 32 := groupNumber_lt huid
  rw [homeOf_eq, firstHome_login, ensured_passwd, homeOf_eq, Garbled]
  cases hfirst : firstHome user a.passwd with
  | none =>
    rw [if_neg (by simp), firstHome_append keyed_passwdRow, hfirst,
      homeFields_passwdRow user huid hgid]
    simp
  | some found =>
    cases found with
    | none =>
      rw [if_neg (by simp), firstHome_append keyed_passwdRow, hfirst]
      simp
    | some home =>
      rw [if_pos (by simp), hfirst]
      simp

end home

/-! ### When the injection succeeds -/

section success
variable {hashPassword : List Char → Except String (List Char)} {days : ℕ} {raw user : List Char}
  {password : Option (List Char)} {keys : List (List Char)} {files new : AccountFiles}
  {written : Option AuthorizedKeys}

theorem writeAuthorizedKeys_ok_iff :
    (∃ written, writeAuthorizedKeys user keys files = .ok written) ↔
    (∀ key ∈ keys, trim key = []) ∨ passwdHome user files ≠ none := by
  have hblank : (((keys.map trim).filter (!·.isEmpty)).isEmpty = true) ↔
      ∀ key ∈ keys, trim key = [] := by
    rw [List.isEmpty_iff, List.filter_eq_nil_iff]
    simp
  unfold writeAuthorizedKeys
  by_cases hall : ∀ key ∈ keys, trim key = []
  · rw [if_pos (hblank.mpr hall)]
    exact iff_of_true ⟨none, rfl⟩ (.inl hall)
  · rw [if_neg fun h => hall (hblank.mp h)]
    cases passwdHome user files with
    | none =>
      refine iff_of_false ?_ fun h => h.elim hall fun hne => hne rfl
      rintro ⟨written, h⟩
      cases h
    | some home => exact iff_of_true ⟨_, rfl⟩ (.inr (Option.some_ne_none home))

theorem ensured_shadow (a : Accounts) : Has user (a.ensured days user).shadow := by
  unfold Accounts.ensured
  by_cases hknown : a.Known user
  · rw [if_pos hknown]
    exact hknown.2
  · rw [if_neg hknown]
    exact has_withRow (keyed_shadowRow ..)

theorem setShadowHash_ok (h : Has user files.accounts.shadow) (days : ℕ) (hash : List Char) :
    ∃ new, setShadowHash days user hash files = .ok new := by
  unfold setShadowHash
  cases hfile : files.shadow with
  | none =>
    rw [AccountFiles.accounts, hfile] at h
    exact absurd h not_has_nil
  | some text => exact ⟨_, rfl⟩

end success

theorem cloudImage_room : cloudImage.accounts.passwd.length + 1000 < 2 ^ 32 := by decide +kernel

/-- A user that had no entry has one with the least free uid from 1000 on. Its own group has that
number too, which another group may have. -/
structure FreshLogin (user : List Char) (a a' : Accounts) (uid gid : ℕ) : Prop where
  entry : ownRows user a'.passwd = [passwdRow user uid gid]
  low : 1000 ≤ uid
  unused : ∀ r ∈ a.passwd, numberOf r ≠ some uid
  least : ∀ k, 1000 ≤ k → k < uid → ∃ r ∈ a.passwd, numberOf r = some k
  joined : Has user a.group → gid = groupNumber user uid a.group
  made : ¬ Has user a.group → gid = uid ∧
    ((∃ r ∈ otherRows user a'.group, numberOf r = some gid) ↔ ∃ r ∈ a.group, numberOf r = some uid)

section fresh
variable {hashPassword : List Char → Except String (List Char)} {days uid gid : ℕ}
  {raw user : List Char} {password : Option (List Char)} {keys : List (List Char)}
  {files new : AccountFiles} {written : Option AuthorizedKeys} {a : Accounts} {rs : List Row} {groups : List (List Char)}

theorem numberOf_memberRow (r : Row) : numberOf (memberRow user groups r) = numberOf r := by
  unfold memberRow
  split
  · split
    · rfl
    · rfl
  · rfl

theorem ownRows_of_not_has (h : ¬ Has user rs) : ownRows user rs = [] :=
  List.filter_eq_nil_iff.mpr fun r hr hkey => h ⟨r, hr, of_decide_eq_true hkey⟩

theorem otherRows_of_not_has (h : ¬ Has user rs) : otherRows user rs = rs :=
  List.filter_eq_self.mpr fun r hr => by simpa using fun hkey => h ⟨r, hr, hkey⟩

theorem unlockedRow_passwdRow :
    unlockedRow user (passwdRow user uid gid) = passwdRow user uid gid :=
  if_neg fun h => absurd h.2 (by decide)

theorem login_group (days : ℕ) (user : List Char) (hash : Option (List Char)) (a : Accounts) :
    (a.login days user hash).group = (a.ensured days user).group := by
  cases hash with
  | none => rfl
  | some hash => rfl

theorem login_fresh (days : ℕ) (hash : Option (List Char)) (hnew : ¬ Has user a.passwd) :
    FreshLogin user a (a.login days user hash) (freeUid a.passwd) (a.gid user) := by
  have hnone : homeOf user a.passwd = none := by
    rw [homeOf_eq, firstHome, ownRows_of_not_has hnew]
    rfl
  have hunknown : ¬ a.Known user := by
    rintro ⟨hsome, -⟩
    rw [hnone] at hsome
    cases hsome
  refine ⟨?_, le_freeUid _, fun r hr hnumber => ?_, fun k hk hlt => ?_, fun _ => rfl,
    fun hgroup => ?_⟩
  · have hensured : ownRows user (a.ensured days user).passwd =
        [passwdRow user (freeUid a.passwd) (a.gid user)] := by
      rw [ensured_passwd, hnone, if_neg (by simp), ownRows_append keyed_passwdRow,
        ownRows_of_not_has hnew, List.nil_append]
    rw [login_passwd]
    split
    · rw [unlockedRow_keepsKey.ownRows, hensured, List.map_singleton, unlockedRow_passwdRow]
    · rw [List.map_id, hensured]
  · exact freeUid_notMem a.passwd (List.mem_filterMap.mpr ⟨r, hr, hnumber⟩)
  · obtain ⟨r, hr, hnumber⟩ := List.mem_filterMap.mp (firstFree_least hk hlt)
    exact ⟨r, hr, hnumber⟩
  · have hgid : a.gid user = freeUid a.passwd := groupNumber_of_not_has hgroup
    have hothers : otherRows user (a.login days user hash).group =
        a.group.map (memberRow user (adminGroups ++ [user])) := by
      rw [login_group, Accounts.ensured, if_neg hunknown]
      dsimp only
      rw [memberRow_keepsKey.otherRows, otherRows_withRow (keyed_groupRow ..),
        otherRows_of_not_has hgroup]
    rw [hothers, hgid]
    refine ⟨rfl, ?_⟩
    constructor
    · rintro ⟨r, hr, hnumber⟩
      obtain ⟨s, hs, rfl⟩ := List.mem_map.mp hr
      exact ⟨s, hs, (numberOf_memberRow s).symm.trans hnumber⟩
    · rintro ⟨s, hs, hnumber⟩
      exact ⟨_, List.mem_map_of_mem hs, (numberOf_memberRow s).trans hnumber⟩

end fresh

end Pertisk.Seed
