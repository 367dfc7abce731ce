import Mathlib.Data.List.Nodup
import Pertisk.Seed.Relogin

namespace Pertisk.Seed
open Lib PeerUrl Text

/-- Accounts as they should be: each name once, every id a number, and no uid twice. -/
structure Accounts.Good (a : Accounts) : Prop where
  entries : ∀ r ∈ a.passwd, ∃ found, homeFields r = some (some found)
  names : (a.passwd.map List.head?).Nodup
  uids : (a.passwd.map numberOf).Nodup
  shadow : ∀ r ∈ a.shadow, 2 ≤ r.length
  shadowNames : (a.shadow.map List.head?).Nodup
  group : ∀ r ∈ a.group, 2 ≤ r.length
  groupNames : (a.group.map List.head?).Nodup

section rows
variable {user name hash : List Char} {groups : List (List Char)} {r row : Row} {rs : List Row}
  {uid gid days n k fuel : ℕ} {home : List Char} {a : Accounts} {used : List ℕ}

theorem homeFields_some (h : homeFields r = some (some (uid, gid, home))) :
    numberOf r = some uid ∧ 2 ≤ r.length := by
  unfold homeFields at h
  split at h
  · rename_i x y uid' gid' z home' rest
    obtain ⟨u, hu, hrest⟩ := Option.bind_eq_some_iff.mp (Option.some.inj h)
    obtain ⟨g, hg, hpure⟩ := Option.bind_eq_some_iff.mp hrest
    cases hpure
    exact ⟨hu, Nat.le_add_left 2 _⟩
  · cases h

theorem Accounts.Good.two_fields (h : a.Good) : ∀ r ∈ a.passwd, 2 ≤ r.length := by
  intro r hr
  obtain ⟨⟨uid, gid, home⟩, hfields⟩ := h.entries r hr
  exact (homeFields_some hfields).2

theorem name_notMem (hlen : ∀ r ∈ rs, 2 ≤ r.length) (h : ¬ Has name rs) :
    some name ∉ rs.map List.head? := by
  intro hmem
  obtain ⟨r, hr, hhead⟩ := List.mem_map.mp hmem
  exact h ⟨r, hr, hhead, hlen r hr⟩

theorem names_append (hlen : ∀ r ∈ rs, 2 ≤ r.length) (hnames : (rs.map List.head?).Nodup)
    (hkey : Keyed name row) (h : ¬ Has name rs) : ((rs ++ [row]).map List.head?).Nodup := by
  rw [List.map_append, List.map_singleton, hkey.1]
  refine List.nodup_append.mpr ⟨hnames, List.nodup_singleton _, ?_⟩
  intro x hx y hy
  rw [List.mem_singleton.mp hy]
  rintro rfl
  exact name_notMem hlen h hx

theorem names_withRow (hlen : ∀ r ∈ rs, 2 ≤ r.length) (hnames : (rs.map List.head?).Nodup)
    (hkey : Keyed name row) :
    (∀ r ∈ withRow name row rs, 2 ≤ r.length) ∧ ((withRow name row rs).map List.head?).Nodup := by
  unfold withRow
  split
  · exact ⟨hlen, hnames⟩
  · rename_i hnot
    refine ⟨fun r hr => ?_, names_append hlen hnames hkey hnot⟩
    rcases List.mem_append.mp hr with hr | hr
    · exact hlen r hr
    · exact List.mem_singleton.mp hr ▸ hkey.2

theorem map_two_fields {F : Row → Row} (hF : KeepsKey F) (hlen : ∀ r ∈ rs, 2 ≤ r.length) :
    ∀ r ∈ rs.map F, 2 ≤ r.length := by
  intro r hr
  obtain ⟨s, hs, rfl⟩ := List.mem_map.mp hr
  rw [hF.length]
  exact hlen s hs

/-- A name that stands in a table of different names has one row there. -/
theorem ownRows_single (hnames : (rs.map List.head?).Nodup) (h : Has name rs) :
    ∃ r, ownRows name rs = [r] := by
  obtain ⟨r, hr, hkey⟩ := h
  have hmem : r ∈ ownRows name rs := mem_ownRows.mpr ⟨hr, hkey⟩
  have hsame : (ownRows name rs).map List.head? =
      List.replicate (ownRows name rs).length (some name) := by
    refine List.eq_replicate_iff.mpr ⟨List.length_map _, fun x hx => ?_⟩
    obtain ⟨s, hs, rfl⟩ := List.mem_map.mp hx
    exact (mem_ownRows.mp hs).2.1
  have hnodup : ((ownRows name rs).map List.head?).Nodup :=
    hnames.sublist (List.filter_sublist.map _)
  rw [hsame, List.nodup_replicate] at hnodup
  have hpos := List.length_pos_of_mem hmem
  exact List.length_eq_one_iff.mp (by omega)

theorem Accounts.Good.home_iff (h : a.Good) :
    (homeOf user a.passwd).isSome = true ↔ Has user a.passwd := by
  rw [homeOf_eq]
  constructor
  · intro hsome
    obtain ⟨found, hfound⟩ := Option.isSome_iff_exists.mp hsome
    rw [Option.join_eq_some_iff] at hfound
    obtain ⟨r, hr, -⟩ := List.exists_of_findSome?_eq_some hfound
    exact ⟨r, mem_ownRows.mp hr⟩
  · rintro ⟨r, hr, hkey⟩
    have hmem : r ∈ ownRows user a.passwd := mem_ownRows.mpr ⟨hr, hkey⟩
    unfold firstHome
    cases hown : ownRows user a.passwd with
    | nil =>
      rw [hown] at hmem
      cases hmem
    | cons s rest =>
      have hs : s ∈ ownRows user a.passwd := hown ▸ List.mem_cons_self
      obtain ⟨found, hfound⟩ := h.entries s (mem_ownRows.mp hs).1
      rw [List.findSome?_cons, hfound]
      rfl

theorem Accounts.Good.not_garbled (h : a.Good) : ¬ Garbled user a.passwd := by
  intro hgarbled
  obtain ⟨r, hr, hnone⟩ := List.exists_of_findSome?_eq_some hgarbled
  obtain ⟨found, hfound⟩ := h.entries r (mem_ownRows.mp hr).1
  rw [hnone] at hfound
  cases hfound

theorem numberOf_unlockedRow (r : Row) : numberOf (unlockedRow user r) = numberOf r := by
  unfold unlockedRow
  split
  · rename_i name password rest
    split
    · cases rest with
      | nil => rfl
      | cons uid rest => rfl
    · rfl
  · rfl

/-! ### One injection -/

theorem Accounts.Good.ensured (h : a.Good) (hroom : a.passwd.length + 1000 < 2 ^ 32) (days : ℕ)
    (user : List Char) : (a.ensured days user).Good := by
  have huid := freeUid_lt hroom
  have hgid : a.gid user < 2 ^ 32 := groupNumber_lt huid
  have hrow := homeFields_passwdRow user huid hgid
  unfold Accounts.ensured
  by_cases hknown : a.Known user
  · rw [if_pos hknown]
    refine { h with group := map_two_fields memberRow_keepsKey h.group, groupNames := ?_ }
    dsimp only
    rw [memberRow_keepsKey.names]
    exact h.groupNames
  · rw [if_neg hknown]
    obtain ⟨hshadow, hshadowNames⟩ := names_withRow h.shadow h.shadowNames
      (keyed_shadowRow days user "*".toList)
    obtain ⟨hgroup, hgroupNames⟩ := names_withRow h.group h.groupNames
      (keyed_groupRow user (freeUid a.passwd))
    have hpasswd : (∀ r ∈ (if (homeOf user a.passwd).isSome then a.passwd
          else a.passwd ++ [passwdRow user (freeUid a.passwd) (a.gid user)]),
          ∃ found, homeFields r = some (some found)) ∧
        ((if (homeOf user a.passwd).isSome then a.passwd
          else a.passwd ++ [passwdRow user (freeUid a.passwd) (a.gid user)]).map List.head?).Nodup ∧
        ((if (homeOf user a.passwd).isSome then a.passwd
          else a.passwd ++ [passwdRow user (freeUid a.passwd) (a.gid user)]).map
            numberOf).Nodup := by
      split
      · exact ⟨h.entries, h.names, h.uids⟩
      · rename_i hnone
        rw [h.home_iff] at hnone
        refine ⟨fun r hr => ?_, names_append h.two_fields h.names keyed_passwdRow hnone, ?_⟩
        · rcases List.mem_append.mp hr with hr | hr
          · exact h.entries r hr
          · exact ⟨_, List.mem_singleton.mp hr ▸ hrow⟩
        · rw [List.map_append, List.map_singleton, (homeFields_some hrow).1]
          refine List.nodup_append.mpr ⟨h.uids, List.nodup_singleton _, fun x hx y hy => ?_⟩
          rw [List.mem_singleton.mp hy]
          rintro rfl
          obtain ⟨r, hr, hnumber⟩ := List.mem_map.mp hx
          exact freeUid_notMem a.passwd (List.mem_filterMap.mpr ⟨r, hr, hnumber⟩)
    exact {
      entries := hpasswd.1
      names := hpasswd.2.1
      uids := hpasswd.2.2
      shadow := hshadow
      shadowNames := hshadowNames
      group := map_two_fields memberRow_keepsKey hgroup
      groupNames := by
        dsimp only
        rw [memberRow_keepsKey.names]
        exact hgroupNames }

theorem Accounts.Good.hashed (h : a.Good) (days : ℕ) (user hash : List Char) :
    (a.hashed days user hash).Good := by
  have hshadow : (∀ r ∈ (a.hashed days user hash).shadow, 2 ≤ r.length) ∧
      ((a.hashed days user hash).shadow.map List.head?).Nodup := by
    unfold Accounts.hashed
    dsimp only
    split
    · refine ⟨map_two_fields hashRow_keepsKey h.shadow, ?_⟩
      rw [hashRow_keepsKey.names]
      exact h.shadowNames
    · rename_i hnot
      have hrow := names_withRow h.shadow h.shadowNames
        (keyed_shadowRow days user hash)
      rwa [withRow, if_neg hnot] at hrow
  refine { h with
    entries := ?_, names := ?_, uids := ?_, shadow := hshadow.1, shadowNames := hshadow.2 }
  · intro r hr
    obtain ⟨s, hs, rfl⟩ := List.mem_map.mp hr
    rw [homeFields_unlockedRow]
    exact h.entries s hs
  · unfold Accounts.hashed
    dsimp only
    rw [unlockedRow_keepsKey.names]
    exact h.names
  · unfold Accounts.hashed
    dsimp only
    have hsame : ∀ r ∈ a.passwd, (numberOf ∘ unlockedRow user) r = numberOf r :=
      fun r _ => numberOf_unlockedRow r
    rw [List.map_map, List.map_congr_left hsame]
    exact h.uids

theorem Accounts.Good.login (h : a.Good) (hroom : a.passwd.length + 1000 < 2 ^ 32) (days : ℕ)
    (user : List Char) (hash : Option (List Char)) : (a.login days user hash).Good := by
  cases hash with
  | none => exact h.ensured hroom days user
  | some hash => exact (h.ensured hroom days user).hashed days user hash

theorem has_login (h : a.Good) (hroom : a.passwd.length + 1000 < 2 ^ 32)
    (hash : Option (List Char)) :
    Has user (a.login days user hash).passwd := by
  rw [← (h.login hroom days user hash).home_iff, Option.isSome_iff_ne_none]
  exact fun hnone => h.not_garbled ((homeOf_login hash hroom).mp hnone)

theorem length_login_le (days : ℕ) (user : List Char) (hash : Option (List Char)) (a : Accounts) :
    (a.login days user hash).passwd.length ≤ a.passwd.length + 1 := by
  rw [login_passwd, List.length_map, ensured_passwd]
  split
  · exact Nat.le_succ _
  · rw [List.length_append, List.length_singleton]

/-- The rows of a name are among those that are not another's. -/
theorem ownRows_otherRows (hne : name ≠ user) (rs : List Row) :
    ownRows name (otherRows user rs) = ownRows name rs := by
  unfold ownRows otherRows
  rw [List.filter_filter]
  refine List.filter_congr fun r _ => ?_
  rw [Bool.eq_iff_iff, Bool.and_eq_true, decide_eq_true_iff, Bool.not_eq_true',
    decide_eq_false_iff_not]
  exact ⟨fun h => h.1, fun h => ⟨h, fun hkey => hne (Option.some.inj (h.1.symm.trans hkey.1))⟩⟩

end rows

/-! ### Runs of injections -/

/-- A login to inject into a guest's disk. -/
structure LoginRequest where
  hashPassword : List Char → Except String (List Char)
  days : ℕ
  raw : List Char
  password : Option (List Char)
  keys : List (List Char)

def LoginRequest.user (q : LoginRequest) : List Char := sanitizeUser q.raw

def LoginRequest.run (q : LoginRequest) (files : AccountFiles) : Except String AccountFiles :=
  (injectLogin q.hashPassword q.days q.raw q.password q.keys files).map Prod.fst

/-- One injection after the other: a disk is cloned, used and cloned again. -/
def injectAll : List LoginRequest → AccountFiles → Except String AccountFiles
  | [], files => .ok files
  | q :: qs, files => do
    let files ← q.run files
    injectAll qs files

/-- What holds of the accounts after the injections of some requests. -/
structure Injected (qs : List LoginRequest) (a a' : Accounts) : Prop where
  good : a'.Good
  once : ∀ q ∈ qs, (∃ r, ownRows q.user a'.passwd = [r]) ∧ ∃ s, ownRows q.user a'.shadow = [s]
  others : ∀ name, (∀ q ∈ qs, q.user ≠ name) → ownRows name a'.passwd = ownRows name a.passwd ∧
    ownRows name a'.shadow = ownRows name a.shadow

section runs
variable {q : LoginRequest} {qs : List LoginRequest} {files new : AccountFiles}

/-- What `openssl passwd` answers stays in its field. -/
def LoginRequest.Hashes (q : LoginRequest) : Prop :=
  ∀ password hash, q.hashPassword password = .ok hash → Field ':' hash

theorem run_login (hhash : q.Hashes) (hunix : files.Unix) (h : q.run files = .ok new) :
    new.Unix ∧ ∃ hash, new.accounts = files.accounts.login q.days q.user hash := by
  obtain ⟨⟨_, written⟩, hinject, rfl⟩ := map_ok_iff.mp h
  obtain ⟨hash, -, -, hnew, hunixNew, -⟩ := injectLogin_spec hhash hunix hinject
  exact ⟨hunixNew, hash, hnew⟩

theorem once_of_good {a : Accounts} {user : List Char} (h : a.Good) (hpasswd : Has user a.passwd)
    (hshadow : Has user a.shadow) :
    (∃ r, ownRows user a.passwd = [r]) ∧ ∃ s, ownRows user a.shadow = [s] :=
  ⟨ownRows_single h.names hpasswd, ownRows_single h.shadowNames hshadow⟩

/-- What a name's entries are does not change whether it has any: injections only add and edit. -/
theorem has_of_ownRows {name : List Char} {rs rs' : List Row}
    (h : ownRows name rs' = ownRows name rs) (hrs : Has name rs) : Has name rs' := by
  obtain ⟨r, hr, hkey⟩ := hrs
  have hmem : r ∈ ownRows name rs' := h ▸ mem_ownRows.mpr ⟨hr, hkey⟩
  exact ⟨r, mem_ownRows.mp hmem⟩

theorem login_ownRows {name user : List Char} (hne : name ≠ user) (hu : UserName user) (days : ℕ)
    (hash : Option (List Char)) (a : Accounts) :
    ownRows name (a.login days user hash).passwd = ownRows name a.passwd ∧
      ownRows name (a.login days user hash).shadow = ownRows name a.shadow := by
  have hothers := login_others hu days hash a
  constructor
  · rw [← ownRows_otherRows hne, hothers.passwd, ownRows_otherRows hne]
  · rw [← ownRows_otherRows hne, hothers.shadow, ownRows_otherRows hne]

theorem login_keeps_has {name user : List Char} (hu : UserName user) {a : Accounts} (h : a.Good)
    (hroom : a.passwd.length + 1000 < 2 ^ 32) (days : ℕ) (hash : Option (List Char))
    (hpasswd : Has name a.passwd) (hshadow : Has name a.shadow) :
    Has name (a.login days user hash).passwd ∧ Has name (a.login days user hash).shadow := by
  by_cases hne : name = user
  · subst hne
    exact ⟨has_login h hroom hash, login_shadow days name hash a⟩
  · obtain ⟨hkeptPasswd, hkeptShadow⟩ := login_ownRows hne hu days hash a
    exact ⟨has_of_ownRows hkeptPasswd hpasswd, has_of_ownRows hkeptShadow hshadow⟩

theorem injectAll_keeps (hhash : ∀ q ∈ qs, q.Hashes) (hunix : files.Unix)
    (hgood : files.accounts.Good)
    (hroom : files.accounts.passwd.length + qs.length + 1000 ≤ 2 ^ 32)
    (h : injectAll qs files = .ok new) :
    Injected qs files.accounts new.accounts ∧ ∀ name, Has name files.accounts.passwd →
      Has name files.accounts.shadow →
        Has name new.accounts.passwd ∧ Has name new.accounts.shadow := by
  induction qs generalizing files with
  | nil =>
    cases h
    exact ⟨⟨hgood, fun q hq => absurd hq List.not_mem_nil, fun _ _ => ⟨rfl, rfl⟩⟩,
      fun _ hpasswd hshadow => ⟨hpasswd, hshadow⟩⟩
  | cons q qs ih =>
    obtain ⟨files₁, hrun, h⟩ := bind_ok h
    have hu : UserName q.user := userName_sanitizeUser q.raw
    obtain ⟨hunix₁, hash, haccounts⟩ := run_login (hhash q List.mem_cons_self) hunix hrun
    rw [List.length_cons] at hroom
    have hroom₁ : files.accounts.passwd.length + 1000 < 2 ^ 32 := by omega
    have hlen := length_login_le q.days q.user hash files.accounts
    rw [← haccounts] at hlen
    have hgood₁ : files₁.accounts.Good := haccounts ▸ hgood.login hroom₁ q.days q.user hash
    obtain ⟨hinjected, hkeeps⟩ := ih (fun p hp => hhash p (List.mem_cons_of_mem q hp)) hunix₁ hgood₁
      (by omega) h
    have hstep : ∀ name, Has name files.accounts.passwd → Has name files.accounts.shadow →
        Has name files₁.accounts.passwd ∧ Has name files₁.accounts.shadow := by
      intro name hpasswd hshadow
      rw [haccounts]
      exact login_keeps_has hu hgood hroom₁ q.days hash hpasswd hshadow
    refine ⟨⟨hinjected.good, fun p hp => ?_, fun name hname => ?_⟩, fun name hpasswd hshadow => ?_⟩
    · rcases List.mem_cons.mp hp with rfl | hp
      · have hpasswd : Has p.user files₁.accounts.passwd := haccounts ▸ has_login hgood hroom₁ hash
        have hshadow : Has p.user files₁.accounts.shadow :=
          haccounts ▸ login_shadow p.days p.user hash _
        obtain ⟨hlast, hlast'⟩ := hkeeps p.user hpasswd hshadow
        exact once_of_good hinjected.good hlast hlast'
      · exact hinjected.once p hp
    · obtain ⟨hpasswd, hshadow⟩ :=
        hinjected.others name fun p hp => hname p (List.mem_cons_of_mem q hp)
      obtain ⟨hpasswd₁, hshadow₁⟩ := login_ownRows (hname q List.mem_cons_self).symm hu q.days hash
        files.accounts
      rw [← haccounts] at hpasswd₁ hshadow₁
      exact ⟨hpasswd.trans hpasswd₁, hshadow.trans hshadow₁⟩
    · obtain ⟨hpasswd₁, hshadow₁⟩ := hstep name hpasswd hshadow
      exact hkeeps name hpasswd₁ hshadow₁

end runs

def almaRequest : LoginRequest where
  hashPassword := fixedHash
  days := 20000
  raw := " Alma ".toList
  password := some "pw".toList
  keys := ["ssh-rsa A".toList]

theorem cloudImage_good : cloudImage.accounts.Good := by
  have hpasswd : cloudImage.accounts.passwd = [["root".toList, "x".toList, "0".toList, "0".toList,
      "root".toList, "/root".toList, "/bin/bash".toList]] := by decide +kernel
  have hhome : ∀ r ∈ cloudImage.accounts.passwd,
      homeFields r = some (some (0, 0, "/root".toList)) := by decide +kernel
  exact {
    entries := fun r hr => ⟨_, hhome r hr⟩
    names := by
      rw [hpasswd]
      exact List.pairwise_singleton _ _
    uids := by
      rw [hpasswd]
      exact List.pairwise_singleton _ _
    shadow := by decide +kernel
    shadowNames := by decide +kernel
    group := by decide +kernel
    groupNames := by decide +kernel }

end Pertisk.Seed
