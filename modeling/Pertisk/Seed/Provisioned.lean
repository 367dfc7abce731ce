import Pertisk.Seed.Logins

namespace Pertisk.Seed
open Lib PeerUrl Text

/-! ### What the edits keep -/

section edits
variable {user hash members name : List Char} {groups : List (List Char)} {days uid gid n fuel : ℕ}
  {r : Row} {rs : List Row} {used : List ℕ}

theorem memberRow_keepsKey : KeepsKey (memberRow user groups) := by
  constructor
  · intro r
    unfold memberRow
    split
    · split
      · rfl
      · rfl
    · rfl
  · intro r
    unfold memberRow
    split
    · split
      · rfl
      · rfl
    · rfl

theorem hashRow_keepsKey : KeepsKey (hashRow days user hash) := by
  constructor
  · intro r
    unfold hashRow
    split
    · cases r with
      | nil => rfl
      | cons x r =>
        cases r with
        | nil => rfl
        | cons y r => rfl
    · rfl
  · intro r
    unfold hashRow
    split
    · rw [List.length_set, List.length_set]
    · rfl

theorem unlockedRow_keepsKey : KeepsKey (unlockedRow user) := by
  constructor
  · intro r
    unfold unlockedRow
    split
    · split
      · rfl
      · rfl
    · rfl
  · intro r
    unfold unlockedRow
    split
    · split
      · rfl
      · rfl
    · rfl

theorem hashRow_other (h : ¬ Keyed user r) : hashRow days user hash r = r := if_neg h

theorem unlockedRow_other (h : ¬ Keyed user r) : unlockedRow user r = r := by
  unfold unlockedRow
  split
  · rename_i name password rest
    rw [if_neg]
    rintro ⟨rfl, -⟩
    exact h ⟨rfl, Nat.le_add_left 2 rest.length⟩
  · rfl

theorem keyed_passwdRow : Keyed user (passwdRow user uid gid) := ⟨rfl, Nat.le_add_left 2 _⟩

theorem keyed_shadowRow (days : ℕ) (user hash : List Char) :
    Keyed user (shadowRow days user hash) :=
  ⟨rfl, Nat.le_add_left 2 _⟩

theorem keyed_groupRow (user : List Char) (gid : ℕ) : Keyed user (groupRow user gid) :=
  ⟨rfl, Nat.le_add_left 2 _⟩

theorem keyed_gshadowRow : Keyed user (gshadowRow user) := ⟨rfl, Nat.le_add_left 2 _⟩

theorem otherRows_withRow (h : Keyed user r) :
    otherRows user (withRow user r rs) = otherRows user rs := by
  unfold withRow
  split
  · rfl
  · exact otherRows_append h

theorem has_withRow (h : Keyed user r) : Has user (withRow user r rs) := by
  unfold withRow
  split
  · assumption
  · exact ⟨r, List.mem_append_right _ List.mem_cons_self, h⟩

theorem has_map {F : Row → Row} (hF : KeepsKey F) : Has user (rs.map F) ↔ Has user rs := by
  constructor
  · rintro ⟨r, hr, hkey⟩
    obtain ⟨s, hs, rfl⟩ := List.mem_map.mp hr
    exact ⟨s, hs, hF.keyed.mp hkey⟩
  · rintro ⟨r, hr, hkey⟩
    exact ⟨F r, List.mem_map_of_mem hr, hF.keyed.mpr hkey⟩

/-! ### Members -/

theorem comma_notMem_membersOf : ∀ m ∈ membersOf members, ',' ∉ m := by
  intro m hm
  unfold membersOf at hm
  split at hm
  · cases hm
  · exact not_mem_splitOn hm

/-- The members are those there were and the user. -/
theorem membersOf_join (hu : UserName user) :
    membersOf ([','].intercalate (membersOf members ++ [user])) = membersOf members ++ [user] := by
  have hne : membersOf members ++ [user] ≠ [] := List.append_ne_nil_of_right_ne_nil _ (by simp)
  have hcomma : ∀ m ∈ membersOf members ++ [user], ',' ∉ m := by
    intro m hm
    rcases List.mem_append.mp hm with hm | hm
    · exact comma_notMem_membersOf m hm
    · exact List.mem_singleton.mp hm ▸ hu.notMem (by decide)
  obtain ⟨c, hc⟩ := List.exists_mem_of_ne_nil _ hu.nonempty
  have hfilled : [','].intercalate (membersOf members ++ [user]) ≠ [] :=
    List.ne_nil_of_mem (mem_join_of_mem (List.mem_append_right _ List.mem_cons_self) hc)
  rw [membersOf, if_neg (by rwa [List.isEmpty_iff])]
  exact List.splitOn_intercalate ',' hcomma hne

/-- The group is as it was, or it is one of the given ones and has the user as a new member. -/
def Joined (user : List Char) (groups : List (List Char)) (r r' : Row) : Prop :=
  r' = r ∨ ∃ name password gid members members' rest,
    r = name :: password :: gid :: members :: rest ∧
    r' = name :: password :: gid :: members' :: rest ∧ name ∈ groups ∧ user ∉ membersOf members ∧
    membersOf members' = membersOf members ++ [user]

theorem joined_memberRow (hu : UserName user) (r : Row) :
    Joined user groups r (memberRow user groups r) := by
  unfold memberRow
  split
  · rename_i name password gid members rest
    split
    · rename_i hname
      by_cases hin : user ∈ membersOf members
      · exact .inl (by rw [if_pos hin])
      · exact .inr ⟨name, password, gid, members, _, rest, rfl, by rw [if_neg hin], hname, hin,
          membersOf_join hu⟩
    · exact .inl rfl
  · exact .inl rfl

/-- The groups other than the user's own are joined only as one of the administrators. -/
theorem joined_other (hkey : ¬ Keyed user r) {r' : Row}
    (h : Joined user (adminGroups ++ [user]) r r') : Joined user adminGroups r r' := by
  rcases h with h | ⟨name, password, gid, members, members', rest, rfl, rfl, hname, hin, hmembers⟩
  · exact .inl h
  · rcases List.mem_append.mp hname with hname | hname
    · exact .inr ⟨name, password, gid, members, members', rest, rfl, rfl, hname, hin, hmembers⟩
    · exact absurd ⟨congrArg some (List.mem_singleton.mp hname), by simp⟩ hkey

/-! ### Numbers -/

theorem le_firstFree : n ≤ firstFree used fuel n := by
  induction fuel generalizing n with
  | zero => exact Nat.le_refl n
  | succ fuel ih =>
    unfold firstFree
    split
    · exact Nat.le_trans (Nat.le_succ n) ih
    · exact Nat.le_refl n

theorem firstFree_le : firstFree used fuel n ≤ n + fuel := by
  induction fuel generalizing n with
  | zero => exact Nat.le_refl n
  | succ fuel ih =>
    unfold firstFree
    split
    · have := ih (n := n + 1)
      omega
    · omega

theorem firstFree_least {k : ℕ} (hn : n ≤ k) (hk : k < firstFree used fuel n) : k ∈ used := by
  induction fuel generalizing n with
  | zero => exact absurd hk (Nat.not_lt.mpr hn)
  | succ fuel ih =>
    unfold firstFree at hk
    split at hk
    · rename_i hmem
      rcases Nat.eq_or_lt_of_le hn with rfl | hlt
      · exact hmem
      · exact ih hlt hk
    · exact absurd hk (Nat.not_lt.mpr hn)

/-- The search is over at the latest when every number that is used has been tried. -/
theorem firstFree_notMem (h : (used.filter (n ≤ ·)).length ≤ fuel) :
    firstFree used fuel n ∉ used := by
  induction fuel generalizing n with
  | zero =>
    intro hmem
    have hnil := List.length_eq_zero_iff.mp (Nat.le_zero.mp h)
    have hin : n ∈ used.filter (n ≤ ·) :=
      List.mem_filter.mpr ⟨hmem, decide_eq_true (Nat.le_refl n)⟩
    rw [hnil] at hin
    cases hin
  | succ fuel ih =>
    unfold firstFree
    split
    · rename_i hmem
      apply ih
      have hsplit : used.filter (n + 1 ≤ ·) = (used.filter (n ≤ ·)).filter (· ≠ n) := by
        rw [List.filter_filter]
        refine List.filter_congr fun k _ => ?_
        rw [Bool.eq_iff_iff]
        simp only [decide_eq_true_iff, Bool.and_eq_true]
        omega
      have hin : n ∈ used.filter (n ≤ ·) :=
        List.mem_filter.mpr ⟨hmem, decide_eq_true (Nat.le_refl n)⟩
      have hless : ((used.filter (n ≤ ·)).filter (· ≠ n)).length < (used.filter (n ≤ ·)).length :=
        List.length_filter_lt_length_iff_exists.mpr ⟨n, hin, by simp⟩
      rw [hsplit]
      omega
    · assumption

theorem freeUid_notMem (rs : List Row) : freeUid rs ∉ rs.filterMap numberOf :=
  firstFree_notMem (List.length_filter_le _ _)

theorem le_freeUid (rs : List Row) : 1000 ≤ freeUid rs := le_firstFree

theorem freeUid_le (rs : List Row) : freeUid rs ≤ 1000 + rs.length := by
  have hle : freeUid rs ≤ 1000 + (rs.filterMap numberOf).length := firstFree_le
  have hlen := List.length_filterMap_le numberOf rs
  omega

theorem parseU32_digits (h : n < 2 ^ 32) : parseU32 (digits n) = some n := by
  unfold parseU32 digits
  rw [Net.withoutPlus_digits, decimal_toString, Option.filter_some, if_pos (decide_eq_true h)]

end edits

/-! ### Other accounts -/

/-- Every other account is as it was, but that it may share an administrators' group with the
user. -/
structure Others (user : List Char) (a a' : Accounts) : Prop where
  passwd : otherRows user a'.passwd = otherRows user a.passwd
  shadow : otherRows user a'.shadow = otherRows user a.shadow
  group : List.Forall₂ (Joined user adminGroups) (otherRows user a.group) (otherRows user a'.group)
  gshadow : a'.gshadow.map (otherRows user) = a.gshadow.map (otherRows user)

section others
variable {user : List Char} {a : Accounts} {days : ℕ} {hash : List Char}

theorem joined_memberRows (hu : UserName user) (groups : List (List Char)) (rs : List Row) :
    List.Forall₂ (Joined user groups) rs (rs.map (memberRow user groups)) := by
  rw [List.forall₂_map_right_iff, List.forall₂_same]
  exact fun r _ => joined_memberRow hu r

theorem ensured_others (hu : UserName user) (days : ℕ) (a : Accounts) :
    Others user a (a.ensured days user) := by
  unfold Accounts.ensured
  by_cases hknown : a.Known user
  · rw [if_pos hknown]
    refine ⟨rfl, rfl, ?_, rfl⟩
    dsimp only
    rw [memberRow_keepsKey.otherRows]
    exact joined_memberRows hu _ _
  · rw [if_neg hknown]
    refine ⟨?_, otherRows_withRow (keyed_shadowRow ..), ?_, ?_⟩
    · dsimp only
      split
      · rfl
      · exact otherRows_append keyed_passwdRow
    · dsimp only
      rw [memberRow_keepsKey.otherRows, otherRows_withRow (keyed_groupRow ..)]
      have hall := joined_memberRows hu (adminGroups ++ [user]) (otherRows user a.group)
      rw [List.forall₂_map_right_iff, List.forall₂_same] at hall ⊢
      intro r hr
      exact joined_other (mem_otherRows.mp hr).2 (hall r hr)
    · dsimp only
      split
      · rfl
      · rw [Option.map_map]
        cases a.gshadow with
        | none => rfl
        | some rs => exact congrArg some (otherRows_withRow keyed_gshadowRow)

theorem Others.hashed (h : Others user a b) (days : ℕ) (hash : List Char) :
    Others user a (b.hashed days user hash) where
  passwd := by
    rw [← h.passwd]
    exact otherRows_edit unlockedRow_keepsKey fun _ => unlockedRow_other
  shadow := by
    rw [← h.shadow]
    unfold Accounts.hashed
    dsimp only
    split
    · exact otherRows_edit hashRow_keepsKey fun _ => hashRow_other
    · exact otherRows_append (keyed_shadowRow ..)
  group := h.group
  gshadow := h.gshadow

theorem login_others (hu : UserName user) (days : ℕ) (hash : Option (List Char)) (a : Accounts) :
    Others user a (a.login days user hash) := by
  cases hash with
  | none => exact ensured_others hu days a
  | some hash => exact (ensured_others hu days a).hashed days hash

end others

section injected
variable {hashPassword : List Char → Except String (List Char)} {days : ℕ} {raw : List Char}
  {password : Option (List Char)} {keys : List (List Char)} {files new : AccountFiles}
  {written : Option AuthorizedKeys}

end injected

/-- The account files of a cloud image before its user is created. -/
def cloudImage : AccountFiles where
  passwd := some "root:x:0:0:root:/root:/bin/bash\n".toList
  shadow := some "root:*:0:0:99999:7:::\n".toList
  group := some "root:x:0:\nwheel:x:10:\nadm:x:4:\n".toList
  gshadow := none

/-- The same files with a login. -/
def cloudLogin : AccountFiles where
  passwd := some ("root:x:0:0:root:/root:/bin/bash\n" ++
    "alma:x:1000:1000:Cloud User:/home/alma:/bin/bash\n").toList
  shadow := some "root:*:0:0:99999:7:::\nalma:$6$abc$hash:20000:0:99999:7:::\n".toList
  group := some "root:x:0:\nwheel:x:10:alma\nadm:x:4:alma\nalma:x:1000:alma\n".toList
  gshadow := none

def fixedHash (_ : List Char) : Except String (List Char) := .ok "$6$abc$hash".toList

def cloudKeys : AuthorizedKeys := ⟨"home/alma".toList, 1000, 1000, "ssh-rsa A\n".toList⟩

theorem fixedHash_field (password hash : List Char) (h : fixedHash password = .ok hash) :
    Field ':' hash :=
  Except.ok.inj h ▸ field_of_all (by decide)

theorem cloudImage_unix : cloudImage.Unix :=
  ⟨by decide +kernel, by decide +kernel, by decide +kernel, by decide +kernel⟩

theorem cloudImage_login : injectLogin fixedHash 20000 " Alma ".toList (some "pw".toList)
    ["ssh-rsa A".toList] cloudImage = .ok (cloudLogin, some cloudKeys) := by
  decide +kernel

end Pertisk.Seed
