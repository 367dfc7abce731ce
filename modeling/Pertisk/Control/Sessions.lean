import Mathlib.Data.List.Nodup
import Mathlib.Logic.Function.Basic
import Pertisk.Control.Store
import Pertisk.Lib.Calls
import Pertisk.Lib.Run

namespace Pertisk.Control
open Lib

/-- A password change between its check and its write. -/
structure Writing where
  userId : String
  newPassword : String
  keepToken : Option String

/-- The control database over time. `issued` is the user and the password that a token was last
given out for, and `kept` the token that the last change of a user's password has kept; the
database has neither. -/
structure Sessions where
  db : Db
  now : Nat := 0
  writing : List Writing := []
  issued : String → Option (String × String) := fun _ => none
  kept : String → Option String := fun _ => none

/-- A call of the store, with the ids, tokens and salts that are drawn for it. -/
inductive Call
  | createUser (id salt : String) (req : CreateUserRequest)
  | login (token username password : String)
  | changePassword (userId currentPassword newPassword : String) (keepToken : Option String)
  /-- The service keeps no token here. -/
  | setPassword (userId newPassword : String)
  /-- A change that has passed its check is written. -/
  | write (i : Nat) (salt : String) (deletes : Except String Unit)
  | deleteUser (id : String)
  | advance (seconds : Nat)

/-- The statement that deletes the other tokens does not fail. -/
def Call.Deletes : Call → Prop
  | .write _ _ deletes => deletes = .ok ()
  | _ => True

instance (call : Call) : Decidable call.Deletes := by
  cases call <;> unfold Call.Deletes <;> infer_instance

namespace Sessions

variable (h : Argon2) (s : Sessions)

def write (w : Writing) (salt : String) (deletes : Except String Unit) : Sessions :=
  let (db, result) := s.db.writePassword h salt w.userId w.newPassword w.keepToken deletes
  match result with
  | .ok () => { s with db := db, kept := Function.update s.kept w.userId w.keepToken }
  | .error _ => { s with db := db }

/-- A call that is refused leaves the database as it is. -/
def step : Call → Option Sessions
  | .createUser id salt req =>
    match s.db.createUser h id salt s.now req with
    | .ok db => some { s with db := db, kept := Function.update s.kept id none }
    | .error _ => some s
  | .login token username password =>
    match s.db.login h token s.now username password with
    | .ok (db, _) =>
      let user := s.db.users.find? (fun u => u.username == username)
      some { s with
        db := db
        issued := Function.update s.issued token (user.map (fun u => (u.id, password))) }
    | .error _ => some s
  | .changePassword userId currentPassword newPassword keepToken =>
    match s.db.checkPassword h userId currentPassword newPassword with
    | .ok () => some { s with writing := s.writing ++ [⟨userId, newPassword, keepToken⟩] }
    | .error _ => some s
  | .setPassword userId newPassword =>
    match s.db.checkUser userId with
    | .ok () => some { s with writing := s.writing ++ [⟨userId, newPassword, none⟩] }
    | .error _ => some s
  | .write i salt deletes =>
    match s.writing[i]? with
    | none => none
    | some w => some ({ s with writing := s.writing.eraseIdx i }.write h w salt deletes)
  | .deleteUser id =>
    match s.db.deleteUser id with
    | .ok db => some { s with db := db }
    | .error _ => some s
  | .advance seconds => some { s with now := s.now + seconds }

/-- The token was given out for the password that the user has now, or the last change of the
password has kept it. -/
def Current (u : UserRow) (token : String) : Prop :=
  (∃ password, s.issued token = some (u.id, password) ∧ h.verify password u.passwordHash = .ok ()) ∨
    s.kept u.id = some token

/-- Every token is of a user, and current for that user. -/
structure Held : Prop where
  distinct : (s.db.users.map UserRow.id).Nodup
  owned : ∀ t ∈ s.db.tokens, ∃ u ∈ s.db.users, u.id = t.userId
  current : ∀ t ∈ s.db.tokens, ∀ u ∈ s.db.users, u.id = t.userId → s.Current h u t.token

variable {h s} {t : Sessions} {call : Call} {db : Db}

theorem Held.of_db (hs : s.Held h) (hdb : t.db = s.db) (hissued : t.issued = s.issued)
    (hkept : t.kept = s.kept) : t.Held h := by
  refine ⟨hdb ▸ hs.distinct, hdb ▸ hs.owned, ?_⟩
  unfold Current
  rw [hdb, hissued, hkept]
  exact hs.current

theorem held_createUser {id salt : String} {req : CreateUserRequest} (hs : s.Held h)
    (hcreate : s.db.createUser h id salt s.now req = .ok db) :
    Held h { s with db := db, kept := Function.update s.kept id none } := by
  unfold Db.createUser at hcreate
  split at hcreate
  · cases hcreate
  · obtain ⟨passwordHash, -, hinsert⟩ := bind_ok hcreate
    split at hinsert
    · cases hinsert
    · rename_i hfree
      cases hinsert
      have hnew : ∀ u ∈ s.db.users, u.id ≠ id := fun u hu heq =>
        hfree (List.any_eq_true.mpr ⟨u, hu, by simp [heq]⟩)
      refine ⟨?_, fun t ht => ?_, fun t ht u hu hid => ?_⟩
      · rw [List.map_append, List.map_singleton]
        refine List.nodup_append.mpr ⟨hs.distinct, List.nodup_singleton _, ?_⟩
        intro a ha b hb
        obtain ⟨u, hu, rfl⟩ := List.mem_map.mp ha
        rw [List.mem_singleton.mp hb]
        exact hnew u hu
      · obtain ⟨u, hu, hid⟩ := hs.owned t ht
        exact ⟨u, List.mem_append_left _ hu, hid⟩
      · rcases List.mem_append.mp hu with hu | hu
        · exact (hs.current t ht u hu hid).imp_right
            ((Function.update_of_ne (hnew u hu) none s.kept).trans)
        · -- no token is of the new user
          obtain ⟨other, hother, hotherId⟩ := hs.owned t ht
          rw [List.mem_singleton.mp hu] at hid
          exact absurd (hotherId.trans hid.symm) (hnew other hother)

theorem held_login {token username password : String} {response : TokenResponse} (hs : s.Held h)
    (hlogin : s.db.login h token s.now username password = .ok (db, response)) :
    Held h { s with
      db := db
      issued := Function.update s.issued token
        ((s.db.users.find? (fun u => u.username == username)).map (fun u => (u.id, password))) } := by
  unfold Db.login at hlogin
  cases hfound : s.db.users.find? (fun u => u.username == username) with
  | none =>
    rw [hfound] at hlogin
    cases hlogin
  | some user =>
    rw [hfound] at hlogin
    obtain ⟨_, hverify, hinsert⟩ := bind_ok hlogin
    split at hinsert
    · cases hinsert
    · rename_i hfresh
      cases hinsert
      have huser := List.mem_of_find?_eq_some hfound
      refine ⟨hs.distinct, fun t ht => ?_, fun t ht u hu hid => ?_⟩
      · rcases List.mem_append.mp ht with ht | ht
        · exact hs.owned t ht
        · rw [List.mem_singleton.mp ht]
          exact ⟨user, huser, rfl⟩
      · rcases List.mem_append.mp ht with ht | ht
        · have hne : t.token ≠ token := fun heq =>
            hfresh (List.any_eq_true.mpr ⟨t, ht, by simp [heq]⟩)
          refine (hs.current t ht u hu hid).imp_left (fun ⟨password, hissued, hold⟩ => ?_)
          exact ⟨password, (Function.update_of_ne hne _ s.issued).trans hissued, hold⟩
        · rw [List.mem_singleton.mp ht] at hid ⊢
          obtain rfl : u = user := List.inj_on_of_nodup_map hs.distinct hu huser hid
          exact .inl ⟨password, Function.update_self _ _ _, hverify⟩

/-- The database after a password change. -/
def written (db : Db) (passwordHash userId : String) (keepToken : Option String) : Db where
  users := db.users.map (fun u =>
    if u.id = userId then { u with passwordHash := passwordHash } else u)
  tokens := db.tokens.filter (fun t => !(t.userId == userId && some t.token != keepToken))

theorem write_cases (w : Writing) (salt : String) :
    s.write h w salt (.ok ()) = s ∨ ∃ passwordHash, s.write h w salt (.ok ()) =
      { s with
        db := written s.db passwordHash w.userId w.keepToken
        kept := Function.update s.kept w.userId w.keepToken } := by
  unfold write Db.writePassword
  by_cases hshort : tooShort w.newPassword = true
  · simp [hshort]
  · cases h.hash w.newPassword salt with
    | error e => simp [hshort]
    | ok passwordHash =>
      by_cases hthere : s.db.users.any (fun u => u.id == w.userId) = true
      · right
        refine ⟨passwordHash, ?_⟩
        simp only [hshort, hthere, Bool.false_eq_true, if_false, if_true]
        rfl
      · left
        simp only [hshort, hthere, Bool.false_eq_true, if_false]

theorem held_write {w : Writing} {salt : String} (hs : s.Held h) :
    (s.write h w salt (.ok ())).Held h := by
  rcases write_cases w salt with hsame | ⟨passwordHash, hwritten⟩
  · exact hsame ▸ hs
  · rw [hwritten]
    have hids : ∀ u : UserRow,
        (if u.id = w.userId then { u with passwordHash := passwordHash } else u).id = u.id := by
      intro u
      split <;> rfl
    refine ⟨?_, fun t ht => ?_, fun t ht u hu hid => ?_⟩
    · have hmap : (written s.db passwordHash w.userId w.keepToken).users.map UserRow.id =
          s.db.users.map UserRow.id := by
        unfold written
        rw [List.map_map]
        exact List.map_congr_left (fun u _ => hids u)
      rw [hmap]
      exact hs.distinct
    · obtain ⟨u, hu, hid⟩ := hs.owned t (List.mem_filter.mp ht).1
      exact ⟨_, List.mem_map.mpr ⟨u, hu, rfl⟩, (hids u).trans hid⟩
    · obtain ⟨ht, hleft⟩ := List.mem_filter.mp ht
      obtain ⟨old, hold, rfl⟩ := List.mem_map.mp hu
      rw [hids] at hid
      by_cases hmine : old.id = w.userId
      · -- only the kept token is left
        rw [if_pos hmine]
        have hkeep : some t.token = w.keepToken := by simpa [← hid, hmine] using hleft
        refine .inr ?_
        simp only [hmine, Function.update_self, hkeep]
      · rw [if_neg hmine]
        exact (hs.current t ht old hold hid).imp_right
          ((Function.update_of_ne hmine _ s.kept).trans)

theorem held_deleteUser {id : String} (hs : s.Held h) (hdelete : s.db.deleteUser id = .ok db) :
    Held h { s with db := db } := by
  unfold Db.deleteUser at hdelete
  split at hdelete
  · cases hdelete
    refine ⟨hs.distinct.sublist (List.filter_sublist.map _), fun t ht => ?_,
      fun t ht u hu hid => ?_⟩
    · obtain ⟨ht, hother⟩ := List.mem_filter.mp ht
      obtain ⟨u, hu, hid⟩ := hs.owned t ht
      exact ⟨u, List.mem_filter.mpr ⟨hu, hid ▸ hother⟩, hid⟩
    · exact hs.current t (List.mem_filter.mp ht).1 u (List.mem_filter.mp hu).1 hid
  · cases hdelete

theorem step_held (hs : s.Held h) (hcall : call.Deletes) (hstep : s.step h call = some t) :
    t.Held h := by
  cases call with
  | createUser id salt req =>
    unfold step at hstep
    dsimp only at hstep
    split at hstep
    · rename_i db hcreate
      cases hstep
      exact held_createUser hs hcreate
    · cases hstep
      exact hs
  | login token username password =>
    unfold step at hstep
    dsimp only at hstep
    split at hstep
    · rename_i db response hlogin
      cases hstep
      exact held_login hs hlogin
    · cases hstep
      exact hs
  | changePassword userId currentPassword newPassword keepToken =>
    unfold step at hstep
    dsimp only at hstep
    split at hstep <;> cases hstep
    · exact hs.of_db rfl rfl rfl
    · exact hs
  | setPassword userId newPassword =>
    unfold step at hstep
    dsimp only at hstep
    split at hstep <;> cases hstep
    · exact hs.of_db rfl rfl rfl
    · exact hs
  | write i salt deletes =>
    unfold step at hstep
    dsimp only at hstep
    split at hstep
    · cases hstep
    · rename_i w _
      cases hstep
      obtain rfl : deletes = .ok () := hcall
      exact held_write (hs.of_db rfl rfl rfl)
  | deleteUser id =>
    unfold step at hstep
    dsimp only at hstep
    split at hstep
    · rename_i db hdelete
      cases hstep
      exact held_deleteUser hs hdelete
    · cases hstep
      exact hs
  | advance seconds =>
    cases hstep
    exact hs.of_db rfl rfl rfl

/-- A token that authenticates is one of its user's, who is still there. -/
theorem authenticate_ok {token : String} {user : AuthUser}
    (hauth : s.db.authenticate token = .ok user) :
    ∃ row ∈ s.db.tokens, row.token = token ∧ ∃ u ∈ s.db.users, u.id = row.userId ∧
      user = ⟨u.id, u.username, u.role⟩ := by
  unfold Db.authenticate at hauth
  cases hrow : s.db.tokens.find? (fun t => t.token == token) with
  | none =>
    rw [hrow] at hauth
    cases hauth
  | some row =>
    cases hu : s.db.users.find? (fun u => u.id == row.userId) with
    | none =>
      simp only [hrow, hu] at hauth
      cases hauth
    | some u =>
      simp only [hrow, hu] at hauth
      cases hauth
      exact ⟨row, List.mem_of_find?_eq_some hrow, by simpa using List.find?_some hrow, u,
        List.mem_of_find?_eq_some hu, by simpa using List.find?_some hu, rfl⟩

/-- A session ends with the user and with the password that it was begun with, unless the user's
last change of the password has kept it. -/
theorem authenticated_is_current {actions : List Call} {token : String} {user : AuthUser}
    (hstart : s.db.tokens = []) (hdistinct : (s.db.users.map UserRow.id).Nodup)
    (r : Run (Guarded (fun _ => Call.Deletes) (Steps (step h))) s actions t)
    (hauth : t.db.authenticate token = .ok user) :
    ∃ u ∈ t.db.users, user = ⟨u.id, u.username, u.role⟩ ∧ t.Current h u token := by
  have hheld : s.Held h := by
    refine ⟨hdistinct, ?_, ?_⟩ <;> rw [hstart] <;> exact fun _ ht => absurd ht List.not_mem_nil
  have ht : t.Held h := r.invariant (fun _ _ _ hs hstep => step_held hs hstep.1 hstep.2) hheld
  obtain ⟨row, hrow, rfl, u, hu, hid, rfl⟩ := authenticate_ok hauth
  exact ⟨u, hu, rfl, ht.current row hrow u hu hid⟩

/-- Hashes that are the passwords themselves. -/
def plain : Argon2 where
  hash password _ := .ok password
  verify password hash := if password = hash then .ok () else .error .badCredentials

/-- A fresh database with its administrator. -/
def bootstrap : Sessions where
  db := { users := [⟨"1", "admin", "secret", .admin, 0⟩] }

/-- Two logins, and a change of the password that keeps the first of them. -/
def changed : List Call :=
  [.login "t1" "admin" "secret", .login "t2" "admin" "secret",
    .changePassword "1" "secret" "newer" (some "t1"), .write 0 "salt" (.ok ())]

theorem kept_session :
    ∃ u ∈ (exec (step plain) bootstrap changed).db.users,
      (⟨"1", "admin", .admin⟩ : AuthUser) = ⟨u.id, u.username, u.role⟩ ∧
        (exec (step plain) bootstrap changed).Current plain u "t1" := by
  have hrun : Run (Guarded (fun _ => Call.Deletes) (Steps (step plain))) bootstrap changed
      (exec (step plain) bootstrap changed) := .of_exec_guarded (by decide +kernel)
  exact authenticated_is_current rfl (by decide) hrun (by decide +kernel)

/-- No time after the login ends a session. -/
theorem sessions_do_not_expire :
    ¬ ∃ lifetime, ∀ (h : Argon2) (s t : Sessions) (actions : List Call) (token : String)
      (user : AuthUser), s.db.tokens = [] → (s.db.users.map UserRow.id).Nodup →
        Run (Guarded (fun _ => Call.Deletes) (Steps (step h))) s actions t →
          t.db.authenticate token = .ok user →
            ∀ row ∈ t.db.tokens, row.token = token → t.now ≤ row.createdUnix + lifetime := by
  rintro ⟨lifetime, h⟩
  have hold := h plain bootstrap _ [.login "t1" "admin" "secret", .advance (lifetime + 1)] "t1"
    ⟨"1", "admin", .admin⟩ rfl (by decide)
    (.cons ⟨trivial, rfl⟩ (.cons ⟨trivial, rfl⟩ (.nil _))) rfl ⟨"t1", "1", 0⟩
    (List.mem_singleton.mpr rfl) rfl
  have hnow : 0 + (lifetime + 1) ≤ 0 + lifetime := hold
  omega

end Sessions

end Pertisk.Control
