import Pertisk.Cluster

namespace Pertisk.Control

inductive Role
  | viewer
  | operator
  | admin
  deriving DecidableEq, Repr

def Role.rank : Role → Nat
  | .viewer => 1
  | .operator => 2
  | .admin => 3

def Role.allows (role needed : Role) : Bool := needed.rank ≤ role.rank

inductive ControlError
  | unauthorized
  | forbidden
  | userNotFound (id : String)
  | userExists (username : String)
  | badCredentials
  | message (text : String)
  | sqlite (text : String)
  | password (text : String)
  deriving DecidableEq, Repr

/-- The password hashes: `hash` takes the salt, too, and `verify` refuses what is not the
password or not a hash. -/
structure Argon2 where
  hash : String → String → Except ControlError String
  verify : String → String → Except ControlError Unit

structure UserRow where
  id : String
  username : String
  passwordHash : String
  role : Role
  createdUnix : Nat
  deriving DecidableEq

structure TokenRow where
  token : String
  userId : String
  createdUnix : Nat
  deriving DecidableEq

/-- The tables of the control database that sessions are about. -/
structure Db where
  users : List UserRow := []
  tokens : List TokenRow := []
  deriving DecidableEq

structure CreateUserRequest where
  username : String
  password : String
  role : Role

structure AuthUser where
  id : String
  username : String
  role : Role
  deriving DecidableEq, Repr

structure TokenResponse where
  token : String
  username : String
  role : Role

def tooShort (password : String) : Bool := password.utf8ByteSize < 4

namespace Db

variable (h : Argon2) (db : Db)

def createUser (id salt : String) (now : Nat) (req : CreateUserRequest) : Except ControlError Db :=
  if (PeerUrl.trim req.username.toList).isEmpty || tooShort req.password then
    .error (.message "username required and password must be at least 4 characters")
  else do
    let passwordHash ← h.hash req.password salt
    if db.users.any (fun u => u.id == id || u.username == req.username) then
      .error (.userExists req.username)
    else
      .ok { db with users := db.users ++
        [{ id := id, username := req.username, passwordHash := passwordHash, role := req.role
           createdUnix := now }] }

/-- The tokens go with their user. -/
def deleteUser (id : String) : Except ControlError Db :=
  if db.users.any (fun u => u.id == id) then
    .ok { users := db.users.filter (fun u => u.id != id)
          tokens := db.tokens.filter (fun t => t.userId != id) }
  else .error (.userNotFound id)

/-- What `change_password` checks before it writes. -/
def checkPassword (userId currentPassword newPassword : String) : Except ControlError Unit :=
  if tooShort newPassword then .error (.message "password must be at least 4 characters")
  else
    match db.users.find? (fun u => u.id == userId) with
    | none => .error (.userNotFound userId)
    | some u => h.verify currentPassword u.passwordHash

/-- What `set_password` checks before it writes. -/
def checkUser (userId : String) : Except ControlError Unit :=
  if db.users.any (fun u => u.id == userId) then .ok () else .error (.userNotFound userId)

/-- The password is changed first, and then the other tokens are deleted, unless that fails. -/
def writePassword (salt userId newPassword : String) (keepToken : Option String)
    (deletes : Except String Unit) : Db × Except ControlError Unit :=
  if tooShort newPassword then
    (db, .error (.message "password must be at least 4 characters"))
  else
    match h.hash newPassword salt with
    | .error e => (db, .error e)
    | .ok passwordHash =>
      if db.users.any (fun u => u.id == userId) then
        let db := { db with users := db.users.map (fun u =>
          if u.id = userId then { u with passwordHash := passwordHash } else u) }
        match deletes with
        | .error text => (db, .error (.sqlite text))
        | .ok () =>
          ({ db with tokens := db.tokens.filter (fun t =>
            !(t.userId == userId && some t.token != keepToken)) }, .ok ())
      else (db, .error (.userNotFound userId))

def login (token : String) (now : Nat) (username password : String) :
    Except ControlError (Db × TokenResponse) :=
  match db.users.find? (fun u => u.username == username) with
  | none => .error .badCredentials
  | some u => do
    h.verify password u.passwordHash
    if db.tokens.any (fun t => t.token == token) then
      .error (.sqlite "UNIQUE constraint failed: tokens.token")
    else
      .ok ({ db with tokens := db.tokens ++ [⟨token, u.id, now⟩] }, ⟨token, u.username, u.role⟩)

/-- A token counts for as long as its row and its user's are there. -/
def authenticate (token : String) : Except ControlError AuthUser :=
  match db.tokens.find? (fun t => t.token == token) with
  | none => .error .unauthorized
  | some t =>
    match db.users.find? (fun u => u.id == t.userId) with
    | none => .error .unauthorized
    | some u => .ok ⟨u.id, u.username, u.role⟩

end Db

end Pertisk.Control
