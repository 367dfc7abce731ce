import Pertisk.Lib.Calls
import Pertisk.Lib.Rows
import Pertisk.Net.Addresses
import Pertisk.Text

namespace Pertisk.Seed
open Lib PeerUrl

def isUserChar (c : Char) : Bool := c.isLower || c.isDigit || c == '-' || c == '_'

def sanitizeUser (raw : List Char) : List Char :=
  let out := ((trim raw).map Char.toLower).filter isUserChar
  if out.isEmpty || out == "root".toList then "cloud-user".toList else out.take 32

/-- The account files of a guest; `none` is a file that is missing. -/
structure AccountFiles where
  passwd : Option (List Char)
  shadow : Option (List Char)
  group : Option (List Char)
  gshadow : Option (List Char)
deriving DecidableEq

/-- `u32`'s `FromStr`. -/
def parseU32 (s : List Char) : Option ℕ := (decimal (Net.withoutPlus s)).filter (· < 2 ^ 32)

def fields (line : List Char) : Row := line.splitOn ':'

def ofFields (parts : Row) : List Char := [':'].intercalate parts

def startsEntry (user line : List Char) : Bool := (user ++ [':']).isPrefixOf line

def shadowHas (user : List Char) (files : AccountFiles) : Bool :=
  match files.shadow with
  | none => false
  | some text => (lines text).any (startsEntry user)

/-- The uid, gid and home of an entry; a shorter one says nothing, and one without numbers that
there are none. -/
def homeFields (parts : Row) : Option (Option (ℕ × ℕ × List Char)) :=
  match parts with
  | _ :: _ :: uid :: gid :: _ :: home :: _ => some do
    let uid ← parseU32 uid
    let gid ← parseU32 gid
    pure (uid, gid, home)
  | _ => none

def homeIn (user : List Char) : List (List Char) → Option (ℕ × ℕ × List Char)
  | [] => none
  | line :: rest =>
    if startsEntry user line then
      match homeFields (fields line) with
      | some found => found
      | none => homeIn user rest
    else homeIn user rest

def passwdHome (user : List Char) (files : AccountFiles) : Option (ℕ × ℕ × List Char) := do
  let text ← files.passwd
  homeIn user (lines text)

/-- The first number from `n` on that is not used; `fuel` of them are tried before it. -/
def firstFree (used : List ℕ) : ℕ → ℕ → ℕ
  | 0, n => n
  | fuel + 1, n => if n ∈ used then firstFree used fuel (n + 1) else n

def uidOf (line : List Char) : Option ℕ :=
  match fields line with
  | _ :: _ :: uid :: _ => parseU32 uid
  | _ => none

def nextUid (files : AccountFiles) : ℕ :=
  let used := (lines (files.passwd.getD [])).filterMap uidOf
  firstFree used used.length 1000

/-- The number of the first group with the name. -/
def gidIn (name : List Char) (gid : ℕ) (text : List Char) : Option ℕ :=
  ((lines text).find? (startsEntry name)).map fun line =>
    ((fields line)[2]?.bind parseU32).getD gid

def ensureGroup (name : List Char) (gid : ℕ) (files : AccountFiles) : ℕ × AccountFiles :=
  match gidIn name gid (files.group.getD []) with
  | some gid => (gid, files)
  | none =>
    let line := name ++ ":x:".toList ++ (toString gid).toList ++ ":".toList
    let files := { files with group := some (appendLine (files.group.getD []) line) }
    match files.gshadow with
    | none => (gid, files)
    | some text =>
      if (lines text).any (startsEntry name) then (gid, files)
      else
        let line := name ++ ":*::".toList ++ name
        (gid, { files with gshadow := some (appendLine text line) })

def membersOf (field : List Char) : List (List Char) :=
  if field.isEmpty then [] else field.splitOn ','

/-- A line of the group file once the user is in its group. -/
def withMember (user : List Char) (groups : List (List Char)) (line : List Char) : List Char :=
  match fields line with
  | name :: password :: gid :: members :: rest =>
    if name ∈ groups then
      let members := if user ∈ membersOf members then members
        else [','].intercalate (membersOf members ++ [user])
      ofFields (name :: password :: gid :: members :: rest)
    else line
  | _ => line

def addUserToGroups (user : List Char) (groups : List (List Char)) (files : AccountFiles) :
    AccountFiles :=
  match files.group with
  | none => files
  | some text => { files with group := some (rewriteLines (withMember user groups) text) }

def adminGroups : List (List Char) := ["wheel".toList, "adm".toList, "sudo".toList]

/-- A day as the shadow file has it; day 0 would ask for a new password at once. -/
def shadowLastchg (days : ℕ) : List Char := (toString (max days 1)).toList

def addPasswdEntry (user : List Char) (uid gid : ℕ) (files : AccountFiles) : AccountFiles :=
  if (passwdHome user files).isNone then
    let line := user ++ ":x:".toList ++ (toString uid).toList ++ ":".toList ++
      (toString gid).toList ++ ":Cloud User:/home/".toList ++ user ++ ":/bin/bash".toList
    { files with passwd := some (appendLine (files.passwd.getD []) line) }
  else files

def addShadowEntry (days : ℕ) (user : List Char) (files : AccountFiles) : AccountFiles :=
  if !shadowHas user files then
    let line := user ++ ":".toList ++ "*".toList ++ ":".toList ++ shadowLastchg days ++
      ":0:99999:7:::".toList
    { files with shadow := some (appendLine (files.shadow.getD []) line) }
  else files

def ensureUser (days : ℕ) (user : List Char) (files : AccountFiles) : AccountFiles :=
  if (passwdHome user files).isSome && shadowHas user files then
    addUserToGroups user adminGroups files
  else
    let uid := nextUid files
    let (gid, files) := ensureGroup user uid files
    let files := addPasswdEntry user uid gid files
    let files := addShadowEntry days user files
    addUserToGroups user (adminGroups ++ [user]) files

def withHash (days : ℕ) (user hash line : List Char) : List Char :=
  if startsEntry user line then ofFields (((fields line).set 1 hash).set 2 (shadowLastchg days))
  else line

def setShadowHash (days : ℕ) (user hash : List Char) (files : AccountFiles) :
    Except String AccountFiles :=
  match files.shadow with
  | none => .error "guest /etc/shadow missing"
  | some text =>
    let new := user ++ ":".toList ++ hash ++ ":".toList ++ shadowLastchg days ++
      ":0:99999:7:::".toList
    let ls := (lines text).map (withHash days user hash)
    let ls := if (lines text).any (startsEntry user) then ls else ls ++ [new]
    .ok { files with shadow := some (['\n'].intercalate (ls ++ [[]])) }

def unlocked (user line : List Char) : List Char :=
  if startsEntry user line then
    match fields line with
    | name :: password :: rest =>
      if password = "!".toList ∨ password = "*".toList ∨ password = "!!".toList then
        ofFields (name :: "x".toList :: rest)
      else ofFields (name :: password :: rest)
    | _ => line
  else line

def unlockPasswd (user : List Char) (files : AccountFiles) : AccountFiles :=
  match files.passwd with
  | none => files
  | some text => { files with passwd := some (rewriteLines (unlocked user) text) }

/-- What is written for the user's keys: where, for whom, and the text. -/
structure AuthorizedKeys where
  home : List Char
  uid : ℕ
  gid : ℕ
  text : List Char
deriving DecidableEq

def writeAuthorizedKeys (user : List Char) (keys : List (List Char)) (files : AccountFiles) :
    Except String (Option AuthorizedKeys) :=
  let keys := (keys.map trim).filter (!·.isEmpty)
  if keys.isEmpty then .ok none
  else
    match passwdHome user files with
    | none => .error s!"guest has no user '{String.ofList user}' in /etc/passwd"
    | some (uid, gid, home) =>
      .ok (some ⟨home.dropWhile (· == '/'), uid, gid, ['\n'].intercalate keys ++ ['\n']⟩)

/-- The account part of `apply_identity`; `hashPassword` is what `openssl passwd` answers. -/
def injectLogin (hashPassword : List Char → Except String (List Char)) (days : ℕ)
    (raw : List Char) (password : Option (List Char)) (keys : List (List Char))
    (files : AccountFiles) :
    Except String (AccountFiles × Option AuthorizedKeys) := do
  let user := sanitizeUser raw
  let files := ensureUser days user files
  let files ← match password.filter (!·.isEmpty) with
    | none => pure files
    | some password => do
      let hash ← hashPassword password
      let files ← setShadowHash days user hash files
      pure (unlockPasswd user files)
  let written ← writeAuthorizedKeys user keys files
  pure (files, written)

end Pertisk.Seed
