import Pertisk.Lib.Image
import Pertisk.Lib.Bytes
import Pertisk.Lib.Utf8
import Pertisk.PeerUrl

namespace Pertisk.Iso
open Lib

/-- What stops the program: an index outside a slice, or a number that is too large. `unfinished` is
a loop whose turns are used up. -/
inductive Fault
  | bounds
  | overflow
  | unfinished
  deriving DecidableEq, Repr

abbrev Checked := Except Fault

def index (data : List UInt8) (i : ℕ) : Checked UInt8 :=
  match data[i]? with
  | some b => .ok b
  | none => .error .bounds

def range (data : List UInt8) (start stop : ℕ) : Checked (List UInt8) :=
  if start ≤ stop ∧ stop ≤ data.length then .ok (slice data start (stop - start))
  else .error .bounds

def usize (n : ℕ) : Checked ℕ := if n < 2 ^ 64 then .ok n else .error .overflow

/-- `u32::from_le_bytes` of a slice, when it has four bytes. -/
def u32FromLe (bytes : List UInt8) : Option ℕ :=
  match bytes with
  | [a, b, c, d] => some (a.toNat + 2 ^ 8 * (b.toNat + 2 ^ 8 * (c.toNat + 2 ^ 8 * d.toNat)))
  | _ => none

def cd001 : List UInt8 := [0x43, 0x44, 0x30, 0x30, 0x31]

def isJoliet (sector : List UInt8) : Checked Bool := do
  if 90 < sector.length then
    let a ← index sector 88
    let b ← index sector 89
    let c ← index sector 90
    return a = 0x25 ∧ b = 0x2f ∧ (c = 0x40 ∨ c = 0x43 ∨ c = 0x45)
  else return false

def parseVolumeId (sector : List UInt8) : Checked (List Char) := do
  if sector.length < 72 then return []
  else return PeerUrl.trim (Utf8.lossy (← range sector 40 72))

/-- Where the root directory is, and its size. -/
def parseRootRecord (sector : List UInt8) : Checked (Option (ℕ × ℕ)) := do
  if sector.length < 190 then return none
  else
    let record ← range sector 156 sector.length
    if (← index record 0).toNat < 34 then return none
    else
      match u32FromLe (← range record 2 6), u32FromLe (← range record 10 14) with
      | some lba, some size => return if lba = 0 ∨ size = 0 then none else some (lba, size)
      | _, _ => return none

structure DirEnt where
  name : List Char
  lba : ℕ
  size : ℕ
  isDir : Bool
  deriving DecidableEq, Repr

/-- What a name has before its version, without the dots at its end. -/
def withoutVersion (raw : List Char) : List Char :=
  PeerUrl.trimEnd (· = '.') (raw.takeWhile (· ≠ ';'))

def decodeIso9660 (ident : List UInt8) : List Char := withoutVersion (Utf8.lossy ident)

/-- `chunks_exact(2)`, each as a big-endian unit. -/
def beUnits : List UInt8 → List ℕ
  | a :: b :: rest => (2 ^ 8 * a.toNat + b.toNat) :: beUnits rest
  | _ => []

def decodeJoliet (ident : List UInt8) : List Char := withoutVersion (Utf16.lossy (beUnits ident))

/-- How a turn of the loop ends: with the next offset, or with a `break`. -/
inductive Turn
  | next (i : ℕ) (out : List DirEnt)
  | stop (out : List DirEnt)

def parseDirTurn (data : List UInt8) (joliet : Bool) (i : ℕ) (out : List DirEnt) :
    Checked Turn := do
  let len := (← index data i).toNat
  if len = 0 then
    -- a record does not go over the end of a sector
    return .next (← usize ((i / 2048 + 1) * 2048)) out
  else
    let stop ← usize (i + len)
    if data.length < stop then return .stop out
    else
      let record ← range data i stop
      let identLen := (record[32]?.getD 0).toNat
      if record.length < 33 + identLen then return .stop out
      else
        let ident ← range record 33 (33 + identLen)
        if ident = [0] ∨ ident = [1] then return .next stop out
        else
          let name := if joliet then decodeJoliet ident else decodeIso9660 ident
          match u32FromLe (← range record 2 6), u32FromLe (← range record 10 14) with
          | some lba, some size =>
            let isDir := decide ((← index record 25).toNat / 2 % 2 ≠ 0)
            let ent : DirEnt := { name := name, lba := lba, size := size, isDir := isDir }
            return .next stop (if name.isEmpty then out else out ++ [ent])
          | _, _ => return .next stop out

/-- The loop, for so many turns. -/
def parseDirLoop (data : List UInt8) (joliet : Bool) : ℕ → ℕ → List DirEnt → Checked (List DirEnt)
  | 0, _, _ => .error .unfinished
  | fuel + 1, i, out =>
    if i < data.length then do
      match ← parseDirTurn data joliet i out with
      | .next i out => parseDirLoop data joliet fuel i out
      | .stop out => return out
    else .ok out

def parseDir (fuel : ℕ) (data : List UInt8) (joliet : Bool) : Checked (List DirEnt) :=
  parseDirLoop data joliet fuel 0 []

/-- `read_exact` from a sector on. -/
def readAt (file : List UInt8) (lba len : ℕ) : Option (List UInt8) :=
  let bytes := slice file (lba * 2048) len
  if bytes.length = len then some bytes else none

/-- The root directories of the two trees, each by where it is and its size. -/
structure Roots where
  iso : Option (ℕ × ℕ) := none
  joliet : Option (ℕ × ℕ) := none
  volumeId : List Char := []
  deriving DecidableEq, Repr

/-- The volume descriptors, up to the last one. -/
def readRoots (file : List UInt8) : List ℕ → Roots → Checked Roots
  | [], found => return found
  | lba :: lbas, found =>
    match readAt file lba 2048 with
    | none => return found
    | some sector => do
      if sector.length < 6 then return found
      else if (← range sector 1 6) ≠ cd001 then return found
      else
        let kind ← index sector 0
        if kind = 255 then return found
        else if kind = 1 then
          let iso ← parseRootRecord sector
          let volumeId ← parseVolumeId sector
          readRoots file lbas { found with iso := iso, volumeId := volumeId }
        else if kind = 2 then
          if ← isJoliet sector then
            let joliet ← parseRootRecord sector
            readRoots file lbas { found with joliet := joliet }
          else readRoots file lbas found
        else readRoots file lbas found

def roots (file : List UInt8) : Checked (Option Roots) := do
  let found ← readRoots file (List.range' 16 16) {}
  return if found.iso.isNone ∧ found.joliet.isNone then none else some found

def eqIgnoreAsciiCase (a b : List Char) : Bool := a.map Char.toLower = b.map Char.toLower

/-- What is at a path: where, its size, and whether it is a directory. -/
def walk (file : List UInt8) (joliet : Bool) :
    ℕ → ℕ → Bool → List (List Char) → Checked (Option (ℕ × ℕ × Bool))
  | lba, size, isDir, [] => return some (lba, size, isDir)
  | lba, size, _, part :: parts =>
    match readAt file lba size with
    | none => return none
    | some data => do
      let ents ← parseDir (data.length + 1) data joliet
      match ents.find? (fun ent => eqIgnoreAsciiCase ent.name part) with
      | none => return none
      | some ent =>
        if parts ≠ [] ∧ ent.isDir = false then return none
        else walk file joliet ent.lba ent.size ent.isDir parts

/-- The Joliet tree comes first. -/
def lookup (file : List UInt8) (roots : Roots) (parts : List (List Char)) :
    Checked (Option (ℕ × ℕ × Bool)) := do
  let found ← match roots.joliet with
    | some (lba, size) => walk file true lba size true parts
    | none => return none
  match found, roots.iso with
  | some found, _ => return some found
  | none, some (lba, size) => walk file false lba size true parts
  | none, none => return none

def copyFile (file : List UInt8) (lba size : ℕ) (dest : String) : Except String (List UInt8) :=
  let copied := slice file (lba * 2048) size
  if copied.length ≠ size then
    .error (s!"ISO is truncated: {dest} needs {size} bytes at LBA {lba}, " ++
      s!"only {copied.length} readable; re-download the image")
  else .ok copied

end Pertisk.Iso
