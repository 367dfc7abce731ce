import Mathlib.Data.Char
import Mathlib.Data.List.Lex
import Mathlib.Data.List.Sort
import Pertisk.Lib.Image
import Pertisk.Lib.Bytes
import Pertisk.Lib.Text
import Pertisk.PeerUrl

namespace Pertisk.Iso
open Lib

/-- A file of the tree. Paths and names are strings by their characters. -/
structure TreeFile where
  path : List Char
  data : List UInt8
  deriving DecidableEq, Repr

def le16 (n : ℕ) : List UInt8 := [UInt8.ofNat n, UInt8.ofNat (n / 2 ^ 8)]

def be16 (n : ℕ) : List UInt8 := [UInt8.ofNat (n / 2 ^ 8), UInt8.ofNat n]

def le32 (n : ℕ) : List UInt8 :=
  [UInt8.ofNat n, UInt8.ofNat (n / 2 ^ 8), UInt8.ofNat (n / 2 ^ 16), UInt8.ofNat (n / 2 ^ 24)]

def be32 (n : ℕ) : List UInt8 := (le32 n).reverse

def both16 (n : ℕ) : List UInt8 := le16 n ++ be16 n

def both32 (n : ℕ) : List UInt8 := le32 n ++ be32 n

def ucs2 (s : List Char) : List UInt8 := (Utf16.encode s).flatMap be16

def parentOf (path : List Char) : List Char :=
  match PeerUrl.rsplitOnce path '/' with
  | some (parent, _) => parent
  | none => []

def basenameOf (path : List Char) : List Char :=
  match PeerUrl.rsplitOnce path '/' with
  | some (_, name) => name
  | none => path

/-- A part of a path, and the directories so far. -/
def addDir (state : List Char × List (List Char)) (part : List Char) :
    List Char × List (List Char) :=
  let dir := if state.1.isEmpty then part else state.1 ++ '/' :: part
  (dir, if dir ∈ state.2 then state.2 else state.2 ++ [dir])

/-- All but the last part of a path are directories. -/
def pathDirs (dirs : List (List Char)) (path : List Char) : List (List Char) :=
  ((path.splitOn '/').dropLast.foldl addDir ([], dirs)).2

def treeDirs (files : List TreeFile) : List (List Char) :=
  (files.foldl (fun dirs f => pathDirs dirs f.path) [[]]).insertionSort (· ≤ ·)

/-- Where a directory's two extents are. No other directory has its path. -/
def dirLba (dirs : List (List Char)) (dir : List Char) : Option (ℕ × ℕ) :=
  (dirs.idxOf? dir).map (fun k => ((23 + 2 * k) % 2 ^ 32, (24 + 2 * k) % 2 ^ 32))

def pick (joliet : Bool) (lba : ℕ × ℕ) : ℕ := if joliet then lba.2 else lba.1

def sectorsOf (data : List UInt8) : ℕ := max ((data.length + 2047) / 2048 % 2 ^ 32) 1

/-- Where the files are, and the first sector after them. -/
def layoutFiles (next : ℕ) : List TreeFile → List ℕ × ℕ
  | [] => ([], next)
  | f :: files =>
    let rest := layoutFiles ((next + sectorsOf f.data) % 2 ^ 32) files
    (next :: rest.1, rest.2)

def dirRecord (extent dataLen : ℕ) (flags : UInt8) (name : List UInt8) : List UInt8 :=
  let record := splices (List.replicate (33 + name.length) 0)
    [(0, [UInt8.ofNat (33 + name.length)]), (2, both32 extent), (10, both32 dataLen),
      (18, [124]), (19, [1]), (20, [1]), (25, [flags]), (32, [UInt8.ofNat name.length]),
      (33, name)]
  if record.length % 2 = 1 then
    let record := record ++ [0]
    splice record 0 [UInt8.ofNat record.length]
  else record

def asciiUpper (name : List Char) : List UInt8 := name.map (fun c => UInt8.ofNat c.toUpper.toNat)

def isoIdent (name : List Char) : List UInt8 :=
  asciiUpper ((name.filter Char.isAlphanum).take 8) ++ [0x2e, 0x3b, 0x31]

/-- A directory's name in the tree of an image that has no Joliet. -/
def isoDirIdent (name : List Char) : List UInt8 :=
  asciiUpper ((name.filter Char.isAlphanum).take 31)

/-- The directories and the files of an image, and where the files are. -/
structure Tree where
  dirs : List (List Char)
  files : List TreeFile
  extents : List ℕ

def treeOf (files : List TreeFile) : Tree :=
  let dirs := treeDirs files
  { dirs := dirs, files := files
    extents := (layoutFiles ((23 + 2 * dirs.length) % 2 ^ 32) files).1 }

def volumeSectors (files : List TreeFile) : ℕ :=
  (layoutFiles ((23 + 2 * (treeDirs files).length) % 2 ^ 32) files).2

def Tree.childRecord (t : Tree) (joliet : Bool) (child : List Char) : Option (List UInt8) := do
  let lba ← dirLba t.dirs child
  let name := basenameOf child
  return dirRecord (pick joliet lba) 2048 2 (if joliet then ucs2 name else isoDirIdent name)

def leafRecord (joliet : Bool) (f : TreeFile × ℕ) : List UInt8 :=
  let name := basenameOf f.1.path
  dirRecord f.2 (f.1.data.length % 2 ^ 32) 0 (if joliet then ucs2 name else isoIdent name)

def Tree.dirBytes (t : Tree) (dir : List Char) (joliet : Bool) : Option (List UInt8) := do
  let self ← dirLba t.dirs dir
  let parent ← dirLba t.dirs (if dir.isEmpty then dir else parentOf dir)
  let children ← (t.dirs.filter (fun child => !child.isEmpty && parentOf child == dir)).mapM
    (t.childRecord joliet)
  let leaves := ((t.files.zip t.extents).filter (fun f => parentOf f.1.path == dir)).map
    (leafRecord joliet)
  return dirRecord (pick joliet self) 2048 2 [0] ++ dirRecord (pick joliet parent) 2048 2 [1] ++
    children.flatten ++ leaves.flatten

def pathIdent (dir : List Char) (joliet : Bool) : List UInt8 :=
  if dir.isEmpty then [0]
  else if joliet then ucs2 (basenameOf dir)
  else asciiUpper (((basenameOf dir).filter (fun c => c.isAlphanum || c == '_')).take 31)

/-- The tables list the directories; `be` is the byte order of their numbers. -/
def pathTable (dirs : List (List Char)) (joliet be : Bool) : Option (List UInt8) :=
  dirs.foldlM (fun buf dir => do
    let lba ← dirLba dirs dir
    let ident := pathIdent dir joliet
    let parent :=
      if dir.isEmpty then 1 else ((dirs.idxOf? (parentOf dir)).getD 0 + 1) % 2 ^ 16
    let numbers :=
      if be then be32 (pick joliet lba) ++ be16 parent else le32 (pick joliet lba) ++ le16 parent
    let buf := buf ++ [UInt8.ofNat ident.length, 0] ++ numbers ++ ident
    return if buf.length % 2 = 1 then buf ++ [0] else buf) []

def padStr (room : ℕ) (s : List Char) : List UInt8 :=
  let bytes := (s.flatMap String.utf8EncodeChar).take room
  bytes ++ List.replicate (room - bytes.length) 0x20

def ucs2Pad (room : ℕ) (s : List Char) : List UInt8 :=
  (List.range (room / 2)).flatMap (fun i => be16 ((Utf16.encode s)[i]?.getD 0x20))

/-- What a volume descriptor says. -/
structure Volume where
  id : List Char
  sectors : ℕ
  root : ℕ
  ptLe : ℕ
  ptBe : ℕ
  ptSize : ℕ

def writePvd (sector : List UInt8) (v : Volume) : List UInt8 :=
  splices sector [(0, [1]), (1, [0x43, 0x44, 0x30, 0x30, 0x31]), (6, [1]),
    (40, padStr 32 (v.id.map Char.toUpper)), (80, both32 v.sectors), (120, both16 2048),
    (124, both32 v.ptSize), (132, le32 v.ptLe), (140, be32 v.ptBe),
    (156, dirRecord v.root 2048 2 [0]), (881, [1])]

def writeSvd (sector : List UInt8) (v : Volume) : List UInt8 :=
  splices sector [(0, [2]), (1, [0x43, 0x44, 0x30, 0x30, 0x31]), (6, [1]),
    (40, ucs2Pad 32 v.id), (80, both32 v.sectors), (88, [0x25]), (89, [0x2f]), (90, [0x45]),
    (120, both16 2048), (124, both32 v.ptSize), (132, le32 v.ptLe), (140, be32 v.ptBe),
    (156, dirRecord v.root 2048 2 [0]), (881, [1])]

/-- A directory is written twice, once for each tree. -/
def Tree.dirCopies (t : Tree) (dir : List Char) : Option (List (ℕ × List UInt8)) := do
  let lba ← dirLba t.dirs dir
  let isoBytes ← t.dirBytes dir false
  let jolietBytes ← t.dirBytes dir true
  return [(lba.1 * 2048, isoBytes), (lba.2 * 2048, jolietBytes)]

/-- The image of a tree. The descriptors are written into sectors that are empty. -/
def labeledTreeIso (volumeId : List Char) (files : List TreeFile) : Option (List UInt8) := do
  let t := treeOf files
  let sectors := volumeSectors files
  let root ← dirLba t.dirs []
  let ptIsoLe ← pathTable t.dirs false false
  let ptIsoBe ← pathTable t.dirs false true
  let ptJolLe ← pathTable t.dirs true false
  let ptJolBe ← pathTable t.dirs true true
  let ptSize := ptIsoLe.length % 2 ^ 32
  let empty := List.replicate 2048 0
  let pvd := writePvd empty
    { id := volumeId, sectors := sectors, root := root.1, ptLe := 19, ptBe := 20
      ptSize := ptSize }
  let svd := writeSvd empty
    { id := volumeId, sectors := sectors, root := root.2, ptLe := 21, ptBe := 22
      ptSize := max ptSize (ptJolLe.length % 2 ^ 32) }
  let dirWrites ← t.dirs.mapM t.dirCopies
  let fileWrites := (files.zip t.extents).map (fun f => (f.2 * 2048, f.1.data))
  putAll (List.replicate (sectors * 2048) 0)
    ([(16 * 2048, pvd), (17 * 2048, svd),
        (18 * 2048, [255, 0x43, 0x44, 0x30, 0x30, 0x31, 1]),
        (19 * 2048, ptIsoLe), (20 * 2048, ptIsoBe), (21 * 2048, ptJolLe), (22 * 2048, ptJolBe)] ++
      dirWrites.flatten ++ fileWrites)

end Pertisk.Iso
