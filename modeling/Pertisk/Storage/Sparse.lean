import Pertisk.Lib.Image

namespace Pertisk.Storage
open Lib

/-- An open file: its bytes, and where the next are written. -/
structure OpenFile where
  contents : List UInt8 := []
  cursor : ℕ := 0
  deriving DecidableEq, Repr

namespace OpenFile

/-- What is beyond the old end is zeros. -/
def setLen (f : OpenFile) (len : ℕ) : OpenFile :=
  { f with contents := f.contents.take len ++ List.replicate (len - f.contents.length) 0 }

def seek (f : OpenFile) (pos : ℕ) : OpenFile := { f with cursor := pos }

/-- A write beyond the end leaves zeros before it; no write is made for nothing. -/
def writeAll (f : OpenFile) (bytes : List UInt8) : OpenFile :=
  if bytes.isEmpty then f
  else
    let padded := f.contents ++ List.replicate (f.cursor - f.contents.length) 0
    { contents := splice padded f.cursor bytes, cursor := f.cursor + bytes.length }

end OpenFile

/-- A file that is written, and the length reported of what was. -/
structure Sparse where
  file : OpenFile := {}
  pos : ℕ := 0
  deriving DecidableEq, Repr

/-- A block of zeros is skipped. -/
def Sparse.piece (s : Sparse) (piece : List UInt8) : Sparse :=
  let pos := s.pos + piece.length
  if piece.all (· == 0) then { file := (s.file.setLen pos).seek pos, pos := pos }
  else { file := s.file.writeAll piece, pos := pos }

/-- Write a chunk from an offset on, by blocks. -/
def Sparse.write (block : ℕ) (hblock : 0 < block) (chunk : List UInt8) (off : ℕ) (s : Sparse) :
    Sparse :=
  if off < chunk.length then
    let stop := min (off + block) chunk.length
    Sparse.write block hblock chunk stop (s.piece (slice chunk off (stop - off)))
  else s
termination_by chunk.length - off

def writeSparseChunk (s : Sparse) (chunk : List UInt8) : Sparse :=
  s.write (64 * 1024) (by decide) chunk 0

def writeSparseSlice (s : Sparse) (chunk : List UInt8) : Sparse :=
  s.write (64 * 1024) (by decide) chunk 0

/-- The file has what was written so far, and the next goes to its end. -/
structure Sparse.Holds (s : Sparse) (bytes : List UInt8) : Prop where
  contents : s.file.contents = bytes
  cursor : s.file.cursor = bytes.length
  pos : s.pos = bytes.length

variable {s : Sparse} {bytes chunk : List UInt8}

theorem OpenFile.setLen_length (f : OpenFile) : f.setLen f.contents.length = f := by
  unfold setLen
  rw [List.take_length, Nat.sub_self, List.replicate_zero, List.append_nil]

theorem Sparse.Holds.piece (h : s.Holds bytes) (piece : List UInt8) :
    (s.piece piece).Holds (bytes ++ piece) := by
  obtain ⟨hcontents, hcursor, hpos⟩ := h
  unfold Sparse.piece
  dsimp only
  split
  · rename_i hzeros
    have hpiece : piece = List.replicate piece.length 0 :=
      List.eq_replicate_of_mem (by simpa using hzeros)
    refine ⟨?_, ?_, ?_⟩
    · show s.file.contents.take _ ++ List.replicate _ 0 = _
      rw [hpos, hcontents, List.take_of_length_le (Nat.le_add_right _ _), Nat.add_sub_cancel_left,
        ← hpiece]
    · show s.pos + piece.length = _
      rw [hpos, List.length_append]
    · show s.pos + piece.length = _
      rw [hpos, List.length_append]
  · rename_i hsome
    have hne : piece.isEmpty = false := by
      cases piece with
      | nil => exact absurd rfl hsome
      | cons b rest => rfl
    unfold OpenFile.writeAll
    rw [hne, if_neg Bool.false_ne_true, hcursor, hcontents, Nat.sub_self, List.replicate_zero,
      List.append_nil]
    refine ⟨splice_end, ?_, ?_⟩
    · rw [List.length_append]
    · rw [hpos, List.length_append]

theorem Sparse.Holds.write {block : ℕ} {hblock : 0 < block} {off : ℕ} (h : s.Holds bytes) :
    (s.write block hblock chunk off).Holds (bytes ++ chunk.drop off) := by
  fun_induction Sparse.write block hblock chunk off s generalizing bytes with
  | case1 off s hoff stop =>
    rename_i ih
    have hle : off ≤ stop := by omega
    have hrest : slice chunk off (stop - off) ++ chunk.drop stop = chunk.drop off := by
      have hsplit := List.take_append_drop (stop - off) (chunk.drop off)
      rwa [List.drop_drop, Nat.add_sub_cancel' hle] at hsplit
    have hnext := ih (h.piece _)
    rwa [List.append_assoc, hrest] at hnext
  | case2 off s hoff =>
    rw [List.drop_eq_nil_of_le (Nat.le_of_not_lt hoff), List.append_nil]
    exact h

/-- One chunk after the other. -/
theorem Sparse.Holds.foldl {write : Sparse → List UInt8 → Sparse}
    (hwrite : ∀ s bytes chunk, s.Holds bytes → (write s chunk).Holds (bytes ++ chunk))
    (h : s.Holds bytes) (chunks : List (List UInt8)) :
    (chunks.foldl write s).Holds (bytes ++ chunks.flatten) := by
  induction chunks generalizing s bytes with
  | nil =>
    rw [List.flatten_nil, List.append_nil]
    exact h
  | cons chunk rest ih =>
    rw [List.flatten_cons, ← List.append_assoc]
    exact ih (hwrite s bytes chunk h)

theorem OpenFile.writeAll_fresh (bytes : List UInt8) :
    (OpenFile.writeAll {} bytes).contents = bytes := by
  unfold OpenFile.writeAll
  split
  · rename_i hnil
    exact (List.isEmpty_iff.mp hnil).symm
  · exact splice_nil

/-- With its length set the file has the bytes, as one write of them leaves it, and the length
reported is theirs. -/
structure Sparse.Plain (s : Sparse) (bytes : List UInt8) : Prop where
  contents : (s.file.setLen bytes.length).contents = bytes
  plain : (s.file.setLen bytes.length).contents = (OpenFile.writeAll {} bytes).contents
  pos : s.pos = bytes.length

theorem Sparse.Holds.plain (h : s.Holds bytes) : s.Plain bytes := by
  obtain ⟨hcontents, -, hpos⟩ := h
  have hsame : (s.file.setLen bytes.length).contents = bytes := by
    rw [← hcontents, OpenFile.setLen_length]
  exact ⟨hsame, hsame.trans (OpenFile.writeAll_fresh bytes).symm, hpos⟩

/-- However bytes are cut into chunks, both writers leave the file that one write of them leaves. -/
theorem sparse_eq_plain (chunks : List (List UInt8)) :
    (chunks.foldl writeSparseChunk {}).Plain chunks.flatten ∧
      (chunks.foldl writeSparseSlice {}).Plain chunks.flatten := by
  have hfresh : Sparse.Holds {} [] := ⟨rfl, rfl, rfl⟩
  exact ⟨(hfresh.foldl (fun _ _ _ h => h.write) chunks).plain,
    (hfresh.foldl (fun _ _ _ h => h.write) chunks).plain⟩

end Pertisk.Storage
