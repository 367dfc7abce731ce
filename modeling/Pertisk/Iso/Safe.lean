import Pertisk.Iso.Reader
import Pertisk.Lib.Calls

namespace Pertisk.Iso
open Lib

variable {data record sector : List UInt8} {joliet : Bool} {i n start stop : ℕ}
  {out : List DirEnt}

theorem index_of_getElem? {b : UInt8} (h : data[i]? = some b) : index data i = .ok b := by
  unfold index
  rw [h]

theorem index_ok (h : i < data.length) : index data i = .ok data[i] :=
  index_of_getElem? (List.getElem?_eq_getElem h)

theorem range_ok (hle : start ≤ stop) (h : stop ≤ data.length) :
    range data start stop = .ok (slice data start (stop - start)) := if_pos ⟨hle, h⟩

theorem usize_ok (h : n < 2 ^ 64) : usize n = .ok n := if_pos h

theorem u32FromLe_some (h : sector.length = 4) : ∃ value, u32FromLe sector = some value := by
  match sector, h with
  | [a, b, c, d], _ => exact ⟨_, rfl⟩

theorem parseRootRecord_ok (sector : List UInt8) : ∃ root, parseRootRecord sector = .ok root := by
  unfold parseRootRecord
  by_cases hshort : sector.length < 190
  · rw [if_pos hshort]
    exact ⟨none, rfl⟩
  · rw [if_neg hshort, bind_of_ok (range_ok (by omega) (Nat.le_refl _))]
    have hlen : (slice sector 156 (sector.length - 156)).length = sector.length - 156 :=
      length_slice (by omega)
    rw [bind_of_ok (index_ok (by omega))]
    split
    · exact ⟨none, rfl⟩
    · rw [bind_of_ok (range_ok (by decide) (by omega)),
        bind_of_ok (range_ok (by decide) (by omega))]
      split
      · exact ⟨_, rfl⟩
      · exact ⟨none, rfl⟩

/-- What a record adds to the entries. -/
def entries (record : List UInt8) (joliet : Bool) : List DirEnt :=
  let ident := slice record 33 (record[32]?.getD 0).toNat
  if ident = [0] ∨ ident = [1] then []
  else
    let name := if joliet then decodeJoliet ident else decodeIso9660 ident
    match u32FromLe (slice record 2 4), u32FromLe (slice record 10 4) with
    | some lba, some size =>
      if name.isEmpty then []
      else [{ name := name, lba := lba, size := size
              isDir := decide ((record[25]?.getD 0).toNat / 2 % 2 ≠ 0) }]
    | _, _ => []

/-- A turn, without the checks. -/
def turn (data : List UInt8) (joliet : Bool) (i : ℕ) (out : List DirEnt) : Turn :=
  let len := (data[i]?.getD 0).toNat
  if len = 0 then .next ((i / 2048 + 1) * 2048) out
  else if data.length < i + len then .stop out
  else
    let record := slice data i len
    if len < 33 + (record[32]?.getD 0).toNat then .stop out
    else .next (i + len) (out ++ entries record joliet)

/-- The slices come from a buffer that is not larger than half of the address space: the checks of a
turn never fail. -/
theorem parseDirTurn_eq (hdata : data.length < 2 ^ 63) (hi : i < data.length) :
    parseDirTurn data joliet i out = .ok (turn data joliet i out) := by
  have hbyte : data[i]?.getD 0 = data[i] := by
    rw [List.getElem?_eq_getElem hi]
    rfl
  have hlt := UInt8.toNat_lt data[i]
  unfold parseDirTurn turn
  rw [bind_of_ok (index_ok hi), hbyte]
  dsimp only
  by_cases hzero : data[i].toNat = 0
  · rw [if_pos hzero, if_pos hzero, bind_of_ok (usize_ok (by omega))]
    rfl
  · rw [if_neg hzero, if_neg hzero, bind_of_ok (usize_ok (by omega))]
    by_cases hend : data.length < i + data[i].toNat
    · rw [if_pos hend, if_pos hend]
      rfl
    · rw [if_neg hend, if_neg hend,
        bind_of_ok (range_ok (Nat.le_add_right _ _) (Nat.le_of_not_lt hend)),
        Nat.add_sub_cancel_left]
      have hlen : (slice data i data[i].toNat).length = data[i].toNat :=
        length_slice (by omega)
      set record := slice data i data[i].toNat
      rw [hlen]
      by_cases hshort : data[i].toNat < 33 + (record[32]?.getD 0).toNat
      · rw [if_pos hshort, if_pos hshort]
        rfl
      · rw [if_neg hshort, if_neg hshort, bind_of_ok (range_ok (by omega) (by omega)),
          Nat.add_sub_cancel_left]
        unfold entries
        dsimp only
        by_cases hself : slice record 33 (record[32]?.getD 0).toNat = [0] ∨
            slice record 33 (record[32]?.getD 0).toNat = [1]
        · rw [if_pos hself, if_pos hself, List.append_nil]
          rfl
        · obtain ⟨lba, hlba⟩ := u32FromLe_some (length_slice (by omega : 2 + 4 ≤ record.length))
          obtain ⟨size, hsize⟩ := u32FromLe_some (length_slice (by omega : 10 + 4 ≤ record.length))
          obtain ⟨flags, hflags⟩ : ∃ flags, record[25]? = some flags :=
            ⟨_, List.getElem?_eq_getElem (by omega)⟩
          rw [if_neg hself, if_neg hself, bind_of_ok (range_ok (by decide) (by omega)),
            bind_of_ok (range_ok (by decide) (by omega))]
          simp only [Nat.reduceSub, hlba, hsize]
          rw [bind_of_ok (index_of_getElem? hflags), hflags]
          generalize (if joliet then decodeJoliet (slice record 33 (record[32]?.getD 0).toNat)
            else decodeIso9660 (slice record 33 (record[32]?.getD 0).toNat)) = name
          cases name with
          | nil =>
            show pure (Turn.next _ out) = Except.ok (Turn.next _ (out ++ []))
            rw [List.append_nil]
            rfl
          | cons c name => rfl

/-- A turn that goes on goes on further along. -/
theorem turn_advances : ∀ j rest, turn data joliet i out = .next j rest → i < j := by
  intro j rest h
  unfold turn at h
  dsimp only at h
  split at h
  · cases h
    omega
  · split at h
    · cases h
    · split at h
      · cases h
      · cases h
        omega

theorem parseDirLoop_succ (hdata : data.length < 2 ^ 63) (hi : i < data.length) (fuel : ℕ) :
    parseDirLoop data joliet (fuel + 1) i out =
      match turn data joliet i out with
      | .next i out => parseDirLoop data joliet fuel i out
      | .stop out => .ok out := by
  rw [parseDirLoop, if_pos hi, bind_of_ok (parseDirTurn_eq hdata hi)]
  rfl

/-- Each turn takes the loop nearer to the end, so that it ends. -/
theorem parseDirLoop_ok (hdata : data.length < 2 ^ 63) (i : ℕ) (out : List DirEnt) :
    ∃ ents, ∀ fuel, data.length - i < fuel → parseDirLoop data joliet fuel i out = .ok ents := by
  induction hleft : data.length - i using Nat.strong_induction_on generalizing i out with
  | _ left ih =>
    by_cases hi : i < data.length
    · have hstep := @parseDirLoop_succ data joliet i out hdata hi
      cases hturn : turn data joliet i out with
      | next j rest =>
        have hlt := turn_advances j rest hturn
        obtain ⟨ents, hents⟩ := ih (data.length - j) (by omega) j rest rfl
        refine ⟨ents, fun fuel hfuel => ?_⟩
        cases fuel with
        | zero => omega
        | succ fuel =>
          rw [hstep, hturn]
          exact hents fuel (by omega)
      | stop rest =>
        refine ⟨rest, fun fuel hfuel => ?_⟩
        cases fuel with
        | zero => omega
        | succ fuel => rw [hstep, hturn]
    · refine ⟨out, fun fuel hfuel => ?_⟩
      cases fuel with
      | zero => omega
      | succ fuel => rw [parseDirLoop, if_neg hi]

/-- Whatever the image has, no slice is left and no offset overflows, and the loop ends: each of its
turns that goes on goes on further along. -/
theorem parser_safe (hdata : data.length < 2 ^ 63) (joliet : Bool) :
    (∃ root, parseRootRecord data = .ok root) ∧
      (∃ ents, ∀ fuel, data.length < fuel → parseDir fuel data joliet = .ok ents) ∧
        ∀ i out, i < data.length → ∃ result, parseDirTurn data joliet i out = .ok result ∧
          ∀ j rest, result = .next j rest → i < j := by
  refine ⟨parseRootRecord_ok data, ?_, fun i out hi => ?_⟩
  · exact parseDirLoop_ok hdata 0 []
  · exact ⟨turn data joliet i out, parseDirTurn_eq hdata hi, turn_advances⟩

theorem parser_safe_short : (∃ root, parseRootRecord [34, 0, 1] = .ok root) ∧
    (∃ ents, ∀ fuel, 3 < fuel → parseDir fuel [34, 0, 1] true = .ok ents) ∧
      ∀ i out, i < 3 → ∃ result, parseDirTurn [34, 0, 1] true i out = .ok result ∧
        ∀ j rest, result = .next j rest → i < j :=
  parser_safe (show [34, 0, 1].length < 2 ^ 63 by decide) true

end Pertisk.Iso
