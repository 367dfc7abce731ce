import Pertisk.Iso.Safe
import Pertisk.Iso.Writer

namespace Pertisk.Iso
open Lib

variable {name record pre rest data : List UInt8} {extent dataLen v : ℕ} {flags : UInt8}
  {joliet : Bool} {out : List DirEnt} {records : List (List UInt8)}

/-- What is read of a record that was written. -/
structure RecordOf (extent dataLen : ℕ) (flags : UInt8) (name record : List UInt8) : Prop where
  length : record.length = 33 + name.length + (if name.length % 2 = 0 then 1 else 0)
  first : slice record 0 1 = [UInt8.ofNat record.length]
  extent : slice record 2 4 = le32 extent
  dataLen : slice record 10 4 = le32 dataLen
  flags : slice record 25 1 = [flags]
  nameLen : slice record 32 1 = [UInt8.ofNat name.length]
  name : slice record 33 name.length = name

theorem length_both32 (v : ℕ) : (both32 v).length = 8 := rfl

theorem le32_of_both32 {o : ℕ} (h : slice record o 8 = both32 v) : slice record o 4 = le32 v := by
  have hinner := @slice_slice _ record o 8 0 4 (by decide)
  rw [h] at hinner
  exact hinner.symm

theorem dirRecord_of (extent dataLen : ℕ) (flags : UInt8) (name : List UInt8) :
    RecordOf extent dataLen flags name (dirRecord extent dataLen flags name) := by
  unfold dirRecord
  set ws : List (ℕ × List UInt8) := [(0, [UInt8.ofNat (33 + name.length)]), (2, both32 extent),
    (10, both32 dataLen), (18, [124]), (19, [1]), (20, [1]), (25, [flags]),
    (32, [UInt8.ofNat name.length]), (33, name)]
  have hlaid : Laid List.length 0 ws (33 + name.length) := by
    simp [ws, Laid, length_both32]
  have hread := @splices_read _ (List.replicate (33 + name.length) 0) _ _ _ hlaid (by simp)
  have hlen : (splices (List.replicate (33 + name.length) 0) ws).length = 33 + name.length := by
    rw [(splices_laid (fun bs => Nat.le_refl bs.length) hlaid (by simp)).1, List.length_replicate]
  set record := splices (List.replicate (33 + name.length) 0) ws
  dsimp only
  have hextent := le32_of_both32 (hread (2, both32 extent) (by simp [ws]))
  have hdataLen := le32_of_both32 (hread (10, both32 dataLen) (by simp [ws]))
  have hflags := hread (25, [flags]) (by simp [ws])
  have hnameLen := hread (32, [UInt8.ofNat name.length]) (by simp [ws])
  have hname := hread (33, name) (by simp [ws])
  split
  · rename_i hodd
    -- the byte that makes the length even moves nothing
    have hstay (o n : ℕ) (ho : 1 ≤ o) (hn : o + n ≤ record.length) :
        slice (splice (record ++ [0]) 0 [UInt8.ofNat (record ++ [0]).length]) o n =
          slice record o n := by
      rw [slice_splice_of_disjoint (Nat.zero_le _) (.inr ho), slice_append_left hn]
    have hlen' : (splice (record ++ [0]) 0 [UInt8.ofNat (record ++ [0]).length]).length =
        record.length + 1 := by
      rw [length_splice (by simp), List.length_append, List.length_singleton]
    refine ⟨?_, ?_, ?_, ?_, ?_, ?_, ?_⟩
    · rw [hlen', hlen, if_pos (by omega)]
    · have hone : (record ++ [0]).length = record.length + 1 := List.length_append
      rw [hlen', ← hone]
      exact slice_splice_self (Nat.zero_le _)
    · rw [hstay 2 4 (by decide) (by omega), hextent]
    · rw [hstay 10 4 (by decide) (by omega), hdataLen]
    · rw [hstay 25 1 (by decide) (by omega)]
      exact hflags
    · rw [hstay 32 1 (by decide) (by omega)]
      exact hnameLen
    · rw [hstay 33 name.length (by decide) (by omega)]
      exact hname
  · refine ⟨?_, ?_, hextent, hdataLen, hflags, hnameLen, hname⟩
    · rw [hlen, if_neg (by omega), Nat.add_zero]
    · rw [hlen]
      exact hread (0, [UInt8.ofNat (33 + name.length)]) (by simp [ws])

theorem getElem?_of_slice {i : ℕ} {b : UInt8} (h : slice record i 1 = [b]) : record[i]? = some b := by
  have hfirst := @getElem?_slice _ record i 1 0
  rw [h] at hfirst
  exact hfirst.symm

theorem toNat_ofNat_of_lt {n : ℕ} (h : n < 256) : (UInt8.ofNat n).toNat = n :=
  UInt8.toNat_ofNat_of_lt h

theorem u32FromLe_le32 (h : v < 2 ^ 32) : u32FromLe (le32 v) = some v := by
  have hbyte (n : ℕ) : (UInt8.ofNat n).toNat = n % 256 := UInt8.toNat_ofNat'
  unfold u32FromLe le32
  dsimp only
  rw [hbyte, hbyte, hbyte, hbyte]
  congr 1
  omega

/-- Records whose name has not too many bytes are what they say. -/
theorem RecordOf.ident (h : RecordOf extent dataLen flags name record) (hname : name.length ≤ 221) :
    (record[0]?.getD 0).toNat = record.length ∧ (record[32]?.getD 0).toNat = name.length ∧
      slice record 33 (record[32]?.getD 0).toNat = name := by
  have hlen := h.length
  have hfirst : (record[0]?.getD 0).toNat = record.length := by
    rw [getElem?_of_slice h.first]
    refine toNat_ofNat_of_lt ?_
    rw [hlen]
    split <;> omega
  have hnameLen : (record[32]?.getD 0).toNat = name.length := by
    rw [getElem?_of_slice h.nameLen]
    exact toNat_ofNat_of_lt (by omega)
  refine ⟨hfirst, hnameLen, ?_⟩
  rw [hnameLen]
  exact h.name

/-- A record that a directory has for itself or for its parent is no entry. -/
theorem RecordOf.entries_self (h : RecordOf extent dataLen flags name record)
    (hname : name = [0] ∨ name = [1]) : entries record joliet = [] := by
  have hlen : name.length ≤ 221 := by rcases hname with rfl | rfl <;> decide
  unfold entries
  dsimp only
  rw [(h.ident hlen).2.2, if_pos hname]

theorem RecordOf.entries_child (h : RecordOf extent dataLen flags name record)
    (hlen : name.length ≤ 221) (hself : ¬ (name = [0] ∨ name = [1])) (hextent : extent < 2 ^ 32)
    (hdataLen : dataLen < 2 ^ 32) (hne : decodeJoliet name ≠ []) : entries record true =
      [{ name := decodeJoliet name, lba := extent, size := dataLen
         isDir := decide (flags.toNat / 2 % 2 ≠ 0) }] := by
  have hempty : ¬ (decodeJoliet name).isEmpty = true := by simpa using hne
  unfold entries
  rw [(h.ident hlen).2.2, h.extent, h.dataLen, u32FromLe_le32 hextent, u32FromLe_le32 hdataLen,
    getElem?_of_slice h.flags]
  dsimp only
  rw [if_neg hself, if_pos rfl, if_neg hempty]
  rfl

/-! ### Names -/

theorem length_ucs2 (s : List Char) : (ucs2 s).length = 2 * (Utf16.encode s).length := by
  unfold ucs2
  induction Utf16.encode s with
  | nil => rfl
  | cons u us ih =>
    rw [List.flatMap_cons, List.length_append, ih, List.length_cons]
    have htwo : (be16 u).length = 2 := rfl
    omega

theorem beUnits_be16 {us : List ℕ} (h : ∀ u ∈ us, u < 2 ^ 16) : beUnits (us.flatMap be16) = us := by
  induction us with
  | nil => rfl
  | cons u us ih =>
    have hu := h u List.mem_cons_self
    have hbyte (n : ℕ) : (UInt8.ofNat n).toNat = n % 256 := UInt8.toNat_ofNat'
    show (2 ^ 8 * (UInt8.ofNat (u / 2 ^ 8)).toNat + (UInt8.ofNat u).toNat) ::
      beUnits (us.flatMap be16) = u :: us
    rw [ih (fun v hv => h v (List.mem_cons_of_mem u hv)), hbyte, hbyte]
    congr 1
    omega

theorem withoutVersion_eq {s : List Char} (hversion : ';' ∉ s) (hdot : s.getLast? ≠ some '.') :
    withoutVersion s = s := by
  have htake : s.takeWhile (· ≠ ';') = s := by
    have hall : ∀ c ∈ s, decide (c ≠ ';') = true := by
      intro c hc
      rw [decide_eq_true_iff]
      rintro rfl
      exact hversion hc
    have happend := @List.takeWhile_append_of_pos _ _ s [] hall
    rwa [List.append_nil, List.takeWhile_nil, List.append_nil] at happend
  unfold withoutVersion PeerUrl.trimEnd
  rw [htake]
  cases s using List.reverseRecOn with
  | nil => rfl
  | append_singleton s c _ =>
    have hc : ¬ decide (c = '.') = true := by simpa using hdot
    rw [List.reverse_append, List.reverse_singleton, List.singleton_append,
      List.dropWhile_cons, if_neg hc, List.reverse_cons, List.reverse_reverse]

/-- A name comes back from its units. -/
theorem decodeJoliet_ucs2 {s : List Char} (hversion : ';' ∉ s) (hdot : s.getLast? ≠ some '.') :
    decodeJoliet (ucs2 s) = s := by
  unfold decodeJoliet ucs2
  rw [beUnits_be16 Utf16.encode_lt, Utf16.lossy_encode, withoutVersion_eq hversion hdot]

/-! ### Directories -/

/-- A record says its own length, and has its name. -/
structure Formed (record : List UInt8) : Prop where
  pos : 0 < record.length
  first : (record[0]?.getD 0).toNat = record.length
  name : 33 + (record[32]?.getD 0).toNat ≤ record.length

theorem RecordOf.formed (h : RecordOf extent dataLen flags name record)
    (hname : name.length ≤ 221) : Formed record := by
  obtain ⟨hfirst, hnameLen, -⟩ := h.ident hname
  have hlen := h.length
  exact ⟨by omega, hfirst, by omega⟩

theorem turn_record (hr : Formed record) : turn (pre ++ (record ++ rest)) joliet pre.length out =
    .next (pre.length + record.length) (out ++ entries record joliet) := by
  have hbyte : (pre ++ (record ++ rest))[pre.length]?.getD 0 = record[0]?.getD 0 := by
    rw [List.getElem?_append_right (Nat.le_refl _), Nat.sub_self,
      List.getElem?_append_left hr.pos]
  have hslice : slice (pre ++ (record ++ rest)) pre.length record.length = record := by
    have hright := @slice_append_right _ pre record.length 0 (record ++ rest)
    rw [Nat.add_zero] at hright
    rw [hright]
    exact List.take_left
  have hlen : (pre ++ (record ++ rest)).length = pre.length + record.length + rest.length := by
    rw [List.length_append, List.length_append, Nat.add_assoc]
  have hpos := hr.pos
  have hname := hr.name
  unfold turn
  dsimp only
  rw [hbyte, hr.first, hlen, if_neg (by omega), if_neg (by omega), hslice, if_neg (by omega)]

/-- What is left of a sector after its records is zeros, and the loop skips it. -/
theorem parseDirLoop_records (hrecords : ∀ r ∈ records, Formed r) {m fuel : ℕ}
    (hdata : data = pre ++ (records.flatten ++ List.replicate m 0)) (hlen : data.length = 2048)
    (hfuel : records.length + 1 < fuel) : parseDirLoop data joliet fuel pre.length out =
      .ok (out ++ records.flatMap (fun r => entries r joliet)) := by
  induction records generalizing pre out fuel with
  | nil =>
    rw [List.flatten_nil, List.nil_append] at hdata
    rw [List.flatMap_nil, List.append_nil]
    match fuel, hfuel with
    | fuel + 2, _ =>
      by_cases hend : pre.length < data.length
      · have hbyte : (data[pre.length]?.getD 0).toNat = 0 := by
          rw [hdata, List.getElem?_append_right (Nat.le_refl _), Nat.sub_self]
          cases m with
          | zero => rfl
          | succ m => rfl
        have hskip : turn data joliet pre.length out = .next 2048 out := by
          have hsector : (pre.length / 2048 + 1) * 2048 = 2048 := by omega
          unfold turn
          dsimp only
          rw [if_pos hbyte, hsector]
        rw [parseDirLoop_succ (by omega) hend, hskip, ← hlen]
        dsimp only
        rw [parseDirLoop, if_neg (Nat.lt_irrefl _)]
      · rw [parseDirLoop, if_neg hend]
  | cons r records ih =>
    have hr := hrecords r List.mem_cons_self
    rw [List.flatten_cons, List.append_assoc] at hdata
    have hin : pre.length < data.length := by
      have hpos := hr.pos
      rw [hdata, List.length_append, List.length_append]
      omega
    cases fuel with
    | zero => omega
    | succ fuel =>
      have hturn : turn data joliet pre.length out =
          .next (pre.length + r.length) (out ++ entries r joliet) := by
        rw [hdata]
        exact turn_record hr
      have hnext := @ih (pre ++ r) (out ++ entries r joliet)
        (fun s hs => hrecords s (List.mem_cons_of_mem r hs)) fuel (by rw [hdata, List.append_assoc])
        (by simpa using hfuel)
      rw [List.length_append, List.append_assoc] at hnext
      rw [parseDirLoop_succ (by omega) hin, hturn, List.flatMap_cons]
      exact hnext

/-- A directory's sector has its records' entries. -/
theorem parseDir_records (hrecords : ∀ r ∈ records, Formed r)
    (hlen : records.flatten.length ≤ 2048) :
    parseDir 2049 (records.flatten ++ List.replicate (2048 - records.flatten.length) 0) joliet =
      .ok (records.flatMap (fun r => entries r joliet)) := by
  set data := records.flatten ++ List.replicate (2048 - records.flatten.length) (0 : UInt8)
    with hdata
  have hsector : data.length = 2048 := by
    rw [hdata, List.length_append, List.length_replicate]
    omega
  -- the result is the same for every number of turns that is enough
  obtain ⟨ents, hents⟩ := @parseDirLoop_ok data joliet (by omega) 0 []
  have hloop := @parseDirLoop_records [] data joliet [] records hrecords _ (2049 + records.length)
    hdata hsector (by omega)
  have hsame := hents (2049 + records.length) (by omega)
  rw [List.length_nil, hsame] at hloop
  exact (hents 2049 (by omega)).trans hloop

end Pertisk.Iso

namespace Pertisk.Iso
open Lib

variable {sector : List UInt8} {v : Volume} {root : ℕ}

theorem length_padStr (room : ℕ) (s : List Char) : (padStr room s).length = room := by
  unfold padStr
  dsimp only
  rw [List.length_append, List.length_replicate, List.length_take]
  omega

theorem length_ucs2Pad (room : ℕ) (s : List Char) : (ucs2Pad room s).length = 2 * (room / 2) := by
  unfold ucs2Pad
  generalize room / 2 = n
  induction n with
  | zero => rfl
  | succ n ih =>
    rw [List.range_succ, List.flatMap_append, List.length_append, ih, List.flatMap_singleton]
    have htwo (n : ℕ) : (be16 n).length = 2 := rfl
    rw [htwo]
    omega

theorem length_rootRecord (root : ℕ) : (dirRecord root 2048 2 [0]).length = 34 :=
  (dirRecord_of root 2048 2 [0]).length

/-- What is read of a volume descriptor. -/
structure DescriptorOf (kind : UInt8) (root : ℕ) (sector : List UInt8) : Prop where
  length : sector.length = 2048
  kind : sector[0]? = some kind
  id : slice sector 1 5 = cd001
  root : slice sector 156 34 = dirRecord root 2048 2 [0]

theorem length_le32 (n : ℕ) : (le32 n).length = 4 := rfl

theorem length_be32 (n : ℕ) : (be32 n).length = 4 := rfl

theorem length_both16 (n : ℕ) : (both16 n).length = 4 := rfl

/-- What is read of fields that follow each other in a sector. -/
theorem descriptor_of {kind : UInt8} {ws : List (ℕ × List UInt8)} (hsector : sector.length = 2048)
    (hlaid : Laid List.length 0 ws 2048) (hkind : (0, [kind]) ∈ ws) (hid : (1, cd001) ∈ ws)
    (hroot : (156, dirRecord root 2048 2 [0]) ∈ ws) : DescriptorOf kind root (splices sector ws) := by
  have hread := splices_read hlaid hsector.ge
  have hlen := (splices_laid (fun bs => Nat.le_refl bs.length) hlaid hsector.ge).1
  have hrecord := hread _ hroot
  dsimp only at hrecord
  rw [length_rootRecord] at hrecord
  exact ⟨hlen.trans hsector, getElem?_of_slice (hread _ hkind), hread _ hid, hrecord⟩

theorem writePvd_of (h : sector.length = 2048) (v : Volume) :
    DescriptorOf 1 v.root (writePvd sector v) := by
  refine descriptor_of h ?_ (by simp) (by simp [cd001]) (by simp)
  simp [Laid, length_padStr, length_both32, length_rootRecord, length_le32, length_be32,
    length_both16]

/-- The three bytes that tell a Joliet descriptor. -/
def Marked (sector : List UInt8) : Prop :=
  sector[88]? = some 0x25 ∧ sector[89]? = some 0x2f ∧ sector[90]? = some 0x45

theorem writeSvd_of (h : sector.length = 2048) (v : Volume) :
    DescriptorOf 2 v.root (writeSvd sector v) ∧ Marked (writeSvd sector v) := by
  unfold writeSvd
  set ws : List (ℕ × List UInt8) := [(0, [2]), (1, [0x43, 0x44, 0x30, 0x30, 0x31]), (6, [1]),
    (40, ucs2Pad 32 v.id), (80, both32 v.sectors), (88, [0x25]), (89, [0x2f]), (90, [0x45]),
    (120, both16 2048), (124, both32 v.ptSize), (132, le32 v.ptLe), (140, be32 v.ptBe),
    (156, dirRecord v.root 2048 2 [0]), (881, [1])]
  have hlaid : Laid List.length 0 ws 2048 := by
    simp [ws, Laid, length_ucs2Pad, length_both32, length_rootRecord, length_le32, length_be32,
      length_both16]
  have hread := splices_read hlaid h.ge
  exact ⟨descriptor_of h hlaid (by simp [ws]) (by simp [ws, cd001]) (by simp [ws]),
    getElem?_of_slice (hread (88, [0x25]) (by simp [ws])),
    getElem?_of_slice (hread (89, [0x2f]) (by simp [ws])),
    getElem?_of_slice (hread (90, [0x45]) (by simp [ws]))⟩

end Pertisk.Iso
