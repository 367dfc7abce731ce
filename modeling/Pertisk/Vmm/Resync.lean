import Pertisk.Lib.Serde
import Pertisk.Lib.Utf8
import Pertisk.Vmm.Replies
import Pertisk.Volume.Zfs

namespace Pertisk.Vmm.Qga
open Lib PeerUrl

/-- What is used of the library that reads JSON, with its values. -/
structure AgentJson (J : Type) extends SerdeJson J where
  null : J
  toText : J → String
  parseError : List Char → String

/-- What one read from the agent's socket gives. -/
inductive Read
  | bytes (chunk : List UInt8)
  | eof
  | timedOut
  | failed (err : String)
  deriving DecidableEq, Repr

def looksCompleteJson (buf : List UInt8) : Bool :=
  let t := trim (Utf8.lossy buf)
  startsWith t "\x7b" && t.getLast? == some '}' && t.count '{' == t.count '}'

/-- The loop of `read_msg`, with the reads that are left for the next message. -/
def fill (buf : List UInt8) : List Read → Except String (List UInt8 × List Read)
  | [] => .ok (buf, [])
  | .bytes chunk :: rest =>
    let buf := buf ++ chunk
    if buf.contains 10 || looksCompleteJson buf then .ok (buf, rest)
    else if 256 * 1024 < buf.length then .ok (buf, rest)
    else fill buf rest
  | .eof :: rest => .ok (buf, rest)
  | .timedOut :: rest => .ok (buf, rest)
  | .failed err :: _ => .error err

variable {J : Type}

def firstValue (serde : AgentJson J) : List (ℕ × List Char) → Option J
  | [] => none
  | (_, line) :: rest =>
    let line := trim line
    if line.isEmpty then firstValue serde rest
    else
      match serde.fromStr line with
      | some value => some value
      | none => firstValue serde rest

/-- The first line that is JSON, or else all that was read. -/
def parseMsg (serde : AgentJson J) (buf : List UInt8) : Except String J :=
  let text := Utf8.lossy buf
  match firstValue serde (lines 0 text) with
  | some value => .ok value
  | none =>
    match serde.fromStr (trim text) with
    | some value => .ok value
    | none => .error (serde.parseError (trim text))

def readMsg (serde : AgentJson J) (reads : List Read) : Except String (J × List Read) := do
  let (buf, rest) ← fill [] reads
  let value ← parseMsg serde buf
  return (value, rest)

/-- What becomes of the reply. -/
def answer (serde : AgentJson J) (resp : J) : Except String J :=
  match serde.get resp "error" with
  | some err => .error (serde.toText err)
  | none => .ok ((serde.get resp "return").getD serde.null)

/-- The connection to the agent: whether it opens and takes the two messages, and its reads. -/
structure Socket where
  opened : Except String Unit
  syncSent : Except String Unit
  bodySent : Except String Unit
  reads : List Read

/-- The reply to `guest-sync` is read and thrown away, whatever id it has. -/
def qgaCommandTimeout (serde : AgentJson J) (s : Socket) : Except String J := do
  s.opened
  s.syncSent
  let (_, rest) ← readMsg serde s.reads
  s.bodySent
  let (resp, _) ← readMsg serde rest
  answer serde resp

end Pertisk.Vmm.Qga

namespace Pertisk.Vmm.Qga
open Lib PeerUrl

variable {J : Type} {serde : AgentJson J}

/-- What the bytes are read as when they are all there is. -/
def parsed (serde : AgentJson J) (bytes : List UInt8) : Option J :=
  serde.fromStr (trim (Utf8.lossy bytes))

/-- A reply of the agent: one object on one line. -/
structure Reply (serde : AgentJson J) where
  bytes : List UInt8
  value : J
  reads : parsed serde bytes = some value
  first : bytes.head? = some 0x7B
  last : bytes.getLast? = some 0x7D
  line : 10 ∉ bytes

/-- What the JSON library does: nothing, and no part of an object's text at its start or at its end,
is JSON, the last not even with a line break and more behind it. -/
structure AgentJson.Framed (serde : AgentJson J) : Prop where
  empty : serde.fromStr [] = none
  start : ∀ (m : Reply serde) (a b : List UInt8), m.bytes = a ++ b → b ≠ [] → parsed serde a = none
  rest : ∀ (m : Reply serde) (a b : List UInt8), m.bytes = a ++ b → a ≠ [] → b ≠ [] →
    parsed serde b = none ∧ ∀ more, parsed serde (b ++ 10 :: more) = none

def stream (ms : List (Reply serde)) : List UInt8 := ms.flatMap (fun m => m.bytes ++ [10])

/-- What a reading from place `lo` of the stream to place `hi` comes upon, when `ms` begin at `start`:
the first reply that it has whole, or the part that it has of one in which it begins and ends. -/
def comesUpon (lo hi start : ℕ) : List (Reply serde) → Option J
  | [] => none
  | m :: ms =>
    let stop := start + m.bytes.length
    if lo ≤ start ∧ stop ≤ hi then some m.value
    else if start < lo ∧ hi < stop then parsed serde ((m.bytes.drop (lo - start)).take (hi - lo))
    else comesUpon lo hi (stop + 1) ms

/-! ### Lines -/

variable {m reply : Reply serde} {ms : List (Reply serde)} {a b w : List UInt8} {o : ℕ}

theorem newline_notMem_lossy (h : 10 ∉ a) : '\n' ∉ Utf8.lossy a := by
  intro hmem
  obtain ⟨y, hy, hsame⟩ := Utf8.mem_of_mem_lossy hmem (by decide) (by decide)
  obtain rfl : y = 10 := (UInt8.toNat_inj (b := 10)).mp hsame
  exact h hy

theorem lossy_newline (a b : List UInt8) :
    Utf8.lossy (a ++ 10 :: b) = Utf8.lossy a ++ '\n' :: Utf8.lossy b :=
  Utf8.lossy_ascii (by decide)

theorem trim_stripCr (line : List Char) : trim (stripCr line) = trim line := by
  unfold stripCr
  split
  · rename_i hcr
    have hne : line ≠ [] := by
      rintro rfl
      cases hcr
    have hline : line = line.dropLast ++ ['\r'] := by
      rw [List.getLast?_eq_some_getLast hne] at hcr
      rw [← Option.some.inj hcr]
      exact (List.dropLast_append_getLast hne).symm
    obtain ⟨u, v, hs, hu, hv, hfirst, hlast⟩ :=
      Volume.trimMatches_split isWhiteSpace line.dropLast
    have hback : ∀ c ∈ v ++ ['\r'], isWhiteSpace c = true := by
      intro c hc
      rcases List.mem_append.mp hc with hc | hc
      · exact hv c hc
      · rw [List.mem_singleton.mp hc]
        rfl
    have htrim := Volume.trimMatches_of_ends hu hfirst hlast hback
    rw [← List.append_assoc, ← hs, ← hline] at htrim
    exact htrim.symm
  · rfl

theorem firstValue_cons (line : List Char) (ls : List (ℕ × List Char)) :
    firstValue serde ((o, line) :: ls) =
      (if (trim line).isEmpty then none else serde.fromStr (trim line)).or
        (firstValue serde ls) := by
  rw [firstValue]
  cases (trim line).isEmpty with
  | true => rfl
  | false =>
    cases serde.fromStr (trim line) with
    | none => rfl
    | some value => rfl

theorem firstValue_line (h : 10 ∉ a) :
    firstValue serde (lines o (Utf8.lossy (a ++ 10 :: w))) =
      (if (trim (Utf8.lossy a)).isEmpty then none else parsed serde a).or
        (firstValue serde (lines (o + (Utf8.lossy a).length + 1) (Utf8.lossy w))) := by
  rw [lossy_newline, lines_newline (newline_notMem_lossy h), firstValue_cons, trim_stripCr]
  rfl

theorem firstValue_end (h : 10 ∉ a) : firstValue serde (lines o (Utf8.lossy a)) =
    if (trim (Utf8.lossy a)).isEmpty then none else parsed serde a := by
  rw [lines_end (newline_notMem_lossy h)]
  split
  · rename_i hempty
    rw [List.isEmpty_iff.mp hempty]
    rfl
  · rw [firstValue_cons]
    exact Option.or_none

theorem trim_newline (s : List Char) : trim ('\n' :: s) = trim s := by
  rw [trim, List.dropWhile_cons_of_pos (by decide)]
  rfl

namespace Reply

theorem bytes_ne_nil (m : Reply serde) : m.bytes ≠ [] := by
  intro hnil
  have := m.first
  rw [hnil] at this
  cases this

theorem length_pos (m : Reply serde) : 0 < m.bytes.length := List.length_pos_iff.mpr m.bytes_ne_nil

/-- A reply's text is not blank. -/
theorem trim_isEmpty (m : Reply serde) : (trim (Utf8.lossy m.bytes)).isEmpty = false := by
  obtain ⟨rest, hrest⟩ := List.head?_eq_some_iff.mp m.first
  refine trim_isEmpty_of_mem (c := '{') ?_ (by decide)
  have := Utf8.lossy_ascii (a := []) (b := rest) (x := 0x7B) (by decide)
  rw [List.nil_append] at this
  rw [hrest, this]
  exact List.mem_cons_self

end Reply

theorem stream_cons (m : Reply serde) (ms : List (Reply serde)) :
    stream (m :: ms) = m.bytes ++ 10 :: stream ms := by
  rw [stream, List.flatMap_cons, List.append_assoc]
  rfl

/-- A reading that ends where the replies begin comes upon none. -/
theorem comesUpon_before {lo hi start : ℕ} (hlo : lo ≤ start) (hhi : hi ≤ start) :
    comesUpon lo hi start ms = none := by
  induction ms generalizing start with
  | nil => rfl
  | cons m ms ih =>
    have hpos := m.length_pos
    rw [comesUpon, if_neg (by omega), if_neg (by omega)]
    exact ih (by omega) (by omega)

/-- What a message is parsed as. -/
def heard (serde : AgentJson J) (buf : List UInt8) : Option J :=
  (firstValue serde (lines 0 (Utf8.lossy buf))).or (parsed serde buf)

theorem parseMsg_eq (buf : List UInt8) : parseMsg serde buf =
    match heard serde buf with
    | some value => .ok value
    | none => .error (serde.parseError (trim (Utf8.lossy buf))) := by
  unfold parseMsg heard parsed
  dsimp only
  cases firstValue serde (lines 0 (Utf8.lossy buf)) with
  | some value => rfl
  | none =>
    cases serde.fromStr (trim (Utf8.lossy buf)) with
    | some value => rfl
    | none => rfl

theorem heard_line (h : 10 ∉ a) : heard serde a = parsed serde a := by
  rw [heard, firstValue_end h]
  split
  · rfl
  · cases parsed serde a with
    | none => rfl
    | some value => rfl

/-- A reading that begins with replies, or in front of them, comes upon the first. -/
theorem firstValue_aligned (hserde : serde.Framed) {lo start : ℕ} (hlo : lo ≤ start)
    (h : w <+: stream ms) :
    firstValue serde (lines o (Utf8.lossy w)) = comesUpon lo (start + w.length) start ms ∧
      (comesUpon lo (start + w.length) start ms = none → parsed serde w = none) := by
  cases ms with
  | nil =>
    obtain rfl := List.prefix_nil.mp h
    exact ⟨rfl, fun _ => hserde.empty⟩
  | cons m ms =>
    have hinside : ¬ (start < lo ∧ start + w.length < start + m.bytes.length) := by omega
    rw [comesUpon, if_neg hinside]
    rw [stream_cons] at h
    by_cases hshort : w.length < m.bytes.length
    · obtain ⟨b, hb⟩ := List.prefix_of_prefix_length_le h (List.prefix_append _ _) (by omega)
      have hne : b ≠ [] := by
        rintro rfl
        rw [List.append_nil] at hb
        rw [hb] at hshort
        omega
      have hline : 10 ∉ w := fun hmem => m.line (hb ▸ List.mem_append_left b hmem)
      have hnone : parsed serde w = none := hserde.start m w b hb.symm hne
      rw [if_neg (by omega), comesUpon_before (by omega) (by omega), firstValue_end hline, hnone]
      exact ⟨ite_self _, fun _ => rfl⟩
    · obtain ⟨w', rfl⟩ := List.prefix_of_prefix_length_le (List.prefix_append _ _) h
        (Nat.le_of_not_lt hshort)
      rw [List.length_append, if_pos (by omega)]
      refine ⟨?_, fun habs => nomatch habs⟩
      have hblank := m.trim_isEmpty
      cases w' with
      | nil =>
        rw [List.append_nil, firstValue_end m.line, hblank, if_neg Bool.false_ne_true, m.reads]
      | cons x w' =>
        obtain rfl : x = 10 := (List.cons_prefix_cons.mp ((List.prefix_append_right_inj _).mp h)).1
        rw [firstValue_line m.line, hblank, if_neg Bool.false_ne_true, m.reads]
        rfl

/-- What a reading hears is what it comes upon. -/
theorem heard_eq (hserde : serde.Framed) {lo start : ℕ} (hle : start ≤ lo)
    (h : w <+: (stream ms).drop (lo - start)) :
    heard serde w = comesUpon lo (lo + w.length) start ms := by
  induction ms generalizing start with
  | nil =>
    have hnil : w = [] := by
      rw [stream, List.flatMap_nil, List.drop_nil] at h
      exact List.prefix_nil.mp h
    rw [hnil]
    exact hserde.empty
  | cons m ms ih =>
    by_cases hstart : lo = start
    · subst hstart
      rw [Nat.sub_self, List.drop_zero] at h
      obtain ⟨hfirst, hrest⟩ := firstValue_aligned (o := 0) hserde (Nat.le_refl lo) h
      rw [heard, hfirst]
      cases hupon : comesUpon lo (lo + w.length) lo (m :: ms) with
      | some value => rfl
      | none => exact hrest hupon
    · rw [stream_cons] at h
      have hwhole : ¬ (lo ≤ start ∧ start + m.bytes.length ≤ lo + w.length) := by omega
      rw [comesUpon, if_neg hwhole]
      by_cases hstop : lo < start + m.bytes.length
      · -- the first reply is begun
        rw [List.drop_append_of_le_length (by omega)] at h
        have hsplit : m.bytes = m.bytes.take (lo - start) ++ m.bytes.drop (lo - start) :=
          (List.take_append_drop _ _).symm
        have htake : m.bytes.take (lo - start) ≠ [] := by
          rw [← List.length_pos_iff, List.length_take]
          omega
        have hdrop : m.bytes.drop (lo - start) ≠ [] := by
          rw [← List.length_pos_iff, List.length_drop]
          omega
        have hlen : (m.bytes.drop (lo - start)).length = m.bytes.length - (lo - start) :=
          List.length_drop
        obtain ⟨hpart, hjoined⟩ := hserde.rest m _ _ hsplit htake hdrop
        have hline : 10 ∉ m.bytes.drop (lo - start) :=
          fun hmem => m.line (List.mem_of_mem_drop hmem)
        by_cases hshort : w.length < (m.bytes.drop (lo - start)).length
        · have hpre : w <+: m.bytes.drop (lo - start) :=
            List.prefix_of_prefix_length_le h (List.prefix_append _ _) (by omega)
          have hw : (m.bytes.drop (lo - start)).take w.length = w :=
            (List.prefix_iff_eq_take.mp hpre).symm
          rw [if_pos (by omega), Nat.add_sub_cancel_left, hw,
            heard_line fun hmem => hline (hpre.subset hmem)]
        · rw [if_neg (by omega)]
          obtain ⟨w', rfl⟩ := List.prefix_of_prefix_length_le (List.prefix_append _ _) h
            (Nat.le_of_not_lt hshort)
          cases w' with
          | nil =>
            rw [List.append_nil, heard_line hline, hpart, comesUpon_before (by omega) (by omega)]
          | cons x w' =>
            obtain ⟨rfl, hrest⟩ := List.cons_prefix_cons.mp ((List.prefix_append_right_inj _).mp h)
            have hnext : lo + (m.bytes.drop (lo - start) ++ 10 :: w').length =
                start + m.bytes.length + 1 + w'.length := by
              rw [List.length_append, List.length_cons]
              omega
            rw [heard, firstValue_line hline, hpart, hjoined, ite_self, Option.none_or,
              Option.or_none, hnext]
            exact (firstValue_aligned hserde (by omega) hrest).1
      · rw [if_neg (by omega)]
        by_cases hbreak : lo = start + m.bytes.length
        · -- only the line break is left of the first reply
          rw [hbreak, Nat.add_sub_cancel_left, List.drop_left] at h
          cases w with
          | nil =>
            rw [List.length_nil, comesUpon_before (by omega) (by omega)]
            exact hserde.empty
          | cons x w =>
            obtain ⟨rfl, hrest⟩ := List.cons_prefix_cons.mp h
            have hnext : lo + (10 :: w).length = start + m.bytes.length + 1 + w.length := by
              rw [List.length_cons]
              omega
            have hblank : parsed serde (10 :: w) = parsed serde w := by
              have := lossy_newline [] w
              rw [List.nil_append] at this
              unfold parsed
              rw [this]
              exact congrArg serde.fromStr (trim_newline _)
            have hline : firstValue serde (lines 0 (Utf8.lossy (10 :: w))) =
                firstValue serde (lines 1 (Utf8.lossy w)) :=
              firstValue_line (a := []) List.not_mem_nil
            obtain ⟨hfirst, hnone⟩ := firstValue_aligned (o := 1) hserde
              (Nat.le_succ_of_le (Nat.le_of_eq hbreak)) hrest
            rw [heard, hline, hnext, hblank, hfirst]
            cases hupon : comesUpon lo (start + m.bytes.length + 1 + w.length)
                (start + m.bytes.length + 1) ms with
            | some value => rfl
            | none => exact hnone hupon
        · have hdrop : (m.bytes ++ 10 :: stream ms).drop (lo - start) =
              (stream ms).drop (lo - (start + m.bytes.length + 1)) := by
            have hcons : m.bytes ++ 10 :: stream ms = (m.bytes ++ [10]) ++ stream ms := by
              rw [List.append_assoc]
              rfl
            rw [hcons, List.drop_append, List.drop_eq_nil_of_le (by simp; omega), List.nil_append,
              List.length_append, List.length_singleton]
            congr 1
            omega
          rw [hdrop] at h
          exact ih (by omega) h

end Pertisk.Vmm.Qga
