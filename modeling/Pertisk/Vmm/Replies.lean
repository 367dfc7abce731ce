import Mathlib.Data.List.TakeWhile
import Pertisk.Lib.Calls
import Pertisk.PeerUrl

namespace Pertisk.Vmm
open Lib

/-- What is used of the library that reads JSON, with its values. -/
structure SerdeJson (J : Type) where
  fromStr : List Char → Option J
  get : J → String → Option J
  asStr : J → Option String

/-- How a read from the socket ends. -/
inductive Read
  | chunk (bytes : List Char)
  | timedOut
  | failed (err : String)
  deriving DecidableEq, Repr

def Read.get (what path : String) : Read → Except String (List Char)
  | .chunk bytes => .ok bytes
  | .timedOut => .error s!"qmp {what} {path}: timed out"
  | .failed err => .error s!"qmp {what} {path}: {err}"

/-- Without the carriage return of a line's end. -/
def stripCr (line : List Char) : List Char :=
  if line.getLast? = some '\r' then line.dropLast else line

/-- `str::lines`, each line with its offset; `cur` is what the line has so far. -/
def linesFrom (offset : ℕ) (cur : List Char) : List Char → List (ℕ × List Char)
  | [] => if cur.isEmpty then [] else [(offset, cur)]
  | c :: cs =>
    if c = '\n' then (offset, stripCr cur) :: linesFrom (offset + cur.length + 1) [] cs
    else linesFrom offset (cur ++ [c]) cs

def lines (offset : ℕ) (text : List Char) : List (ℕ × List Char) := linesFrom offset [] text

variable {J : Type}

/-- The first line that is JSON, with its offset. -/
def firstJson (serde : SerdeJson J) : List (ℕ × List Char) → Option (ℕ × J)
  | [] => none
  | (offset, line) :: rest =>
    if (PeerUrl.trim line).isEmpty then firstJson serde rest
    else
      match serde.fromStr line with
      | some value => some (offset, value)
      | none => firstJson serde rest

/-- A connection to the socket: what its reads give. -/
structure Connection where
  connect : Read
  greeting : Read
  capabilities : Read
  reply : Read

/-- Ask for the capabilities, then for the command. The value that is returned comes with the
offset, in all that was read, of the line it was read from; nothing is read of the first two. -/
def qmpRoundtrip (serde : SerdeJson J) (path execute : String) (c : Connection) :
    Except String (Option (ℕ × J)) := do
  let _ ← c.connect.get "connect" path
  let greeting ← c.greeting.get "greeting" path
  let capabilities ← c.capabilities.get "capabilities" path
  if execute = "qmp_capabilities" then return none
  else
    let text ← c.reply.get execute path
    match firstJson serde (lines (greeting.length + capabilities.length) text) with
    | some found => return some found
    | none => .error s!"qmp {execute} returned no json"

def qmpExecute (serde : SerdeJson J) (path execute : String) (c : Connection) : Except String Unit := do
  let _ ← qmpRoundtrip serde path execute c
  return ()

/-- A reply that says what went wrong is a failure. -/
def qmpOk (serde : SerdeJson J) (path execute : String) (c : Connection) : Except String Unit := do
  match ← qmpRoundtrip serde path execute c with
  | none => return ()
  | some (_, value) =>
    match serde.get value "error" with
    | none => return ()
    | some err =>
      match (serde.get err "desc").bind serde.asStr with
      | some desc => .error s!"qmp {execute}: {desc}"
      | none => .error s!"qmp {execute} failed"

/-- The commands of the hypervisor, each with the devices that it goes through. -/
inductive Operation
  | start
  | restart
  | migrateTo
  | snapshotInternal
  | snapshotDeleteInternal
  | nbdServe (devices : List String)
  | mirrorStart (devices : List String)
  | completeMirrors (devices : List String)

/-- What is asked for, one command after the other. -/
def Operation.commands : Operation → List String
  | .start => ["cont"]
  | .restart => ["system_reset"]
  | .migrateTo => ["migrate"]
  | .snapshotInternal => ["blockdev-snapshot-internal-sync"]
  | .snapshotDeleteInternal => ["blockdev-snapshot-delete-internal-sync"]
  | .nbdServe devices =>
    if devices.isEmpty then [] else "nbd-server-start" :: devices.map (fun _ => "nbd-server-add")
  | .mirrorStart devices => devices.map (fun _ => "drive-mirror")
  | .completeMirrors devices => devices.map (fun _ => "block-job-complete")

/-- Whether the reply is looked at. -/
def Operation.checked : Operation → Bool
  | .start | .restart | .migrateTo => false
  | .snapshotInternal | .snapshotDeleteInternal | .nbdServe _ | .mirrorStart _
  | .completeMirrors _ => true

def Operation.ask (op : Operation) (serde : SerdeJson J) (path execute : String) (c : Connection) :
    Except String Unit :=
  if op.checked then qmpOk serde path execute c else qmpExecute serde path execute c

/-- Each command has its own connection. -/
def Operation.run (op : Operation) (serde : SerdeJson J) (path : String) (cs : List Connection) :
    Except String Unit :=
  (op.commands.zip cs).forM (fun (execute, c) => op.ask serde path execute c)

end Pertisk.Vmm

namespace Pertisk.Vmm
open Lib

variable {J : Type} {serde : SerdeJson J}

/-- What the JSON library does: a carriage return behind a text is space, and no part of an object's
text is one at its start or at its end. -/
structure SerdeJson.Lawful (serde : SerdeJson J) : Prop where
  space : ∀ text, serde.fromStr (text ++ ['\r']) = serde.fromStr text
  part : ∀ text value, serde.fromStr text = some value → text.head? = some '{' →
    text.getLast? = some '}' → ∀ a b, text = a ++ b → a ≠ [] → b ≠ [] →
      serde.fromStr a = none ∧ serde.fromStr b = none

/-- A line that the server sends: one object. -/
structure QmpLine (serde : SerdeJson J) where
  text : List Char
  value : J
  reads : serde.fromStr text = some value
  head : text.head? = some '{'
  last : text.getLast? = some '}'
  line : '\n' ∉ text

def QmpLine.bytes (m : QmpLine serde) : List Char := m.text ++ ['\r', '\n']

def stream (ms : List (QmpLine serde)) : List Char := ms.flatMap QmpLine.bytes

/-! ### Lines -/

variable {a rest line : List Char} {offset : ℕ} {cur : List Char}

theorem linesFrom_newline (h : '\n' ∉ a) : linesFrom offset cur (a ++ '\n' :: rest) =
    (offset, stripCr (cur ++ a)) :: linesFrom (offset + (cur ++ a).length + 1) [] rest := by
  induction a generalizing cur with
  | nil =>
    rw [List.nil_append, List.append_nil]
    exact if_pos rfl
  | cons c a ih =>
    have hc : c ≠ '\n' := fun hsame => h (hsame ▸ List.mem_cons_self)
    rw [List.cons_append, linesFrom, if_neg hc, ih (fun hin => h (List.mem_cons_of_mem c hin)),
      List.append_assoc]
    rfl

theorem linesFrom_end (h : '\n' ∉ a) : linesFrom offset cur a =
    if (cur ++ a).isEmpty then [] else [(offset, cur ++ a)] := by
  induction a generalizing cur with
  | nil =>
    rw [List.append_nil]
    rfl
  | cons c a ih =>
    have hc : c ≠ '\n' := fun hsame => h (hsame ▸ List.mem_cons_self)
    rw [linesFrom, if_neg hc, ih (fun hin => h (List.mem_cons_of_mem c hin)), List.append_assoc]
    rfl

theorem lines_newline (h : '\n' ∉ a) :
    lines offset (a ++ '\n' :: rest) = (offset, stripCr a) :: lines (offset + a.length + 1) rest :=
  linesFrom_newline h

theorem lines_end (h : '\n' ∉ a) :
    lines offset a = if a.isEmpty then [] else [(offset, a)] := linesFrom_end h

theorem stripCr_cr (a : List Char) : stripCr (a ++ ['\r']) = a := by
  unfold stripCr
  rw [if_pos (by simp), List.dropLast_concat]

theorem firstJson_skip {ls : List (ℕ × List Char)}
    (h : (PeerUrl.trim line).isEmpty = true ∨ serde.fromStr line = none) :
    firstJson serde ((offset, line) :: ls) = firstJson serde ls := by
  rw [firstJson]
  split
  · rfl
  · rename_i hsome
    rw [h.resolve_left hsome]

theorem trim_isEmpty_of_mem {c : Char} (hc : c ∈ line) (hspace : PeerUrl.isWhiteSpace c = false) :
    (PeerUrl.trim line).isEmpty = false := by
  have hne : line.dropWhile PeerUrl.isWhiteSpace ≠ [] := by
    intro hnil
    have hall := List.dropWhile_eq_nil_iff.mp hnil c hc
    rw [hspace] at hall
    cases hall
  have hfirst := List.head_dropWhile_not PeerUrl.isWhiteSpace hne
  rw [List.isEmpty_eq_false_iff]
  intro hnil
  have hrev : (line.dropWhile PeerUrl.isWhiteSpace).reverse.dropWhile PeerUrl.isWhiteSpace = [] :=
    List.reverse_eq_nil_iff.mp hnil
  have hall := List.dropWhile_eq_nil_iff.mp hrev _ (List.mem_reverse.mpr (List.head_mem hne))
  rw [hall] at hfirst
  cases hfirst

theorem firstJson_hit {ls : List (ℕ × List Char)} {value : J} (hbrace : '{' ∈ line)
    (h : serde.fromStr line = some value) :
    firstJson serde ((offset, line) :: ls) = some (offset, value) := by
  rw [firstJson, trim_isEmpty_of_mem hbrace (by decide), if_neg Bool.false_ne_true, h]

/-! ### A read of the stream -/

variable {m reply : QmpLine serde} {ms earlier later : List (QmpLine serde)} {third : List Char}

theorem QmpLine.brace (m : QmpLine serde) : '{' ∈ m.text :=
  List.mem_of_mem_head? m.head

theorem QmpLine.text_ne_nil (m : QmpLine serde) : m.text ≠ [] :=
  List.ne_nil_of_mem m.brace

theorem length_bytes (m : QmpLine serde) : m.bytes.length = m.text.length + 2 :=
  List.length_append

theorem stream_cons (m : QmpLine serde) (ms : List (QmpLine serde)) :
    stream (m :: ms) = m.bytes ++ stream ms := List.flatMap_cons

/-- A read that begins with a message gives it when it has all of it. -/
theorem firstJson_aligned (hserde : serde.Lawful) (h : third <+: stream (m :: ms)) :
    firstJson serde (lines offset third) =
      if m.text.length ≤ third.length then some (offset, m.value) else none := by
  obtain ⟨t, ht⟩ := h
  rw [stream_cons, QmpLine.bytes, List.append_assoc] at ht
  rcases List.append_eq_append_iff.mp ht with ⟨b, hb, -⟩ | ⟨b, rfl, hb⟩
  · have hline : '\n' ∉ third := fun hin => m.line (hb ▸ List.mem_append_left b hin)
    rw [lines_end hline]
    by_cases hthird : third = []
    · have hlen : ¬ m.text.length ≤ third.length := by
        rw [hthird, List.length_nil, Nat.le_zero, List.length_eq_zero_iff]
        exact m.text_ne_nil
      rw [if_neg hlen, hthird]
      rfl
    · rw [List.isEmpty_eq_false_iff.mpr hthird, if_neg Bool.false_ne_true]
      by_cases hrest : b = []
      · rw [hrest, List.append_nil] at hb
        rw [firstJson_hit (hb ▸ m.brace) (hb ▸ m.reads), hb, if_pos (Nat.le_refl _)]
      · have hnone := (hserde.part m.text m.value m.reads m.head m.last third b hb hthird hrest).1
        have hpos : 0 < b.length := List.length_pos_iff.mpr hrest
        rw [firstJson_skip (.inr hnone), hb, List.length_append, if_neg (by omega)]
        rfl
  · rw [if_pos (by rw [List.length_append]; omega)]
    match b, hb with
    | [], _ =>
      rw [List.append_nil, lines_end m.line, List.isEmpty_eq_false_iff.mpr m.text_ne_nil,
        if_neg Bool.false_ne_true, firstJson_hit m.brace m.reads]
    | [c], hb =>
      obtain ⟨rfl, -⟩ := List.cons.inj hb
      have hline : '\n' ∉ m.text ++ ['\r'] := by
        rw [List.mem_append, not_or]
        exact ⟨m.line, by decide⟩
      rw [lines_end hline, List.isEmpty_eq_false_iff.mpr (by simp), if_neg Bool.false_ne_true,
        firstJson_hit (List.mem_append_left _ m.brace) ((hserde.space _).trans m.reads)]
    | c :: d :: b, hb =>
      obtain ⟨rfl, hfeed⟩ := List.cons.inj hb
      obtain ⟨rfl, -⟩ := List.cons.inj hfeed
      have hline : '\n' ∉ m.text ++ ['\r'] := by
        rw [List.mem_append, not_or]
        exact ⟨m.line, by decide⟩
      have hsplit : m.text ++ '\r' :: '\n' :: b = (m.text ++ ['\r']) ++ '\n' :: b := by simp
      rw [hsplit, lines_newline hline, stripCr_cr, firstJson_hit m.brace m.reads]

/-- What is left of a message that was begun before the read is no JSON. -/
theorem firstJson_rest (hserde : serde.Lawful) {p s : List Char} (hsplit : m.bytes = p ++ s)
    (hp : p ≠ []) (hs : s ≠ []) : firstJson serde (lines offset (s ++ rest)) =
      firstJson serde (lines (offset + s.length) rest) := by
  rcases List.append_eq_append_iff.mp hsplit.symm with ⟨q, hq, rfl⟩ | ⟨q, hq, hend⟩
  · -- the text is cut, or its end is
    have hline : '\n' ∉ q ++ ['\r'] := by
      rw [List.mem_append, not_or]
      exact ⟨fun hin => m.line (hq ▸ List.mem_append_right p hin), by decide⟩
    have hs : q ++ ['\r', '\n'] ++ rest = (q ++ ['\r']) ++ '\n' :: rest := by simp
    have hskip : (PeerUrl.trim q).isEmpty = true ∨ serde.fromStr q = none := by
      by_cases hnil : q = []
      · rw [hnil]
        exact .inl rfl
      · exact .inr (hserde.part m.text m.value m.reads m.head m.last p q hq hp hnil).2
    have hlen : offset + (q ++ ['\r']).length + 1 = offset + (q ++ ['\r', '\n']).length := by
      simp only [List.length_append, List.length_cons, List.length_nil]
      omega
    rw [hs, lines_newline hline, stripCr_cr, firstJson_skip hskip, hlen]
  · -- only the line's end is left
    have hskip (line : List Char) (hline : line = [] ∨ line = ['\r']) (hnew : '\n' ∉ line) :
        firstJson serde (lines offset (line ++ '\n' :: rest)) =
          firstJson serde (lines (offset + line.length + 1) rest) := by
      rw [lines_newline hnew]
      refine firstJson_skip (.inl ?_)
      rcases hline with rfl | rfl
      · rfl
      · rfl
    match q, hend with
    | [], hend =>
      have hs' : s = ['\r', '\n'] := hend.symm
      rw [hs']
      exact hskip ['\r'] (.inr rfl) (by decide)
    | [c], hend =>
      have hs' : s = ['\n'] := (List.cons.inj hend).2.symm
      rw [hs']
      exact hskip [] (.inl rfl) (by decide)
    | c :: d :: q, hend =>
      obtain ⟨-, hend⟩ := List.cons.inj hend
      obtain ⟨-, hend⟩ := List.cons.inj hend
      exact absurd (List.append_eq_nil_iff.mp hend.symm).2 hs

/-! ### The reply among what the server sends -/

/-- A read that begins with a message gives the reply when that message is the reply, and the read
has all of it. -/
theorem aligned_iff (hserde : serde.Lawful) (h : third <+: stream (ms ++ reply :: later)) :
    firstJson serde (lines offset third) = some (offset + (stream ms).length, reply.value) ↔
      ms = [] ∧ reply.text.length ≤ third.length := by
  cases ms with
  | nil =>
    rw [firstJson_aligned hserde h]
    by_cases hlong : reply.text.length ≤ third.length
    · rw [if_pos hlong]
      exact ⟨fun _ => ⟨rfl, hlong⟩, fun _ => rfl⟩
    · rw [if_neg hlong]
      exact ⟨fun habs => (nomatch habs), fun hall => absurd hall.2 hlong⟩
  | cons m ms =>
    have hpos : (stream (m :: ms)).length = m.text.length + 2 + (stream ms).length := by
      rw [stream_cons, List.length_append, length_bytes]
    refine ⟨fun hfound => ?_, fun hall => nomatch hall.1⟩
    rw [firstJson_aligned hserde h] at hfound
    split at hfound
    · have hsame := congrArg Prod.fst (Option.some.inj hfound)
      dsimp only at hsame
      omega
    · cases hfound

/-- A read that begins inside a message and does not reach its end gives nothing behind its start. -/
theorem firstJson_inside {p s : List Char} {found : ℕ × J} (hsplit : m.bytes = p ++ s)
    (hthird : third <+: s) (hshort : third.length < s.length)
    (hfound : firstJson serde (lines offset third) = some found) : found.1 = offset := by
  have hline : '\n' ∉ third := by
    intro hin
    obtain ⟨t, rfl⟩ := hthird
    have hbytes : m.text ++ ['\r'] ++ ['\n'] = (p ++ third) ++ t := by
      rw [List.append_assoc, List.append_assoc, ← hsplit]
      rfl
    have ht : t ≠ [] := by
      rintro rfl
      rw [List.append_nil] at hshort
      exact Nat.lt_irrefl _ hshort
    have hinit := congrArg List.dropLast hbytes
    rw [List.dropLast_concat, List.dropLast_append_of_ne_nil ht] at hinit
    have hmem : '\n' ∈ m.text ++ ['\r'] :=
      hinit ▸ List.mem_append_left _ (List.mem_append_right p hin)
    rcases List.mem_append.mp hmem with htext | hcr
    · exact m.line htext
    · exact absurd hcr (by decide)
  rw [lines_end hline] at hfound
  split at hfound
  · cases hfound
  · rw [firstJson] at hfound
    split at hfound
    · cases hfound
    · split at hfound
      · cases hfound
        rfl
      · cases hfound

/-- The third read gives the reply when the two before it took some of the last message before the
reply, and it reaches the reply's end. -/
theorem firstJson_reply (hserde : serde.Lawful) {start : ℕ} (hne : earlier ≠ [])
    (hle : start ≤ offset) (hcausal : offset ≤ start + (stream earlier).length)
    (h : third <+: (stream (earlier ++ reply :: later)).drop (offset - start)) :
    firstJson serde (lines offset third) = some (start + (stream earlier).length, reply.value) ↔
      start + (stream earlier.dropLast).length < offset ∧
        start + (stream earlier).length + reply.text.length ≤ offset + third.length := by
  induction earlier generalizing start with
  | nil => exact absurd rfl hne
  | cons m ms ih =>
    have hlen : (stream (m :: ms)).length = m.bytes.length + (stream ms).length := by
      rw [stream_cons, List.length_append]
    have hinit (hms : ms ≠ []) : (stream (m :: ms).dropLast).length =
        m.bytes.length + (stream ms.dropLast).length := by
      rw [List.dropLast_cons_of_ne_nil hms, stream_cons, List.length_append]
    have hbytes := length_bytes m
    rw [List.cons_append, stream_cons] at h
    by_cases hstart : offset = start
    · -- nothing of the first message is taken
      rw [hstart, Nat.sub_self, List.drop_zero, ← stream_cons] at h
      subst hstart
      have hfirst : firstJson serde (lines offset third) =
          some (offset + (stream (m :: ms)).length, reply.value) ↔
            m :: ms = [] ∧ reply.text.length ≤ third.length := aligned_iff hserde h
      refine hfirst.trans ⟨fun hall => ?_, fun hall => ?_⟩
      · cases hall.1
      · omega
    · by_cases hinside : offset < start + m.bytes.length
      · -- the first message is begun
        have hdrop : offset - start ≤ m.bytes.length := by omega
        rw [List.drop_append_of_le_length hdrop] at h
        have hsplit : m.bytes = m.bytes.take (offset - start) ++ m.bytes.drop (offset - start) :=
          (List.take_append_drop _ _).symm
        have htail : (m.bytes.drop (offset - start)).length = m.bytes.length - (offset - start) :=
          List.length_drop
        by_cases hshort : third.length < (m.bytes.drop (offset - start)).length
        · have hpre : third <+: m.bytes.drop (offset - start) :=
            List.prefix_of_prefix_length_le h (List.prefix_append _ _) (by omega)
          refine ⟨fun hfound => ?_, fun hall => by omega⟩
          have hsame := firstJson_inside hsplit hpre hshort hfound
          dsimp only at hsame
          omega
        · obtain ⟨third', rfl⟩ : ∃ third', third = m.bytes.drop (offset - start) ++ third' := by
            obtain ⟨third', hthird'⟩ :=
              List.prefix_of_prefix_length_le (List.prefix_append _ _) h (by omega)
            exact ⟨third', hthird'.symm⟩
          have hrest := (List.prefix_append_right_inj _).mp h
          have htake : m.bytes.take (offset - start) ≠ [] := by
            rw [← List.length_pos_iff, List.length_take]
            omega
          have hmore : m.bytes.drop (offset - start) ≠ [] := by
            rw [← List.length_pos_iff]
            omega
          have hnext : offset + (m.bytes.drop (offset - start)).length =
              start + m.bytes.length := by omega
          rw [firstJson_rest hserde hsplit htake hmore, hnext, hlen, ← Nat.add_assoc,
            aligned_iff hserde hrest, List.length_append]
          constructor
          · rintro ⟨rfl, hall⟩
            refine ⟨?_, ?_⟩
            · have hnone : (stream ([m] : List (QmpLine serde)).dropLast).length = 0 := rfl
              omega
            · have hnone : (stream ([] : List (QmpLine serde))).length = 0 := rfl
              omega
          · rintro ⟨hbegun, hall⟩
            by_cases hms : ms = []
            · subst hms
              have hnone : (stream ([] : List (QmpLine serde))).length = 0 := rfl
              exact ⟨rfl, by omega⟩
            · have := hinit hms
              omega
      · -- the first message is taken
        have hdrop : (m.bytes ++ stream (ms ++ reply :: later)).drop (offset - start) =
            (stream (ms ++ reply :: later)).drop (offset - (start + m.bytes.length)) := by
          rw [List.drop_append, List.drop_eq_nil_of_le (by omega), List.nil_append]
          congr 1
          omega
        rw [hdrop] at h
        rw [hlen, ← Nat.add_assoc]
        by_cases hms : ms = []
        · subst hms
          have hnone : (stream ([] : List (QmpLine serde))).length = 0 := rfl
          have hzero : (stream ([m] : List (QmpLine serde)).dropLast).length = 0 := rfl
          have hend : offset = start + m.bytes.length := by omega
          rw [← hend, Nat.sub_self, List.drop_zero] at h
          rw [← hend, aligned_iff hserde h]
          exact ⟨fun hall => ⟨by omega, by omega⟩, fun hall => ⟨rfl, by omega⟩⟩
        · rw [ih hms (by omega) (by omega) h, hinit hms, Nat.add_assoc, Nat.add_assoc, Nat.add_assoc]

end Pertisk.Vmm
