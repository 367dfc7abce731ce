import Pertisk.Vmm.Resync

namespace Pertisk.Vmm.Qga
open Lib PeerUrl

variable {J : Type} {serde : AgentJson J}

/-- The bytes that the reads bring. -/
def received (reads : List Read) : List UInt8 :=
  reads.flatMap fun
    | .bytes chunk => chunk
    | _ => []

/-- A connection as the agent sees it: the stale replies that wait in the channel, and its replies to
`guest-sync` and to the command, which it sends when the first message is read. -/
structure Session (serde : AgentJson J) where
  backlog : List (Reply serde)
  sync : Reply serde
  reply : Reply serde
  socket : Socket
  chunks : ∀ chunk, Read.bytes chunk ∈ socket.reads → chunk ≠ [] ∧ chunk.length ≤ 1024
  arrives : received socket.reads <+: stream (backlog ++ [sync, reply])
  causal : ∀ w rest, fill [] socket.reads = .ok (w, rest) →
    w.length ≤ (stream (backlog ++ [sync])).length

namespace Session

/-- What stands first in the channel. -/
def first (s : Session serde) : Reply serde := s.backlog.head?.getD s.sync

/-- The command fails, or it gives what its own reply says. -/
def Matched (s : Session serde) : Prop :=
  (∃ err, qgaCommandTimeout serde s.socket = .error err) ∨
    qgaCommandTimeout serde s.socket = answer serde s.reply.value

/-- Taken for the reply, `value` does no harm: it is an error, or says the same. -/
def Agrees (s : Session serde) (value : J) : Prop :=
  (∃ err, answer serde value = .error err) ∨ answer serde value = answer serde s.reply.value

/-- When the first message takes the first reply whole, what the second one comes upon agrees. -/
def InStep (s : Session serde) : Prop :=
  ∀ w rest w' rest', s.socket.opened = .ok () → s.socket.syncSent = .ok () →
    fill [] s.socket.reads = .ok (w, rest) → s.first.bytes.length ≤ w.length →
    s.socket.bodySent = .ok () → fill [] rest = .ok (w', rest') →
    ∀ value, comesUpon w.length (w.length + w'.length) 0 (s.backlog ++ [s.sync, s.reply]) =
      some value → s.Agrees value

end Session

/-! ### The two messages -/

theorem fill_received {buf out : List UInt8} {reads rest : List Read}
    (h : fill buf reads = .ok (out, rest)) : buf ++ received reads = out ++ received rest := by
  induction reads generalizing buf with
  | nil =>
    obtain ⟨rfl, rfl⟩ := Prod.mk.inj (Except.ok.inj h)
    rfl
  | cons read reads ih =>
    cases read with
    | bytes chunk =>
      have hbytes : received (.bytes chunk :: reads) = chunk ++ received reads := rfl
      rw [hbytes, ← List.append_assoc]
      rw [fill] at h
      split_ifs at h
      · obtain ⟨rfl, rfl⟩ := Prod.mk.inj (Except.ok.inj h)
        rfl
      · obtain ⟨rfl, rfl⟩ := Prod.mk.inj (Except.ok.inj h)
        rfl
      · exact ih h
    | eof =>
      obtain ⟨rfl, rfl⟩ := Prod.mk.inj (Except.ok.inj h)
      rfl
    | timedOut =>
      obtain ⟨rfl, rfl⟩ := Prod.mk.inj (Except.ok.inj h)
      rfl
    | failed err => cases h

namespace Session

variable {s : Session serde} {w w' : List UInt8} {rest rest' : List Read}

theorem first_cons (s : Session serde) :
    ∃ ms, s.backlog ++ [s.sync, s.reply] = s.first :: ms := by
  unfold first
  cases s.backlog with
  | nil => exact ⟨[s.reply], rfl⟩
  | cons m ms => exact ⟨ms ++ [s.sync, s.reply], rfl⟩

/-- Where the two messages stand in the stream. -/
theorem windows (hw : fill [] s.socket.reads = .ok (w, rest)) (hw' : fill [] rest = .ok (w', rest')) :
    w <+: stream (s.backlog ++ [s.sync, s.reply]) ∧
      w' <+: (stream (s.backlog ++ [s.sync, s.reply])).drop w.length := by
  have hfirst := fill_received hw
  have hsecond := fill_received hw'
  rw [List.nil_append] at hfirst hsecond
  obtain ⟨t, ht⟩ := s.arrives
  rw [hfirst, hsecond] at ht
  refine ⟨⟨_, (List.append_assoc _ _ _).symm.trans ht⟩, received rest' ++ t, ?_⟩
  rw [← ht, List.append_assoc, List.drop_left, List.append_assoc]

/-- The first message is JSON when it has the first reply whole. -/
theorem heard_first (hserde : serde.Framed) (h : w <+: stream (s.backlog ++ [s.sync, s.reply])) :
    heard serde w = if s.first.bytes.length ≤ w.length then some s.first.value else none := by
  obtain ⟨ms, hms⟩ := s.first_cons
  rw [heard_eq hserde (Nat.zero_le 0) h, hms, comesUpon]
  by_cases hlong : s.first.bytes.length ≤ w.length
  · rw [if_pos (by omega), if_pos hlong]
  · rw [if_neg (by omega), if_neg (by omega), if_neg hlong]
    exact comesUpon_before (by omega) (by omega)

theorem heard_second (hserde : serde.Framed)
    (h : w' <+: (stream (s.backlog ++ [s.sync, s.reply])).drop w.length) :
    heard serde w' =
      comesUpon w.length (w.length + w'.length) 0 (s.backlog ++ [s.sync, s.reply]) :=
  heard_eq hserde (Nat.zero_le _) h

end Session

theorem bind_ok {α β : Type} {x : Except String α} {f : α → Except String β} {y : β}
    (h : (x >>= f) = .ok y) : ∃ a, x = .ok a ∧ f a = .ok y := by
  cases x with
  | error err => cases h
  | ok a => exact ⟨a, rfl, h⟩

theorem readMsg_eq (reads : List Read) : readMsg serde reads =
    match fill [] reads with
    | .error err => .error err
    | .ok (w, rest) =>
      match heard serde w with
      | some value => .ok (value, rest)
      | none => .error (serde.parseError (trim (Utf8.lossy w))) := by
  unfold readMsg
  cases fill [] reads with
  | error err => rfl
  | ok p =>
    obtain ⟨w, rest⟩ := p
    change (parseMsg serde w >>= fun value => pure (value, rest)) = _
    rw [parseMsg_eq]
    dsimp only
    cases heard serde w with
    | some value => rfl
    | none => rfl

theorem readMsg_ok {reads rest : List Read} {value : J}
    (h : readMsg serde reads = .ok (value, rest)) :
    ∃ w, fill [] reads = .ok (w, rest) ∧ heard serde w = some value := by
  rw [readMsg_eq] at h
  cases hfill : fill [] reads with
  | error err =>
    rw [hfill] at h
    cases h
  | ok p =>
    obtain ⟨w, t⟩ := p
    rw [hfill] at h
    dsimp only at h
    cases hheard : heard serde w with
    | none =>
      rw [hheard] at h
      cases h
    | some v =>
      rw [hheard] at h
      obtain ⟨rfl, rfl⟩ := Prod.mk.inj (Except.ok.inj h)
      exact ⟨w, rfl, hheard⟩

/-- A command that is answered has come through all its steps. -/
theorem command_ok {socket : Socket} {value : J}
    (h : qgaCommandTimeout serde socket = .ok value) :
    ∃ w rest sync w' rest', socket.opened = .ok () ∧ socket.syncSent = .ok () ∧
      fill [] socket.reads = .ok (w, rest) ∧ heard serde w = some sync ∧
      socket.bodySent = .ok () ∧ fill [] rest = .ok (w', rest') := by
  obtain ⟨_, hopened, h⟩ := bind_ok h
  obtain ⟨_, hsync, h⟩ := bind_ok h
  obtain ⟨⟨sync, rest⟩, hread, h⟩ := bind_ok h
  obtain ⟨_, hbody, h⟩ := bind_ok h
  obtain ⟨⟨_, rest'⟩, hnext, -⟩ := bind_ok h
  obtain ⟨w, hw, hfirst⟩ := readMsg_ok hread
  obtain ⟨w', hw', -⟩ := readMsg_ok hnext
  exact ⟨w, rest, sync, w', rest', hopened, hsync, hw, hfirst, hbody, hw'⟩

namespace Session

variable {s : Session serde}

/-- Where the second message is heard, its value is what the command is answered with. -/
theorem command_eq {w w' : List UInt8} {rest rest' : List Read} {sync : J}
    (hopened : s.socket.opened = .ok ()) (hsync : s.socket.syncSent = .ok ())
    (hw : fill [] s.socket.reads = .ok (w, rest)) (hfirst : heard serde w = some sync)
    (hbody : s.socket.bodySent = .ok ()) (hw' : fill [] rest = .ok (w', rest')) :
    qgaCommandTimeout serde s.socket =
      match heard serde w' with
      | some value => answer serde value
      | none => .error (serde.parseError (trim (Utf8.lossy w'))) := by
  have hread : readMsg serde s.socket.reads = .ok (sync, rest) := by
    rw [readMsg_eq, hw]
    dsimp only
    rw [hfirst]
  have hnext : readMsg serde rest = _ := readMsg_eq rest
  rw [hw'] at hnext
  unfold qgaCommandTimeout
  rw [hopened, hsync, hread, hbody]
  change (readMsg serde rest >>= fun p => answer serde p.1) = _
  rw [hnext]
  dsimp only
  cases heard serde w' with
  | some value => rfl
  | none => rfl

/-- The command gets its own reply or fails exactly when its second message is in step. -/
theorem matched_iff (hserde : serde.Framed) (s : Session serde) : s.Matched ↔ s.InStep := by
  by_cases hstep : ∃ w rest sync w' rest', s.socket.opened = .ok () ∧ s.socket.syncSent = .ok () ∧
      fill [] s.socket.reads = .ok (w, rest) ∧ heard serde w = some sync ∧
      s.socket.bodySent = .ok () ∧ fill [] rest = .ok (w', rest')
  · obtain ⟨w, rest, sync, w', rest', hopened, hsync, hw, hfirst, hbody, hw'⟩ := hstep
    obtain ⟨hpre, hpre'⟩ := windows hw hw'
    have hcommand := command_eq hopened hsync hw hfirst hbody hw'
    have hlong : s.first.bytes.length ≤ w.length := by
      by_contra hshort
      rw [heard_first hserde hpre, if_neg hshort] at hfirst
      cases hfirst
    unfold Matched
    rw [hcommand, heard_second hserde hpre']
    constructor
    · intro hmatched v t v' t' _ _ hv _ _ hv' value hvalue
      obtain ⟨rfl, rfl⟩ := Prod.mk.inj (Except.ok.inj (hw.symm.trans hv))
      obtain ⟨rfl, rfl⟩ := Prod.mk.inj (Except.ok.inj (hw'.symm.trans hv'))
      rw [hvalue] at hmatched
      exact hmatched
    · intro hin
      have hall := hin w rest w' rest' hopened hsync hw hlong hbody hw'
      cases hupon : comesUpon w.length (w.length + w'.length) 0
          (s.backlog ++ [s.sync, s.reply]) with
      | none => exact .inl ⟨_, rfl⟩
      | some value => exact hall value hupon
  · refine iff_of_true (.inl ?_) ?_
    · cases hcommand : qgaCommandTimeout serde s.socket with
      | error err => exact ⟨err, rfl⟩
      | ok value => exact absurd (command_ok hcommand) hstep
    · intro w rest w' rest' hopened hsync hw hlong hbody hw' value _
      refine absurd ⟨w, rest, s.first.value, w', rest', hopened, hsync, hw, ?_, hbody, hw'⟩ hstep
      rw [heard_first hserde (windows hw hw').1, if_pos hlong]

/-- Where nothing stale waits, the command is matched however the replies are cut. -/
theorem matched_of_quiet (hserde : serde.Framed) (h : s.backlog = []) : s.Matched := by
  refine (matched_iff hserde s).mpr fun w rest w' rest' _ _ hw hlong _ _ value hvalue => ?_
  have hcausal := s.causal w rest hw
  have hfirst : s.first = s.sync := by
    unfold first
    rw [h]
    rfl
  rw [hfirst] at hlong
  have hlen : (stream (s.backlog ++ [s.sync])).length = s.sync.bytes.length + 1 := by
    rw [h, List.nil_append, stream_cons, List.length_append]
    rfl
  have hpos := s.sync.length_pos
  rw [h, List.nil_append, comesUpon, if_neg (by omega), if_neg (by omega), comesUpon] at hvalue
  split at hvalue
  · obtain rfl := Option.some.inj hvalue
    exact .inr rfl
  · rw [if_neg (by omega)] at hvalue
    cases hvalue

end Session

/-! ### An agent with three replies -/

def staleText : List Char := "\x7b\"return\": 7\x7d".toList
def syncText : List Char := "\x7b\"return\": 1\x7d".toList
def frozenText : List Char := "\x7b\"return\": 2\x7d".toList

def spoken : List (List Char × Json) :=
  [(staleText, .obj [("return", .num 7)]), (syncText, .obj [("return", .num 1)]),
    (frozenText, .obj [("return", .num 2)])]

def agentJson : AgentJson Json where
  fromStr text := if text.contains '\n' then none else spoken.lookup text
  get
    | .obj fields, key => fields.lookup key
    | _, _ => none
  asStr
    | .str text => some text
    | _ => none
  null := .null
  toText _ := "error"
  parseError _ := "expected value"

/-- Behind a line that is not blank, a line break is either kept by trimming or all there is. -/
theorem trim_break {x : List Char} (y : List Char) {c : Char} (hc : c ∈ x)
    (hspace : isWhiteSpace c = false) :
    '\n' ∈ trim (x ++ '\n' :: y) ∨ trim (x ++ '\n' :: y) = trim x := by
  obtain ⟨u, v, hs, hu, hv, hfirst, hlast⟩ :=
    Volume.trimMatches_split isWhiteSpace (x ++ '\n' :: y)
  change x ++ '\n' :: y = u ++ trim (x ++ '\n' :: y) ++ v at hs
  rw [List.append_assoc] at hs
  rcases List.append_eq_append_iff.mp hs with ⟨k, rfl, -⟩ | ⟨k, hx, hk⟩
  · have hblank := hu c (List.mem_append_left k hc)
    rw [hspace] at hblank
    cases hblank
  · rcases List.append_eq_append_iff.mp hk with ⟨l, rfl, hl⟩ | ⟨l, ht, hl⟩
    · right
      have hback : ∀ d ∈ l, isWhiteSpace d = true := by
        intro d hd
        exact hv d (hl ▸ List.mem_append_left _ hd)
      have htrim := Volume.trimMatches_of_ends hu hfirst hlast hback
      rw [List.append_assoc] at htrim
      exact htrim.symm.trans (congrArg trim hx.symm)
    · cases l with
      | nil =>
        right
        rw [List.append_nil] at ht
        have htrim := Volume.trimMatches_of_ends (v := []) hu hfirst hlast nofun
        rw [List.append_nil] at htrim
        exact htrim.symm.trans (congrArg trim (hx.trans (congrArg (u ++ ·) ht.symm)).symm)
      | cons d l =>
        obtain ⟨rfl, -⟩ := List.cons.inj hl
        left
        rw [ht]
        exact List.mem_append_right _ List.mem_cons_self

def asciiBytes (text : List Char) : List UInt8 := text.map (fun c => UInt8.ofNat c.toNat)

theorem asciiBytes_ofNat (a : List UInt8) :
    asciiBytes (a.map (fun y => Char.ofNat y.toNat)) = a := by
  have hbyte (y : UInt8) : UInt8.ofNat (Char.ofNat y.toNat).toNat = y := by
    have hlt : y.toNat < 256 := y.toNat_lt
    have hchar : (Char.ofNat y.toNat).toNat = y.toNat := by
      rw [Char.ofNat, dif_pos (Or.inl (by omega))]
      rfl
    rw [hchar, UInt8.ofNat_toNat]
  rw [asciiBytes, List.map_map]
  exact (List.map_congr_left fun y _ => hbyte y).trans (List.map_id' a)

/-- The replies that are known are the ones spoken, byte for byte. -/
theorem reply_spoken (m : Reply agentJson) : ∃ p ∈ spoken, m.bytes = asciiBytes p.1 := by
  have hreads : agentJson.fromStr (trim (Utf8.lossy m.bytes)) = some m.value := m.reads
  have htrim : trim (Utf8.lossy m.bytes) = Utf8.lossy m.bytes := by
    refine trim_eq_self ?_ ?_
    · obtain ⟨rest, hrest⟩ := List.head?_eq_some_iff.mp m.first
      have := Utf8.lossy_ascii (a := []) (b := rest) (x := 0x7B) (by decide)
      rw [List.nil_append] at this
      rw [hrest, this]
      intro c hc
      obtain rfl := Option.some.inj hc
      rfl
    · obtain ⟨init, hinit⟩ := List.getLast?_eq_some_iff.mp m.last
      rw [hinit, Utf8.lossy_ascii (by decide)]
      intro c hc
      rw [List.getLast?_append] at hc
      obtain rfl := Option.some.inj hc
      rfl
  rw [htrim] at hreads
  have hlookup : List.lookup (Utf8.lossy m.bytes) spoken = some m.value := by
    change (if (Utf8.lossy m.bytes).contains '\n' then none else _) = _ at hreads
    split at hreads
    · cases hreads
    · exact hreads
  have hmem := mem_of_lookup hlookup
  have hall : ∀ p ∈ spoken, p.1.all (fun c => decide (0 < c.toNat ∧ c.toNat < 0x80)) = true := by
    decide +kernel
  refine ⟨_, hmem, ?_⟩
  rw [← Utf8.bytes_of_ascii (forall_of_all (hall _ hmem)), asciiBytes_ofNat]

theorem agentJson_parts : ∀ p ∈ spoken, ∀ n < (asciiBytes p.1).length,
    (parsed agentJson ((asciiBytes p.1).take n)).isNone = true ∧
      (n ≠ 0 → (parsed agentJson ((asciiBytes p.1).drop n)).isNone = true) := by decide +kernel

theorem agentJson_framed : agentJson.Framed where
  empty := rfl
  start m a b hsplit hb := by
    obtain ⟨p, hp, htext⟩ := reply_spoken m
    have hlen : a.length < (asciiBytes p.1).length := by
      have := List.length_pos_iff.mpr hb
      rw [← htext, hsplit, List.length_append]
      omega
    have hnone := (agentJson_parts p hp a.length hlen).1
    rw [← htext, hsplit, List.take_left, Option.isNone_iff_eq_none] at hnone
    exact hnone
  rest m a b hsplit ha hb := by
    obtain ⟨p, hp, htext⟩ := reply_spoken m
    have hlen : a.length < (asciiBytes p.1).length := by
      have := List.length_pos_iff.mpr hb
      rw [← htext, hsplit, List.length_append]
      omega
    have hnone := (agentJson_parts p hp a.length hlen).2 (by simpa using ha)
    rw [← htext, hsplit, List.drop_left, Option.isNone_iff_eq_none] at hnone
    refine ⟨hnone, fun more => ?_⟩
    have hbrace : '}' ∈ Utf8.lossy b := by
      have hlast := m.last
      rw [hsplit, List.getLast?_append_of_ne_nil _ hb] at hlast
      obtain ⟨init, rfl⟩ := List.getLast?_eq_some_iff.mp hlast
      rw [Utf8.lossy_ascii (by decide)]
      exact List.mem_append_right _ List.mem_cons_self
    unfold parsed
    rw [lossy_newline]
    rcases trim_break (Utf8.lossy more) hbrace (by decide) with hmem | hsame
    · exact if_pos (List.elem_eq_true_of_mem hmem)
    · rw [hsame]
      exact hnone

def agentReply (text : List Char) (value : Json)
    (reads : parsed agentJson (asciiBytes text) = some value)
    (ends : (asciiBytes text).head? = some 0x7B ∧ (asciiBytes text).getLast? = some 0x7D ∧
      10 ∉ asciiBytes text) : Reply agentJson where
  bytes := asciiBytes text
  value := value
  reads := reads
  first := ends.1
  last := ends.2.1
  line := ends.2.2

def stale : Reply agentJson :=
  agentReply staleText (.obj [("return", .num 7)]) (by rfl) (by decide +kernel)

def synced : Reply agentJson :=
  agentReply syncText (.obj [("return", .num 1)]) (by rfl) (by decide +kernel)

def frozen : Reply agentJson :=
  agentReply frozenText (.obj [("return", .num 2)]) (by rfl) (by decide +kernel)

def agentSocket (reads : List Read) : Socket := ⟨.ok (), .ok (), .ok (), reads⟩

/-- A reply that came too late waits, and every message is read by itself. -/
def waiting : Session agentJson where
  backlog := [stale]
  sync := synced
  reply := frozen
  socket := agentSocket [.bytes (stream [stale]), .bytes (stream [synced]),
    .bytes (stream [frozen])]
  chunks chunk h := by
    simp only [agentSocket, List.mem_cons, Read.bytes.injEq, List.not_mem_nil, or_false] at h
    rcases h with rfl | rfl | rfl
    · decide +kernel
    · decide +kernel
    · decide +kernel
  arrives := ⟨[], by decide +kernel⟩
  causal w rest h := by
    obtain ⟨rfl, -⟩ := Prod.mk.inj (Except.ok.inj h)
    decide +kernel

/-- The reply to `guest-sync` is taken for the command's. -/
theorem stale_reply : ¬ ∀ s : Session agentJson, s.Matched := by
  intro h
  have hcommand : qgaCommandTimeout agentJson waiting.socket = .ok (.num 1) := by rfl
  rcases h waiting with ⟨err, herr⟩ | hown
  · rw [hcommand] at herr
    cases herr
  · rw [hcommand] at hown
    cases hown

theorem matched_iff_waiting : waiting.Matched ↔ waiting.InStep :=
  Session.matched_iff agentJson_framed waiting

end Pertisk.Vmm.Qga
