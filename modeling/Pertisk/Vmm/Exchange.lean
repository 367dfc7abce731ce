import Mathlib.Data.List.DropRight
import Pertisk.Lib.Serde
import Pertisk.Vmm.Replies

namespace Pertisk.Vmm
open Lib

variable {J : Type} {serde : SerdeJson J} {path execute : String}

/-- One connection as the server sees it: the greeting, the reply to the capabilities and the reply to
the command, with events before, between and after; and how the three reads cut it. The reply to the
command is sent when the first two reads are over. -/
structure Exchange (serde : SerdeJson J) where
  hello : QmpLine serde
  before : List (QmpLine serde)
  accepted : QmpLine serde
  between : List (QmpLine serde)
  reply : QmpLine serde
  later : List (QmpLine serde)
  events : ∀ m ∈ before ++ between ++ later, (serde.get m.value "event").isSome = true
  answers : (serde.get reply.value "return").isSome = true ↔ serde.get reply.value "error" = none
  greeting : List Char
  capabilities : List Char
  third : List Char
  read : greeting ++ capabilities ++ third <+:
    stream (hello :: before ++ accepted :: between ++ reply :: later)
  causal : (greeting ++ capabilities).length ≤
    (stream (hello :: before ++ accepted :: between)).length

namespace Exchange

/-- What the server sends before the reply. -/
def earlier (x : Exchange serde) : List (QmpLine serde) :=
  x.hello :: x.before ++ x.accepted :: x.between

def connection (x : Exchange serde) : Connection :=
  ⟨.chunk [], .chunk x.greeting, .chunk x.capabilities, .chunk x.third⟩

/-- The command gets the value of its own reply, read where that reply is. -/
def Own (x : Exchange serde) (path execute : String) : Prop :=
  qmpRoundtrip serde path execute x.connection =
    .ok (some ((stream x.earlier).length, x.reply.value))

def Returned (x : Exchange serde) : Prop := (serde.get x.reply.value "return").isSome = true

/-- The first two reads have taken some of the last message before the reply, and the third one
reaches the end of the reply. -/
def Caught (x : Exchange serde) : Prop :=
  (stream x.earlier.dropLast).length < (x.greeting ++ x.capabilities).length ∧
    (stream x.earlier).length + x.reply.text.length ≤
      (x.greeting ++ x.capabilities).length + x.third.length

theorem roundtrip_eq (x : Exchange serde) (hexecute : execute ≠ "qmp_capabilities") :
    qmpRoundtrip serde path execute x.connection =
      match firstJson serde (lines (x.greeting ++ x.capabilities).length x.third) with
      | some found => .ok (some found)
      | none => .error s!"qmp {execute} returned no json" := by
  rw [List.length_append]
  exact if_neg hexecute

theorem own_iff (hserde : serde.Lawful) (x : Exchange serde)
    (hexecute : execute ≠ "qmp_capabilities") : x.Own path execute ↔ x.Caught := by
  have hpre : x.third <+:
      (stream (x.earlier ++ x.reply :: x.later)).drop ((x.greeting ++ x.capabilities).length - 0) := by
    obtain ⟨t, ht⟩ := x.read
    have ht' : x.greeting ++ x.capabilities ++ x.third ++ t =
        stream (x.earlier ++ x.reply :: x.later) := ht
    rw [← ht', List.append_assoc _ x.third t, Nat.sub_zero, List.drop_left]
    exact List.prefix_append _ _
  have hcausal : (x.greeting ++ x.capabilities).length ≤ 0 + (stream x.earlier).length := by
    rw [Nat.zero_add]
    exact x.causal
  have hne : x.earlier ≠ [] := List.cons_ne_nil _ _
  have hreply := firstJson_reply hserde hne (Nat.zero_le _) hcausal hpre
  rw [Nat.zero_add, Nat.zero_add] at hreply
  unfold Own
  rw [roundtrip_eq x hexecute]
  refine Iff.trans ?_ hreply
  cases firstJson serde (lines (x.greeting ++ x.capabilities).length x.third) with
  | none => exact ⟨fun h => (nomatch h), fun h => (nomatch h)⟩
  | some found => exact ⟨Except.ok.inj, congrArg Except.ok⟩

end Exchange

/-! ### Operations -/

theorem forM_ok {α : Type} {f : α → Except String Unit} {l : List α} :
    l.forM f = .ok () ↔ ∀ x ∈ l, f x = .ok () := by
  induction l with
  | nil => exact ⟨fun _ _ hx => (nomatch hx), fun _ => rfl⟩
  | cons x l ih =>
    rw [List.forall_mem_cons, ← ih]
    change (f x >>= fun _ => l.forM f) = .ok () ↔ _
    cases f x with
    | error err => exact ⟨fun h => (nomatch h), fun h => (nomatch h.1)⟩
    | ok u => exact ⟨fun h => ⟨rfl, h⟩, And.right⟩

theorem Operation.not_capabilities {op : Operation} (h : execute ∈ op.commands) :
    execute ≠ "qmp_capabilities" := by
  rintro rfl
  cases op with
  | mirrorStart devices =>
    obtain ⟨_, _, heq⟩ := List.mem_map.mp h
    exact absurd heq (by decide)
  | completeMirrors devices =>
    obtain ⟨_, _, heq⟩ := List.mem_map.mp h
    exact absurd heq (by decide)
  | nbdServe devices =>
    cases devices with
    | nil => cases h
    | cons device devices =>
      rcases List.mem_cons.mp h with heq | h
      · exact absurd heq (by decide)
      · obtain ⟨_, _, heq⟩ := List.mem_map.mp h
        exact absurd heq (by decide)
  | _ => exact absurd (List.mem_singleton.mp h) (by decide)

variable {x : Exchange serde} {op : Operation}

theorem qmpExecute_own (h : x.Own path execute) : qmpExecute serde path execute x.connection = .ok () := by
  unfold qmpExecute
  rw [h]
  rfl

theorem qmpOk_answered {c : Connection} {id : ℕ} {value : J}
    (h : qmpRoundtrip serde path execute c = .ok (some (id, value))) :
    qmpOk serde path execute c = (match serde.get value "error" with
      | none => (return ())
      | some err =>
        match (serde.get err "desc").bind serde.asStr with
        | some desc => .error s!"qmp {execute}: {desc}"
        | none => .error s!"qmp {execute} failed" : Except String Unit) := by
  unfold qmpOk
  rw [h]
  rfl

/-- A command whose reply is looked at succeeds on a return alone. -/
theorem qmpOk_own (h : x.Own path execute) :
    qmpOk serde path execute x.connection = .ok () ↔ x.Returned := by
  have hanswers := x.answers
  unfold Exchange.Returned
  rw [qmpOk_answered h, hanswers]
  cases serde.get x.reply.value "error" with
  | none => exact ⟨fun _ => rfl, fun _ => rfl⟩
  | some err =>
    refine ⟨fun hok => ?_, fun habs => nomatch habs⟩
    dsimp only at hok
    split at hok
    · cases hok
    · cases hok

theorem ask_own (h : x.Own path execute) : op.ask serde path execute x.connection = .ok () ↔
    (op.checked = true → x.Returned) := by
  unfold Operation.ask
  cases op.checked with
  | true => exact (qmpOk_own h).trans ⟨fun hret _ => hret, fun hret => hret rfl⟩
  | false => exact ⟨fun _ habs => (nomatch habs), fun _ => qmpExecute_own h⟩

/-- The commands of an operation get their own replies, and it reports success on returns alone,
exactly when each reply is caught and, where replies are not looked at, is a return. -/
theorem operation_iff (hserde : serde.Lawful) (op : Operation) (xs : List (Exchange serde))
    (hlen : xs.length = op.commands.length) :
    ((∀ p ∈ op.commands.zip xs, p.2.Own path p.1) ∧
        (op.run serde path (xs.map Exchange.connection) = .ok () → ∀ x ∈ xs, x.Returned)) ↔
      (∀ x ∈ xs, x.Caught) ∧ (op.checked = true ∨ ∀ x ∈ xs, x.Returned) := by
  have hpair (x : Exchange serde) (hx : x ∈ xs) : ∃ execute, (execute, x) ∈ op.commands.zip xs := by
    obtain ⟨n, hn, rfl⟩ := List.mem_iff_getElem.mp hx
    have hboth : n < (op.commands.zip xs).length := by
      rw [List.length_zip]
      omega
    exact ⟨_, List.mem_of_getElem (List.getElem_zip (h := hboth))⟩
  have hown : (∀ p ∈ op.commands.zip xs, p.2.Own path p.1) ↔ ∀ x ∈ xs, x.Caught := by
    constructor
    · intro hall x hx
      obtain ⟨execute, hp⟩ := hpair x hx
      exact (Exchange.own_iff hserde x (Operation.not_capabilities (List.of_mem_zip hp).1)).mp
        (hall _ hp)
    · intro hall p hp
      exact (Exchange.own_iff hserde p.2 (Operation.not_capabilities (List.of_mem_zip hp).1)).mpr
        (hall _ (List.of_mem_zip hp).2)
  rw [← hown]
  refine and_congr_right fun hall => ?_
  have hrun : op.run serde path (xs.map Exchange.connection) = .ok () ↔
      (op.checked = true → ∀ x ∈ xs, x.Returned) := by
    unfold Operation.run
    rw [List.zip_map_right, forM_ok]
    constructor
    · intro hok hchecked x hx
      obtain ⟨execute, hp⟩ := hpair x hx
      exact (ask_own (hall _ hp)).mp (hok _ (List.mem_map_of_mem hp)) hchecked
    · intro hret p hp
      obtain ⟨q, hq, rfl⟩ := List.mem_map.mp hp
      exact (ask_own (hall _ hq)).mpr fun hchecked => hret hchecked _ (List.of_mem_zip hq).2
  rw [hrun]
  cases op.checked with
  | true => exact ⟨fun _ => .inl rfl, fun _ h => h rfl⟩
  | false => exact ⟨fun h => .inr (h fun habs => nomatch habs), fun h _ => h.resolve_left (by decide)⟩

/-! ### A server with four answers -/

def greetingText : List Char := "\x7b\"QMP\": \x7b\x7d\x7d".toList
def returnText : List Char := "\x7b\"return\": \x7b\x7d\x7d".toList
def resumeText : List Char := "\x7b\"event\": \"RESUME\"\x7d".toList
def errorText : List Char := "\x7b\"error\": \x7b\"desc\": \"busy\"\x7d\x7d".toList

def answered : List (List Char × Json) :=
  [(greetingText, .obj [("QMP", .obj [])]), (returnText, .obj [("return", .obj [])]),
    (resumeText, .obj [("event", .str "RESUME")]),
    (errorText, .obj [("error", .obj [("desc", .str "busy")])])]

def answeredJson : SerdeJson Json where
  fromStr text := List.lookup (text.rdropWhile (· == '\r')) answered
  get
    | .obj fields, key => fields.lookup key
    | _, _ => none
  asStr
    | .str text => some text
    | _ => none

theorem answeredJson_lawful : answeredJson.Lawful where
  space text := congrArg (fun line => List.lookup line answered)
    (List.rdropWhile_concat_pos (· == '\r') text '\r' (by decide))
  part text value hreads _ hlast a b hsplit ha hb := by
    have hstrip : text.rdropWhile (· == '\r') = text := by
      rw [List.rdropWhile_eq_self_iff]
      intro hne hcr
      rw [List.getLast?_eq_some_getLast hne] at hlast
      rw [Option.some.inj hlast] at hcr
      exact absurd hcr (by decide)
    have hfound : List.lookup (text.rdropWhile (· == '\r')) answered = some value := hreads
    have hmem : (text, value) ∈ answered := mem_of_lookup (hstrip ▸ hfound)
    have hparts : ∀ p ∈ answered, ∀ n < p.1.length, n ≠ 0 →
        (answeredJson.fromStr (p.1.take n)).isNone = true ∧
          (answeredJson.fromStr (p.1.drop n)).isNone = true := by decide +kernel
    have hpos : a.length ≠ 0 := fun hzero => ha (List.length_eq_zero_iff.mp hzero)
    have hlt : a.length < text.length := by
      have := List.length_pos_iff.mpr hb
      rw [hsplit, List.length_append]
      omega
    have hboth := hparts _ hmem a.length hlt hpos
    dsimp only at hboth
    rw [hsplit, List.take_left, List.drop_left, Option.isNone_iff_eq_none,
      Option.isNone_iff_eq_none] at hboth
    exact hboth

def greetingLine : QmpLine answeredJson where
  text := greetingText
  value := .obj [("QMP", .obj [])]
  reads := by rfl
  head := by decide +kernel
  last := by decide +kernel
  line := by decide +kernel

def returnLine : QmpLine answeredJson where
  text := returnText
  value := .obj [("return", .obj [])]
  reads := by rfl
  head := by decide +kernel
  last := by decide +kernel
  line := by decide +kernel

def resumeLine : QmpLine answeredJson where
  text := resumeText
  value := .obj [("event", .str "RESUME")]
  reads := by rfl
  head := by decide +kernel
  last := by decide +kernel
  line := by decide +kernel

def errorLine : QmpLine answeredJson where
  text := errorText
  value := .obj [("error", .obj [("desc", .str "busy")])]
  reads := by rfl
  head := by decide +kernel
  last := by decide +kernel
  line := by decide +kernel

/-- The command is answered with an error. -/
def refused : Exchange answeredJson where
  hello := greetingLine
  before := []
  accepted := returnLine
  between := []
  reply := errorLine
  later := []
  events _ hm := nomatch hm
  answers := ⟨fun h => absurd h (by decide), fun h => nomatch h⟩
  greeting := greetingLine.bytes
  capabilities := returnLine.bytes
  third := errorLine.bytes
  read := ⟨[], by decide +kernel⟩
  causal := by decide +kernel

/-- The guest goes on before the reply is sent. -/
def resumed : Exchange answeredJson where
  hello := greetingLine
  before := []
  accepted := returnLine
  between := [resumeLine]
  reply := returnLine
  later := []
  events m hm := by
    obtain rfl := List.mem_singleton.mp hm
    rfl
  answers := ⟨fun _ => rfl, fun _ => rfl⟩
  greeting := greetingLine.bytes
  capabilities := returnLine.bytes
  third := resumeLine.bytes ++ returnLine.bytes
  read := ⟨[], by decide +kernel⟩
  causal := by decide +kernel

theorem operation_iff_restart :
    ((∀ p ∈ Operation.restart.commands.zip [resumed], p.2.Own "vm.sock" p.1) ∧
        (Operation.restart.run answeredJson "vm.sock" [resumed.connection] = .ok () →
          ∀ x ∈ [resumed], x.Returned)) ↔
      (∀ x ∈ [resumed], x.Caught) ∧ (Operation.restart.checked = true ∨ ∀ x ∈ [resumed], x.Returned) :=
  operation_iff answeredJson_lawful .restart [resumed] rfl

/-- A start that the hypervisor refuses is taken for one that succeeded, and an event that comes
before the reply is taken for it. -/
theorem start_refused : Operation.start.run answeredJson "vm.sock" [refused.connection] = .ok () ∧
    ¬refused.Returned ∧ ¬resumed.Own "vm.sock" "cont" := by
  have hown : refused.Own "vm.sock" "cont" :=
    (Exchange.own_iff answeredJson_lawful refused (by decide)).mpr
      ⟨by decide +kernel, by decide +kernel⟩
  refine ⟨?_, by unfold Exchange.Returned; decide, fun hevent => ?_⟩
  · refine forM_ok.mpr fun p hp => ?_
    obtain rfl := List.mem_singleton.mp hp
    have hask : Operation.start.ask answeredJson "vm.sock" "cont" refused.connection = .ok () :=
      ask_own hown |>.mpr fun habs => nomatch habs
    exact hask
  · have hbegun := ((Exchange.own_iff answeredJson_lawful resumed (by decide)).mp hevent).1
    exact absurd hbegun (by decide +kernel)

end Pertisk.Vmm
