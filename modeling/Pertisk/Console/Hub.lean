import Pertisk.Lib.Broadcast
import Pertisk.Lib.Image
import Pertisk.Lib.Run
import Pertisk.Lib.Utf8

namespace Pertisk.Console
open Lib

/-- A part of a guest's serial log; the text as its characters. -/
structure SerialChunk where
  offset : ℕ
  next : ℕ
  text : List Char
  deriving DecidableEq, Repr

/-- A log that is there and cannot be read is taken as an empty one. -/
def consoleSerial (serialLog : Option (List UInt8)) (offset max : ℕ) : SerialChunk :=
  match serialLog with
  | none => { offset := offset, next := offset, text := [] }
  | some bytes =>
    let start := min offset bytes.length
    let stop := min (start + min max (64 * 1024)) bytes.length
    { offset := offset
      next := offset + (stop - start)
      text := Utf8.lossy (slice bytes start (stop - start)) }

/-- The guest has written more, and so many bytes are asked for. -/
structure Poll where
  grown : List UInt8
  max : ℕ

def grownLog (log : List UInt8) (polls : List Poll) : List UInt8 :=
  log ++ polls.flatMap Poll.grown

/-- Each poll passes back the offset that the one before it returned. -/
def polled (log : List UInt8) (offset : ℕ) : List Poll → List SerialChunk
  | [] => []
  | p :: polls =>
    let chunk := consoleSerial (some (log ++ p.grown)) offset p.max
    chunk :: polled (log ++ p.grown) chunk.next polls

/-- The offset after the last poll. -/
def reached (offset : ℕ) (chunks : List SerialChunk) : ℕ :=
  (chunks.getLast?.map (fun chunk => chunk.next)).getD offset

/-- How many bytes are between an offset and where a poll's limit or the log ends. -/
def readable (log : List UInt8) (offset max : ℕ) : ℕ :=
  min (min max (64 * 1024)) (log.length - offset)

/-- The parts into which the limits and the ends cut the log. -/
def parts (log : List UInt8) (offset : ℕ) : List Poll → List (List UInt8)
  | [] => []
  | p :: polls =>
    let n := readable (log ++ p.grown) offset p.max
    slice (log ++ p.grown) offset n :: parts (log ++ p.grown) (offset + n) polls

variable {log : List UInt8} {offset max : ℕ}

theorem consoleSerial_eq : consoleSerial (some log) offset max =
    { offset := offset
      next := offset + readable log offset max
      text := Utf8.lossy (slice log offset (readable log offset max)) } := by
  unfold consoleSerial readable
  dsimp only
  by_cases h : offset ≤ log.length
  · have hn : min (offset + min max (64 * 1024)) log.length - offset =
        min (min max (64 * 1024)) (log.length - offset) := by omega
    rw [Nat.min_eq_left h, hn]
  · have hn : min (log.length + min max (64 * 1024)) log.length - log.length =
        min (min max (64 * 1024)) (log.length - offset) := by omega
    have hzero : min (min max (64 * 1024)) (log.length - offset) = 0 := by omega
    rw [Nat.min_eq_right (Nat.le_of_not_le h), hn, hzero]
    rfl

theorem texts_eq (polls : List Poll) : (polled log offset polls).flatMap (fun chunk => chunk.text) =
    (parts log offset polls).flatMap Utf8.lossy := by
  induction polls generalizing log offset with
  | nil => rfl
  | cons p polls ih =>
    unfold polled parts
    rw [consoleSerial_eq, List.flatMap_cons, List.flatMap_cons, ih]

theorem reached_cons (chunk : SerialChunk) (chunks : List SerialChunk) :
    reached offset (chunk :: chunks) = reached chunk.next chunks := by
  unfold reached
  rw [List.getLast?_cons]
  cases chunks.getLast? with
  | none => rfl
  | some last => rfl

/-- What comes between an offset and an end that the log has already does not change. -/
theorem slice_grown (more : List UInt8) : slice (log ++ more) offset (readable log offset max) =
    slice log offset (readable log offset max) := by
  unfold slice readable
  by_cases h : offset ≤ log.length
  · rw [List.drop_append_of_le_length h, List.take_append_of_le_length]
    rw [List.length_drop]
    omega
  · have hzero : min (min max (64 * 1024)) (log.length - offset) = 0 := by omega
    rw [hzero, List.take_zero, List.take_zero]

/-- The parts follow each other without a gap, up to the offset that is reached. -/
theorem parts_flatten (polls : List Poll) : offset ≤ reached offset (polled log offset polls) ∧
    (parts log offset polls).flatten =
      slice (grownLog log polls) offset (reached offset (polled log offset polls) - offset) := by
  induction polls generalizing log offset with
  | nil =>
    refine ⟨Nat.le_refl _, ?_⟩
    unfold slice
    simp [parts, polled, reached]
  | cons p polls ih =>
    obtain ⟨hle, hflat⟩ := @ih (log ++ p.grown)
      (offset + readable (log ++ p.grown) offset p.max)
    have hlog : grownLog log (p :: polls) = grownLog (log ++ p.grown) polls := by
      unfold grownLog
      rw [List.flatMap_cons, List.append_assoc]
    unfold polled parts
    rw [reached_cons, consoleSerial_eq, List.flatten_cons, hflat, hlog]
    dsimp only
    set n := readable (log ++ p.grown) offset p.max
    set last := reached (offset + n) (polled (log ++ p.grown) (offset + n) polls)
    refine ⟨by omega, ?_⟩
    have hpart :
        slice (log ++ p.grown) offset n = slice (grownLog (log ++ p.grown) polls) offset n :=
      (slice_grown _).symm
    have hsum : last - offset = n + (last - (offset + n)) := by omega
    rw [hpart, hsum]
    unfold slice
    rw [List.take_add, List.drop_drop]

/-- The texts of the polls are that of the log from the first offset to the last exactly when no
part ends within a character that the log goes on with. -/
theorem polled_lossless_iff (log : List UInt8) (offset : ℕ) (polls : List Poll) :
    (polled log offset polls).flatMap (fun chunk => chunk.text) =
        Utf8.lossy (slice (grownLog log polls) offset
          (reached offset (polled log offset polls) - offset)) ↔
      Utf8.CutWell (parts log offset polls) := by
  rw [texts_eq, ← (parts_flatten polls).2]
  exact Utf8.lossy_flatten_iff _

/-- Two bytes of one character come with two polls. -/
theorem polled_cut : ¬ ∀ (log : List UInt8) (offset : ℕ) (polls : List Poll),
    (polled log offset polls).flatMap (fun chunk => chunk.text) =
      Utf8.lossy (slice (grownLog log polls) offset
        (reached offset (polled log offset polls) - offset)) := by
  intro hall
  have hcut := hall [0xC3, 0xA9] 0 [⟨[], 1⟩, ⟨[], 8192⟩]
  exact absurd hcut (by decide)

/-! ### The hub -/

/-- How many chunks a session's channel keeps for those that watch it. -/
def capacity : ℕ := 256

/-- How much of the log `console_ws` sends before the live output. -/
def tail : ℕ := 48 * 1024

/-- What the task of a session does; a file is followed from where it ended when that began. -/
inductive Pump
  | starting
  | unixPump
  | filePump (pos : ℕ)
  deriving DecidableEq, Repr

/-- A console session. `start` is the length of the serial log when its pump began, `stream` what
the guest has written to the socket and the pump has not read, `given` what the guest was given. -/
structure Session where
  hasSocket : Bool
  pump : Pump
  alive : Bool
  start : ℕ
  stream : List UInt8
  given : List UInt8
  input : List (List UInt8)
  out : List (List UInt8)
  deriving DecidableEq, Repr

def Session.new (hasSocket : Bool) : Session :=
  { hasSocket, pump := .starting, alive := true, start := 0, stream := [], given := [], input := [],
    out := [] }

/-- What happens next to a session: its pump begins, with the socket or with the file; the guest
writes; the pump reads so many bytes, of which so many get into the log, or finds the socket closed;
it looks at the file; it takes the next input, which may fail. -/
inductive Turn
  | begins (connected : Bool)
  | output (bytes : List UInt8)
  | read (n kept : ℕ)
  | closed
  | poll (ok : Bool)
  | input (ok : Bool)
  deriving DecidableEq, Repr

/-- The session and the serial log afterwards. -/
def Session.turn (s : Session) (log : List UInt8) (t : Turn) : Option (Session × List UInt8) :=
  if s.alive then
    match s.pump, t with
    | .starting, .begins true =>
      if s.hasSocket then some ({ s with pump := .unixPump, start := log.length }, log) else none
    | .starting, .begins false =>
      some ({ s with pump := .filePump log.length, start := log.length }, log)
    | .unixPump, .output bytes => some ({ s with stream := s.stream ++ bytes }, log)
    | .unixPump, .read n kept =>
      let chunk := s.stream.take (min n 4096)
      if chunk = [] then none
      else some ({ s with stream := s.stream.drop (min n 4096), out := s.out ++ [chunk] },
        log ++ chunk.take kept)
    | .unixPump, .closed => some ({ s with alive := false }, log)
    | .unixPump, .input ok =>
      match s.input with
      | [] => none
      | bytes :: rest =>
        if ok then some ({ s with input := rest, given := s.given ++ bytes }, log)
        else some ({ s with input := rest, alive := false }, log)
    | .filePump pos, .poll ok =>
      let chunk := if ok then log.drop pos else []
      some ({ s with
        pump := .filePump (pos + chunk.length)
        out := if chunk = [] then s.out else s.out ++ [chunk] }, log)
    | .filePump _, .input ok =>
      match s.input with
      | [] => none
      | bytes :: rest => some ({ s with input := rest }, if ok then log ++ bytes else log)
    | _, _ => none
  else none

/-- One that watches the console, and the texts that it was sent. -/
structure Viewer where
  backlog : SerialChunk
  session : ℕ
  rx : Receiver
  messages : List (List Char)
  deriving DecidableEq, Repr

/-- How far `console_ws` is for a client. -/
inductive Client
  | looked (size : ℕ)
  | fetched (backlog : SerialChunk)
  | attached (backlog : SerialChunk)
  | live (v : Viewer)
  | gone
  deriving DecidableEq, Repr

/-- One guest's console: its serial log, the sessions that were made for it and which of them the
hub has, and the clients. -/
structure Hub where
  log : List UInt8
  sessions : List Session
  current : Option ℕ
  clients : List Client
  deriving DecidableEq, Repr

inductive Action
  | ensure (socket : Bool)
  | dropVm
  | turn (k : ℕ) (t : Turn)
  /-- Nobody is left that could send input to the session. -/
  | hungUp (k : ℕ)
  /-- The hypervisor writes the log. -/
  | append (bytes : List UInt8)
  | write (bytes : List UInt8)
  | look
  | fetch (c : ℕ)
  | attach (c : ℕ) (socket : Bool)
  | subscribe (c : ℕ)
  | recv (c : ℕ)
  | type (c : ℕ) (bytes : List UInt8)
  | leave (c : ℕ)
  deriving DecidableEq, Repr

namespace Hub

/-- A hub that has not heard of the guest. -/
def new (log : List UInt8) : Hub := { log, sessions := [], current := none, clients := [] }

def set (h : Hub) (k : ℕ) (s : Session) : Hub := { h with sessions := h.sessions.set k s }

def become (h : Hub) (c : ℕ) (client : Client) : Hub :=
  { h with clients := h.clients.set c client }

/-- A session of the same kind is kept, also one whose task has ended. -/
def ensure (h : Hub) (socket : Bool) : Hub :=
  if (h.current.bind (fun k => h.sessions[k]?)).any (fun s => s.hasSocket == socket) then h
  else { h with
    sessions := h.sessions ++ [Session.new socket]
    current := some h.sessions.length }

/-- Input is taken for as long as the session's task is there. -/
def send (h : Hub) (k : ℕ) (bytes : List UInt8) : Option Hub :=
  match h.sessions[k]? with
  | some s => if s.alive then some (h.set k { s with input := s.input ++ [bytes] }) else none
  | none => none

/-- Whether a client has an end of the session's channels. -/
def watches (k : ℕ) : Client → Bool
  | .live v => v.session == k
  | _ => false

/-- `console_ws` and `proxy_console`, one step of one client. -/
def serve (h : Hub) (c : ℕ) (a : Action) : Option Hub :=
  match h.clients[c]?, a with
  | some (.looked size), .fetch _ =>
    some (h.become c (.fetched (consoleSerial (some h.log) (size - tail) tail)))
  | some (.fetched backlog), .attach _ socket =>
    some ((h.ensure socket).become c (.attached backlog))
  | some (.attached backlog), .subscribe _ =>
    match h.current.bind (fun k => h.sessions[k]?.map (fun s => (k, s))) with
    | none => some (h.become c .gone)
    | some (k, s) => some (h.become c (.live
        { backlog
          session := k
          rx := Receiver.joined s.out
          messages := if backlog.text = [] then [] else [backlog.text] }))
  | some (.live v), .recv _ =>
    match h.sessions[v.session]? with
    | none => none
    | some s =>
      match v.rx.recv capacity s.out with
      | (.message chunk, rx) =>
        some (h.become c (.live { v with rx, messages := v.messages ++ [Utf8.lossy chunk] }))
      | (.lagged _, rx) => some (h.become c (.live { v with rx }))
      | (.empty, _) =>
        if !s.alive && h.current != some v.session then some (h.become c .gone) else none
  | some (.live v), .type _ bytes => some ((h.send v.session bytes).getD (h.become c .gone))
  | some _, .leave _ => some (h.become c .gone)
  | _, _ => none

def step (h : Hub) : Action → Option Hub
  | .ensure socket => some (h.ensure socket)
  | .dropVm => some { h with current := none }
  | .turn k t => do
    let s ← h.sessions[k]?
    let (s', log) ← s.turn h.log t
    some { h.set k s' with log }
  | .hungUp k => do
    let s ← h.sessions[k]?
    if h.current == some k || h.clients.any (watches k) || s.input != [] then none
    else some (h.set k { s with alive := false })
  | .append bytes => some { h with log := h.log ++ bytes }
  | .write bytes => some ((h.current.bind (fun k => h.send k bytes)).getD h)
  | .look => some { h with clients := h.clients ++ [.looked h.log.length] }
  | .fetch c => h.serve c (.fetch c)
  | .attach c socket => h.serve c (.attach c socket)
  | .subscribe c => h.serve c (.subscribe c)
  | .recv c => h.serve c (.recv c)
  | .type c bytes => h.serve c (.type c bytes)
  | .leave c => h.serve c (.leave c)

end Hub

end Pertisk.Console
