import Pertisk.Console.Hub

namespace Pertisk.Console
open Lib

/-! ### What a step can do -/

section steps
variable {h h' : Hub} {a : Action} {k c : ℕ} {s s' : Session} {t : Turn}
  {log log' bytes : List UInt8}
  {client client' : Client} {socket : Bool}

theorem Hub.get_set (k j : ℕ) (hs : h.sessions[k]? = some s) (s' : Session) :
    (h.set k s').sessions[j]? = if k = j then some s' else h.sessions[j]? := by
  obtain ⟨hlt, -⟩ := List.getElem?_eq_some_iff.mp hs
  unfold Hub.set
  rw [List.getElem?_set]
  by_cases hkj : k = j
  · subst hkj
    rw [if_pos rfl, if_pos rfl, if_pos hlt]
  · rw [if_neg hkj, if_neg hkj]

theorem Hub.ensure_get (h : Hub) (socket : Bool) (j : ℕ) :
    (h.ensure socket).sessions[j]? = h.sessions[j]? ∨
      j = h.sessions.length ∧ (h.ensure socket).sessions[j]? = some (Session.new socket) := by
  unfold Hub.ensure
  split
  · exact .inl rfl
  · rcases Nat.lt_trichotomy j h.sessions.length with hj | rfl | hj
    · exact .inl (List.getElem?_append_left hj)
    · exact .inr ⟨rfl, List.getElem?_concat_length⟩
    · refine .inl ?_
      rw [List.getElem?_eq_none_iff.mpr (Nat.le_of_lt hj), List.getElem?_eq_none_iff]
      rw [List.length_append, List.length_singleton]
      exact hj

theorem Hub.ensure_log (h : Hub) (socket : Bool) : (h.ensure socket).log = h.log := by
  unfold Hub.ensure
  split <;> rfl

theorem Hub.ensure_clients (h : Hub) (socket : Bool) : (h.ensure socket).clients = h.clients := by
  unfold Hub.ensure
  split <;> rfl

theorem Hub.send_eq_some (hsend : h.send k bytes = some h') : ∃ s, h.sessions[k]? = some s ∧
    s.alive = true ∧ h' = h.set k { s with input := s.input ++ [bytes] } := by
  unfold Hub.send at hsend
  cases hs : h.sessions[k]? with
  | none =>
    rw [hs] at hsend
    cases hsend
  | some s =>
    rw [hs] at hsend
    simp only at hsend
    split at hsend
    · next halive =>
      cases hsend
      exact ⟨s, rfl, halive, rfl⟩
    · cases hsend

/-- What a turn does to a session whose task is there, one case for each thing that can happen. -/
inductive Turned (s : Session) (log : List UInt8) : Turn → Session → List UInt8 → Prop
  | socket (hp : s.pump = .starting) (hsocket : s.hasSocket = true) :
      Turned s log (.begins true) { s with pump := .unixPump, start := log.length } log
  | file (hp : s.pump = .starting) :
      Turned s log (.begins false) { s with pump := .filePump log.length, start := log.length } log
  | output (hp : s.pump = .unixPump) (bytes : List UInt8) :
      Turned s log (.output bytes) { s with stream := s.stream ++ bytes } log
  | read (hp : s.pump = .unixPump) (n kept : ℕ) :
      Turned s log (.read n kept)
        { s with
          stream := s.stream.drop (min n 4096)
          out := s.out ++ [s.stream.take (min n 4096)] }
        (log ++ (s.stream.take (min n 4096)).take kept)
  | closed (hp : s.pump = .unixPump) : Turned s log .closed { s with alive := false } log
  | given (hp : s.pump = .unixPump) {bytes : List UInt8} {rest : List (List UInt8)}
      (hin : s.input = bytes :: rest) :
      Turned s log (.input true) { s with input := rest, given := s.given ++ bytes } log
  | lost (hp : s.pump = .unixPump) {rest : List (List UInt8)} :
      Turned s log (.input false) { s with input := rest, alive := false } log
  | quiet (ok : Bool) : Turned s log (.poll ok) s log
  | poll {pos : ℕ} (hp : s.pump = .filePump pos) :
      Turned s log (.poll true)
        { s with
          pump := .filePump (pos + (log.drop pos).length)
          out := s.out ++ [log.drop pos] } log
  | logged {pos : ℕ} (hp : s.pump = .filePump pos) (ok : Bool) (more : List UInt8)
      {rest : List (List UInt8)} :
      Turned s log (.input ok) { s with input := rest } (log ++ more)

theorem Session.turn_cases (hturn : s.turn log t = some (s', log')) :
    s.alive = true ∧ Turned s log t s' log' := by
  unfold Session.turn at hturn
  split at hturn
  · next halive =>
    refine ⟨halive, ?_⟩
    split at hturn
    · next hp =>
      split at hturn
      · next hsocket =>
        cases hturn
        exact .socket hp hsocket
      · cases hturn
    · next hp =>
      cases hturn
      exact .file hp
    · next hp =>
      cases hturn
      exact .output hp _
    · next hp =>
      simp only at hturn
      split at hturn
      · cases hturn
      · cases hturn
        exact .read hp _ _
    · next hp =>
      cases hturn
      exact .closed hp
    · next hp =>
      split at hturn
      · cases hturn
      · next hin =>
        split at hturn
        · next hok =>
          subst hok
          cases hturn
          exact .given hp hin
        · next hok =>
          rw [Bool.not_eq_true] at hok
          subst hok
          cases hturn
          exact .lost hp
    · next pos ok hp =>
      by_cases hchunk : (if ok = true then log.drop pos else []) = []
      · simp only [hchunk, if_true, List.length_nil, Nat.add_zero, ← hp] at hturn
        cases hturn
        exact .quiet ok
      · simp only [hchunk, if_false] at hturn
        cases ok with
        | false => exact absurd rfl hchunk
        | true =>
          cases hturn
          exact .poll hp
    · next pos ok hp =>
      split at hturn
      · cases hturn
      · next bytes rest hin =>
        cases hturn
        cases ok with
        | true => exact .logged hp true bytes
        | false =>
          have hlogged : Turned s log (.input false) { s with input := rest } (log ++ []) :=
            .logged hp false []
          rwa [List.append_nil] at hlogged
    · cases hturn
  · cases hturn

/-- What a step of `console_ws` does to the hub. -/
inductive Served (h : Hub) (c : ℕ) : Client → Action → Hub → Prop
  | fetch (size : ℕ) : Served h c (.looked size) (.fetch c)
      (h.become c (.fetched (consoleSerial (some h.log) (size - tail) tail)))
  | attach (backlog : SerialChunk) (socket : Bool) :
      Served h c (.fetched backlog) (.attach c socket)
      ((h.ensure socket).become c (.attached backlog))
  | subscribe (backlog : SerialChunk) {k : ℕ} {s : Session} (hs : h.sessions[k]? = some s) :
      Served h c (.attached backlog) (.subscribe c) (h.become c (.live
        { backlog
          session := k
          rx := Receiver.joined s.out
          messages := if backlog.text = [] then [] else [backlog.text] }))
  | message (v : Viewer) {s : Session} {chunk : List UInt8} {rx : Receiver}
      (hs : h.sessions[v.session]? = some s)
      (hrecv : v.rx.recv capacity s.out = (.message chunk, rx)) :
      Served h c (.live v) (.recv c)
        (h.become c (.live { v with rx, messages := v.messages ++ [Utf8.lossy chunk] }))
  | lagged (v : Viewer) {s : Session} {missed : ℕ} {rx : Receiver}
      (hs : h.sessions[v.session]? = some s)
      (hrecv : v.rx.recv capacity s.out = (.lagged missed, rx)) :
      Served h c (.live v) (.recv c) (h.become c (.live { v with rx }))
  | type (v : Viewer) {bytes : List UInt8} {h' : Hub} (hsend : h.send v.session bytes = some h') :
      Served h c (.live v) (.type c bytes) h'
  | left {client : Client} {a : Action}
      (hnone : ∀ v bytes, client = .live v → a = .type c bytes → h.send v.session bytes = none) :
      Served h c client a (h.become c .gone)

/-- The client whose step it is. -/
def Action.caller : Action → Option ℕ
  | .fetch c | .attach c _ | .subscribe c | .recv c | .type c _ | .leave c => some c
  | _ => none

theorem Hub.serve_cases (hown : a.caller = some c) (hstep : h.step a = some h') :
    ∃ client, h.clients[c]? = some client ∧ Served h c client a h' := by
  have hserve : h.serve c a = some h' := by
    cases a <;> cases hown <;> exact hstep
  unfold Hub.serve at hserve
  cases hclient : h.clients[c]? with
  | none =>
    rw [hclient] at hserve
    cases hserve
  | some client =>
    rw [hclient] at hserve
    refine ⟨client, rfl, ?_⟩
    split at hserve
    · next heq =>
      cases heq
      cases hown
      cases hserve
      exact .fetch _
    · next heq =>
      cases heq
      cases hown
      cases hserve
      exact .attach _ _
    · next heq =>
      cases heq
      cases hown
      cases hcurrent : h.current.bind (fun k => h.sessions[k]?.map (fun s => (k, s))) with
      | none =>
        rw [hcurrent] at hserve
        cases hserve
        exact .left (fun _ _ _ ha => by cases ha)
      | some found =>
        rw [hcurrent] at hserve
        obtain ⟨k, -, hk⟩ := Option.bind_eq_some_iff.mp hcurrent
        obtain ⟨s, hs, rfl⟩ := Option.map_eq_some_iff.mp hk
        cases hserve
        exact .subscribe _ hs
    · next v _ heq =>
      cases heq
      cases hown
      cases hs : h.sessions[v.session]? with
      | none =>
        rw [hs] at hserve
        cases hserve
      | some s =>
        rw [hs] at hserve
        dsimp only at hserve
        rcases hrecv : v.rx.recv capacity s.out with ⟨answer, rx⟩
        rw [hrecv] at hserve
        cases answer with
        | message chunk =>
          cases hserve
          exact .message v hs hrecv
        | lagged missed =>
          cases hserve
          exact .lagged v hs hrecv
        | empty =>
          simp only at hserve
          split at hserve
          · cases hserve
            exact .left (fun _ _ _ ha => by cases ha)
          · cases hserve
    · next v _ bytes heq =>
      cases heq
      cases hown
      cases hsend : h.send v.session bytes with
      | none =>
        rw [hsend] at hserve
        cases hserve
        refine .left (fun v' bytes' hv ha => ?_)
        cases hv
        cases ha
        exact hsend
      | some t =>
        rw [hsend] at hserve
        cases hserve
        exact .type v hsend
    · next heq =>
      cases heq
      cases hown
      cases hserve
      exact .left (fun _ _ _ ha => by cases ha)
    · cases hserve

/-- The input that a step has for a session. -/
def Hub.taken (h : Hub) : Action → Option (ℕ × List UInt8)
  | .write bytes => h.current.map (fun k => (k, bytes))
  | .type c bytes =>
    match h.clients[c]? with
    | some (.live v) => some (v.session, bytes)
    | _ => none
  | _ => none

/-- What is put into the queue of a session. -/
def Hub.accepted (h : Hub) (k : ℕ) (a : Action) : List UInt8 :=
  match h.taken a with
  | some (j, bytes) => if j = k ∧ (h.sessions[k]?).any Session.alive = true then bytes else []
  | none => []

/-- What a step does to one of the sessions: it is as before, makes a turn, gets input, or ends
since nobody is left to send it any. -/
inductive Change (h : Hub) (a : Action) (h' : Hub) (k : ℕ) (s : Session) : Session → Prop
  | same (hne : ∀ t, a ≠ .turn k t) (hacc : h.accepted k a = []) : Change h a h' k s s
  | turn {s' : Session} (t : Turn) (ha : a = .turn k t)
      (ht : s.turn h.log t = some (s', h'.log)) : Change h a h' k s s'
  | input (hne : ∀ t, a ≠ .turn k t) (halive : s.alive = true) (hlog : h'.log = h.log)
      {bytes : List UInt8} (hacc : h.accepted k a = bytes) :
      Change h a h' k s { s with input := s.input ++ [bytes] }
  | ended (hne : ∀ t, a ≠ .turn k t) (hlog : h'.log = h.log) (hacc : h.accepted k a = []) :
      Change h a h' k s { s with alive := false }

theorem Hub.accepted_of_none (ht : h.taken a = none) (k : ℕ) : h.accepted k a = [] := by
  unfold Hub.accepted
  rw [ht]

theorem Hub.accepted_of_some {j : ℕ} (ht : h.taken a = some (j, bytes))
    (hs : h.sessions[k]? = some s) :
    h.accepted k a = if j = k ∧ s.alive = true then bytes else [] := by
  unfold Hub.accepted
  rw [ht, hs]
  rfl

theorem ne_turn_of_caller (hcaller : a.caller = some c) (t : Turn) : a ≠ .turn k t := by
  rintro rfl
  cases hcaller

theorem Hub.ne_turn_of_taken {p : ℕ × List UInt8} (ht : h.taken a = some p) (t : Turn) :
    a ≠ .turn k t := by
  rintro rfl
  cases ht

/-- Input for one session is not for another, and none for one whose task has ended. -/
theorem Hub.change_of_taken {j : ℕ} {d : Hub} (ht : h.taken a = some (j, bytes))
    (hd : d.sessions = h.sessions) (hh' : h' = (h.send j bytes).getD d)
    (hs : h.sessions[k]? = some s) : ∃ s', h'.sessions[k]? = some s' ∧ Change h a h' k s s' := by
  have hacc := accepted_of_some ht hs
  cases hsend : h.send j bytes with
  | some t =>
    rw [hsend, Option.getD_some] at hh'
    subst hh'
    obtain ⟨s₀, hs₀, halive, rfl⟩ := send_eq_some hsend
    rw [get_set _ k hs₀]
    by_cases hjk : j = k
    · subst hjk
      obtain rfl := Option.some.inj (hs₀.symm.trans hs)
      rw [if_pos ⟨rfl, halive⟩] at hacc
      exact ⟨_, if_pos rfl, .input (ne_turn_of_taken ht) halive (by rfl) hacc⟩
    · rw [if_neg (fun hboth => hjk hboth.1)] at hacc
      exact ⟨s, (if_neg hjk).trans hs, .same (ne_turn_of_taken ht) hacc⟩
  | none =>
    rw [hsend, Option.getD_none] at hh'
    subst hh'
    refine ⟨s, (congrArg (fun l => l[k]?) hd).trans hs,
      .same (ne_turn_of_taken ht) (hacc.trans (if_neg ?_))⟩
    rintro ⟨rfl, halive⟩
    unfold Hub.send at hsend
    rw [hs] at hsend
    simp [halive] at hsend

theorem Hub.ensure_get_some (socket : Bool) (hs : h.sessions[k]? = some s) :
    (h.ensure socket).sessions[k]? = some s := by
  rcases h.ensure_get socket k with heq | ⟨rfl, -⟩
  · exact heq.trans hs
  · rw [List.getElem?_eq_none_iff.mpr (Nat.le_refl _)] at hs
    cases hs

theorem Hub.step_session (hstep : h.step a = some h') (hs : h.sessions[k]? = some s) :
    ∃ s', h'.sessions[k]? = some s' ∧ Change h a h' k s s' := by
  cases hcaller : a.caller with
  | some c =>
    obtain ⟨client, hclient, hserved⟩ := serve_cases hcaller hstep
    cases hserved with
    | fetch size => exact ⟨s, hs, .same (ne_turn_of_caller hcaller) (accepted_of_none rfl k)⟩
    | attach backlog socket =>
      exact ⟨s, ensure_get_some socket hs,
        .same (ne_turn_of_caller hcaller) (accepted_of_none rfl k)⟩
    | subscribe backlog hk =>
      exact ⟨s, hs, .same (ne_turn_of_caller hcaller) (accepted_of_none rfl k)⟩
    | message v hk hrecv =>
      exact ⟨s, hs, .same (ne_turn_of_caller hcaller) (accepted_of_none rfl k)⟩
    | lagged v hk hrecv => exact ⟨s, hs, .same (ne_turn_of_caller hcaller) (accepted_of_none rfl k)⟩
    | @type v bytes _ hsend =>
      have ht : h.taken (.type c bytes) = some (v.session, bytes) := by simp only [taken, hclient]
      exact change_of_taken ht (d := h) rfl (by rw [hsend]; rfl) hs
    | left hnone =>
      cases ht : h.taken a with
      | none => exact ⟨s, hs, .same (ne_turn_of_caller hcaller) (accepted_of_none ht k)⟩
      | some taken =>
        obtain ⟨j, bytes⟩ := taken
        have hsend : h.send j bytes = none := by
          cases a with
          | type c' bytes' =>
            cases hcaller
            cases client with
            | live v =>
              simp only [taken, hclient] at ht
              cases ht
              exact hnone v bytes rfl rfl
            | looked | fetched | attached | gone =>
              simp only [taken, hclient] at ht
              cases ht
          | fetch | attach | subscribe | recv | leave => cases ht
          | ensure | dropVm | turn | hungUp | append | write | look => cases hcaller
        refine change_of_taken ht (d := h.become c .gone) rfl ?_ hs
        rw [hsend]
        rfl
  | none =>
    cases a with
    | ensure socket =>
      cases hstep
      exact ⟨s, ensure_get_some socket hs, .same (by intro _ ha; cases ha) (accepted_of_none rfl k)⟩
    | dropVm =>
      cases hstep
      exact ⟨s, hs, .same (by intro _ ha; cases ha) (accepted_of_none rfl k)⟩
    | turn j t =>
      obtain ⟨s₀, hs₀, hstep⟩ := Option.bind_eq_some_iff.mp hstep
      obtain ⟨⟨s', log⟩, hturn, heq⟩ := Option.bind_eq_some_iff.mp hstep
      cases heq
      have hget := h.get_set j k hs₀ s'
      by_cases hjk : j = k
      · subst hjk
        obtain rfl := Option.some.inj (hs₀.symm.trans hs)
        exact ⟨s', hget.trans (if_pos rfl), .turn t rfl hturn⟩
      · refine ⟨s, (hget.trans (if_neg hjk)).trans hs, .same ?_ (accepted_of_none rfl k)⟩
        intro _ ha
        cases ha
        exact hjk rfl
    | hungUp j =>
      obtain ⟨s₀, hs₀, hstep⟩ := Option.bind_eq_some_iff.mp hstep
      split at hstep
      · cases hstep
      · cases hstep
        have hget := h.get_set j k hs₀ { s₀ with alive := false }
        by_cases hjk : j = k
        · subst hjk
          obtain rfl := Option.some.inj (hs₀.symm.trans hs)
          exact ⟨_, hget.trans (if_pos rfl),
            .ended (by intro _ ha; cases ha) (by rfl) (accepted_of_none rfl j)⟩
        · refine ⟨s, (hget.trans (if_neg hjk)).trans hs, .same ?_ (accepted_of_none rfl k)⟩
          intro _ ha
          cases ha
    | append bytes =>
      cases hstep
      exact ⟨s, hs, .same (by intro _ ha; cases ha) (accepted_of_none rfl k)⟩
    | write bytes =>
      cases hstep
      cases hcurrent : h.current with
      | none =>
        exact ⟨s, hs, .same (by intro _ ha; cases ha)
          (accepted_of_none (by simp [taken, hcurrent]) k)⟩
      | some j =>
        have ht : h.taken (.write bytes) = some (j, bytes) := by simp [taken, hcurrent]
        exact change_of_taken ht (d := h) rfl rfl hs
    | look =>
      cases hstep
      exact ⟨s, hs, .same (by intro _ ha; cases ha) (accepted_of_none rfl k)⟩
    | fetch | attach | subscribe | recv | type | leave => cases hcaller

/-- The sessions that are not there yet are made new. -/
theorem Hub.step_session_none (hstep : h.step a = some h') (hs : h.sessions[k]? = none) :
    h'.sessions[k]? = none ∨ ∃ socket, h'.sessions[k]? = some (Session.new socket) := by
  have hset : ∀ j s, (h.sessions.set j s)[k]? = none := by
    intro j s
    rw [List.getElem?_eq_none_iff, List.length_set]
    exact List.getElem?_eq_none_iff.mp hs
  have hsend : ∀ {j bytes t}, h.send j bytes = some t → t.sessions[k]? = none := by
    intro j bytes t hsend
    obtain ⟨s, -, -, rfl⟩ := send_eq_some hsend
    exact hset j _
  have hensure : ∀ socket, (h.ensure socket).sessions[k]? = none ∨
      ∃ socket', (h.ensure socket).sessions[k]? = some (Session.new socket') := by
    intro socket
    rcases h.ensure_get socket k with heq | ⟨-, heq⟩
    · exact .inl (heq.trans hs)
    · exact .inr ⟨socket, heq⟩
  cases hcaller : a.caller with
  | some c =>
    obtain ⟨client, hclient, hserved⟩ := serve_cases hcaller hstep
    cases hserved with
    | attach backlog socket => exact hensure socket
    | type v h => exact .inl (hsend h)
    | fetch | subscribe | message | lagged | left => exact .inl hs
  | none =>
    cases a with
    | ensure socket =>
      cases hstep
      exact hensure socket
    | turn j t =>
      obtain ⟨s₀, hs₀, hstep⟩ := Option.bind_eq_some_iff.mp hstep
      obtain ⟨⟨s', log⟩, hturn, heq⟩ := Option.bind_eq_some_iff.mp hstep
      cases heq
      exact .inl (hset j s')
    | hungUp j =>
      obtain ⟨s₀, hs₀, hstep⟩ := Option.bind_eq_some_iff.mp hstep
      split at hstep
      · cases hstep
      · cases hstep
        exact .inl (hset j _)
    | write bytes =>
      cases hstep
      cases hsent : h.current.bind (fun j => h.send j bytes) with
      | none => exact .inl hs
      | some t =>
        obtain ⟨j, -, hsent⟩ := Option.bind_eq_some_iff.mp hsent
        exact .inl (hsend hsent)
    | dropVm | append | look =>
      cases hstep
      exact .inl hs
    | fetch | attach | subscribe | recv | type | leave => cases hcaller

theorem Hub.send_log {j : ℕ} (hsend : h.send j bytes = some h') : h'.log = h.log := by
  obtain ⟨s, -, -, rfl⟩ := send_eq_some hsend
  rfl

theorem Hub.send_clients {j : ℕ} (hsend : h.send j bytes = some h') : h'.clients = h.clients := by
  obtain ⟨s, -, -, rfl⟩ := send_eq_some hsend
  rfl

/-- The serial log only grows. -/
theorem Hub.step_log (hstep : h.step a = some h') : ∃ more, h'.log = h.log ++ more := by
  have hsame : h'.log = h.log → ∃ more, h'.log = h.log ++ more :=
    fun heq => ⟨[], heq.trans (List.append_nil _).symm⟩
  cases hcaller : a.caller with
  | some c =>
    obtain ⟨client, hclient, hserved⟩ := serve_cases hcaller hstep
    cases hserved with
    | attach backlog socket => exact hsame (ensure_log h socket)
    | type v h => exact hsame (send_log h)
    | fetch | subscribe | message | lagged | left => exact hsame rfl
  | none =>
    cases a with
    | ensure socket =>
      cases hstep
      exact hsame (ensure_log h socket)
    | turn j t =>
      obtain ⟨s₀, hs₀, hstep⟩ := Option.bind_eq_some_iff.mp hstep
      obtain ⟨⟨s', log⟩, hturn, heq⟩ := Option.bind_eq_some_iff.mp hstep
      cases heq
      obtain ⟨-, hturned⟩ := Session.turn_cases hturn
      cases hturned with
      | read | logged => exact ⟨_, rfl⟩
      | socket | file | output | closed | given | lost | quiet | poll => exact hsame rfl
    | hungUp j =>
      obtain ⟨s₀, hs₀, hstep⟩ := Option.bind_eq_some_iff.mp hstep
      split at hstep
      · cases hstep
      · cases hstep
        exact hsame rfl
    | append bytes =>
      cases hstep
      exact ⟨bytes, rfl⟩
    | write bytes =>
      cases hstep
      cases hsent : h.current.bind (fun j => h.send j bytes) with
      | none => exact ⟨[], (List.append_nil _).symm⟩
      | some t =>
        obtain ⟨j, -, hsent⟩ := Option.bind_eq_some_iff.mp hsent
        exact ⟨[], (send_log hsent).trans (List.append_nil _).symm⟩
    | dropVm | look =>
      cases hstep
      exact hsame rfl
    | fetch | attach | subscribe | recv | type | leave => cases hcaller

/-- What becomes of a client in a step. -/
inductive Moved (h : Hub) : Client → Client → Prop
  | same (client : Client) : Moved h client client
  | fetched (size : ℕ) : Moved h (.looked size)
      (.fetched (consoleSerial (some h.log) (size - tail) tail))
  | attached (backlog : SerialChunk) : Moved h (.fetched backlog) (.attached backlog)
  | joined (backlog : SerialChunk) {k : ℕ} {s : Session} (hs : h.sessions[k]? = some s) :
      Moved h (.attached backlog) (.live
        { backlog
          session := k
          rx := Receiver.joined s.out
          messages := if backlog.text = [] then [] else [backlog.text] })
  | message (v : Viewer) {s : Session} {chunk : List UInt8} {rx : Receiver}
      (hs : h.sessions[v.session]? = some s)
      (hrecv : v.rx.recv capacity s.out = (.message chunk, rx)) :
      Moved h (.live v) (.live { v with rx, messages := v.messages ++ [Utf8.lossy chunk] })
  | lagged (v : Viewer) {s : Session} {missed : ℕ} {rx : Receiver}
      (hs : h.sessions[v.session]? = some s)
      (hrecv : v.rx.recv capacity s.out = (.lagged missed, rx)) :
      Moved h (.live v) (.live { v with rx })
  | gone (client : Client) : Moved h client .gone

/-- A client is one that has just come, or one that was there. -/
theorem Hub.step_client (hstep : h.step a = some h') (hclient : h'.clients[c]? = some client') :
    client' = .looked h.log.length ∨
      ∃ client, h.clients[c]? = some client ∧ Moved h client client' := by
  have hsame : h'.clients = h.clients →
      ∃ client, h.clients[c]? = some client ∧ Moved h client client' :=
    fun heq => ⟨client', (congrArg (fun l => l[c]?) heq).symm.trans hclient, .same client'⟩
  cases hcaller : a.caller with
  | some d =>
    obtain ⟨client, hat, hserved⟩ := serve_cases hcaller hstep
    have hbecome : ∀ {t : Hub} {moved : Client}, t.clients = h.clients → h' = t.become d moved →
        Moved h client moved → ∃ client, h.clients[c]? = some client ∧ Moved h client client' := by
      intro t moved ht hh' hmoved
      subst hh'
      have hset : (t.clients.set d moved)[c]? = some client' := hclient
      rw [ht, List.getElem?_set] at hset
      by_cases hdc : d = c
      · subst hdc
        obtain ⟨hlt, -⟩ := List.getElem?_eq_some_iff.mp hat
        rw [if_pos rfl, if_pos hlt] at hset
        obtain rfl := Option.some.inj hset
        exact ⟨client, hat, hmoved⟩
      · rw [if_neg hdc] at hset
        exact ⟨client', hset, .same client'⟩
    refine .inr ?_
    cases hserved with
    | fetch size => exact hbecome rfl rfl (.fetched size)
    | attach backlog socket => exact hbecome (ensure_clients h socket) rfl (.attached backlog)
    | subscribe backlog hs => exact hbecome rfl rfl (.joined backlog hs)
    | message v hs hrecv => exact hbecome rfl rfl (.message v hs hrecv)
    | lagged v hs hrecv => exact hbecome rfl rfl (.lagged v hs hrecv)
    | type v hsend => exact hsame (send_clients hsend)
    | left => exact hbecome rfl rfl (.gone _)
  | none =>
    cases a with
    | ensure socket =>
      cases hstep
      exact .inr (hsame (ensure_clients h socket))
    | turn j t =>
      obtain ⟨s₀, hs₀, hstep⟩ := Option.bind_eq_some_iff.mp hstep
      obtain ⟨⟨s', log⟩, hturn, heq⟩ := Option.bind_eq_some_iff.mp hstep
      cases heq
      exact .inr (hsame rfl)
    | hungUp j =>
      obtain ⟨s₀, hs₀, hstep⟩ := Option.bind_eq_some_iff.mp hstep
      split at hstep
      · cases hstep
      · cases hstep
        exact .inr (hsame rfl)
    | write bytes =>
      cases hstep
      cases hsent : h.current.bind (fun j => h.send j bytes) with
      | none =>
        rw [hsent] at hclient
        exact .inr ⟨client', hclient, .same client'⟩
      | some t =>
        rw [hsent] at hclient
        obtain ⟨j, -, hsent⟩ := Option.bind_eq_some_iff.mp hsent
        have hclient : t.clients[c]? = some client' := hclient
        rw [send_clients hsent] at hclient
        exact .inr ⟨client', hclient, .same client'⟩
    | dropVm | append =>
      cases hstep
      exact .inr (hsame rfl)
    | look =>
      cases hstep
      have happend : (h.clients ++ [.looked h.log.length])[c]? = some client' := hclient
      rcases Nat.lt_trichotomy c h.clients.length with hc | rfl | hc
      · rw [List.getElem?_append_left hc] at happend
        exact .inr ⟨client', happend, .same client'⟩
      · rw [List.getElem?_concat_length] at happend
        exact .inl (Option.some.inj happend).symm
      · rw [List.getElem?_eq_none_iff.mpr] at happend
        · cases happend
        · rw [List.length_append, List.length_singleton]
          exact hc
    | fetch | attach | subscribe | recv | type | leave => cases hcaller

end steps

end Pertisk.Console
