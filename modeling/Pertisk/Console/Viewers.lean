import Pertisk.Console.Turns

namespace Pertisk.Console
open Lib

variable {h h' : Hub} {a : Action} {as : List Action} {k c : ℕ} {s s' : Session} {t : Turn}
  {log log' heard typed bytes : List UInt8} {b : SerialChunk} {v : Viewer} {client client' : Client}

/-! ### From the guest to the session and back -/

/-- What the guest writes to the socket of a session. -/
def written (k : ℕ) : Action → List UInt8
  | .turn j (.output bytes) => if j = k then bytes else []
  | _ => []

/-- What the steps of a run put into the queue of a session. -/
def typedIn (k : ℕ) : Hub → List Action → List UInt8
  | _, [] => []
  | h, a :: as => h.accepted k a ++ typedIn k ((h.step a).getD h) as

/-- All that the guest wrote was sent on or is still to be read, and all the input was given to it
or is still to be given. -/
structure Session.Carried (s : Session) (heard typed : List UInt8) : Prop where
  starting : s.pump = .starting → s.out = [] ∧ s.stream = [] ∧ s.given = [] ∧ heard = []
  output : s.pump = .unixPump → s.out.flatten ++ s.stream = heard
  input : s.alive = true → (∀ pos, s.pump ≠ .filePump pos) → s.given ++ s.input.flatten = typed

def Hub.Carries (h : Hub) (k : ℕ) (heard typed : List UInt8) : Prop :=
  match h.sessions[k]? with
  | none => heard = [] ∧ typed = []
  | some s => s.Carried heard typed

theorem carried_new (socket : Bool) : (Session.new socket).Carried [] [] where
  starting := fun _ => ⟨rfl, rfl, rfl, rfl⟩
  output := by intro hp; cases hp
  input := fun _ _ => rfl

theorem Session.Carried.turn (h : s.Carried heard typed) (hturn : s.turn log t = some (s', log')) :
    s'.Carried (heard ++ written k (.turn k t)) typed := by
  obtain ⟨halive, hturned⟩ := Session.turn_cases hturn
  have hquiet : (∀ bytes, t ≠ .output bytes) → heard ++ written k (.turn k t) = heard := by
    intro hne
    cases t <;> first | exact List.append_nil _ | exact absurd rfl (hne _)
  cases hturned with
  | socket hp hsocket =>
    obtain ⟨hout, hstream, hgiven, hheard⟩ := h.starting hp
    rw [hquiet (by intro _ ht; cases ht)]
    refine ⟨(by intro hp'; cases hp'), fun _ => ?_, fun _ _ => h.input halive (by simp [hp])⟩
    rw [hout, hstream, hheard]
    rfl
  | file hp =>
    rw [hquiet (by intro _ ht; cases ht)]
    exact ⟨(by intro hp'; cases hp'), (by intro hp'; cases hp'), fun _ hno => absurd rfl (hno _)⟩
  | output hp bytes =>
    have hw : written k (.turn k (.output bytes)) = bytes := if_pos rfl
    rw [hw]
    refine ⟨by simp [hp], fun _ => ?_, h.input⟩
    rw [← h.output hp, List.append_assoc]
  | read hp n kept =>
    rw [hquiet (by intro _ ht; cases ht)]
    refine ⟨by simp [hp], fun _ => ?_, h.input⟩
    rw [← h.output hp, List.flatten_append, List.flatten_singleton, List.append_assoc,
      List.take_append_drop]
  | closed hp =>
    rw [hquiet (by intro _ ht; cases ht)]
    exact ⟨h.starting, h.output, (by intro hfalse; cases hfalse)⟩
  | given hp hin =>
    rw [hquiet (by intro _ ht; cases ht)]
    refine ⟨by simp [hp], h.output, fun _ hno => ?_⟩
    rw [← h.input halive hno, hin, List.flatten_cons, List.append_assoc]
  | lost hp =>
    rw [hquiet (by intro _ ht; cases ht)]
    exact ⟨by simp [hp], h.output, (by intro hfalse; cases hfalse)⟩
  | quiet ok =>
    rw [hquiet (by intro _ ht; cases ht)]
    exact h
  | poll hp =>
    rw [hquiet (by intro _ ht; cases ht)]
    exact ⟨(by intro hp'; cases hp'), (by intro hp'; cases hp'), fun _ hno => absurd rfl (hno _)⟩
  | logged hp ok more =>
    rw [hquiet (by intro _ ht; cases ht)]
    exact ⟨by simp [hp], by simp [hp], fun _ hno => absurd hp (hno _)⟩

theorem written_of_ne (h : ∀ t, a ≠ .turn k t) : written k a = [] := by
  unfold written
  split
  · next j bytes =>
    refine if_neg ?_
    rintro rfl
    exact h _ rfl
  · rfl

/-- Nothing is accepted for a session that is not there, and it takes no turn. -/
theorem Hub.quiet_of_none (hstep : h.step a = some h') (hs : h.sessions[k]? = none) :
    written k a = [] ∧ h.accepted k a = [] := by
  constructor
  · refine written_of_ne ?_
    rintro t rfl
    obtain ⟨s, hs', -⟩ := Option.bind_eq_some_iff.mp hstep
    rw [hs] at hs'
    cases hs'
  · unfold Hub.accepted
    cases h.taken a with
    | none => rfl
    | some taken =>
      refine if_neg ?_
      rw [hs]
      exact fun hboth => by cases hboth.2

theorem Hub.Carries.step (hc : h.Carries k heard typed) (hstep : h.step a = some h') :
    h'.Carries k (heard ++ written k a) (typed ++ h.accepted k a) := by
  unfold Hub.Carries at hc
  cases hs : h.sessions[k]? with
  | none =>
    rw [hs] at hc
    obtain ⟨rfl, rfl⟩ := hc
    obtain ⟨hw, hacc⟩ := quiet_of_none hstep hs
    rw [hw, hacc]
    unfold Hub.Carries
    rcases step_session_none hstep hs with heq | ⟨socket, heq⟩
    · rw [heq]
      exact ⟨rfl, rfl⟩
    · rw [heq]
      exact carried_new socket
  | some s =>
    rw [hs] at hc
    obtain ⟨s', hs', hchange⟩ := step_session hstep hs
    unfold Hub.Carries
    rw [hs']
    show s'.Carried _ _
    have hcarried : s.Carried heard typed := hc
    cases hchange with
    | same hne hacc =>
      rw [written_of_ne hne, hacc, List.append_nil, List.append_nil]
      exact hcarried
    | turn t ha ht =>
      subst ha
      have hacc : h.accepted k (.turn k t) = [] := accepted_of_none rfl k
      rw [hacc, List.append_nil]
      exact hcarried.turn ht
    | input hne halive hlog hacc =>
      rw [written_of_ne hne, hacc, List.append_nil]
      refine ⟨hcarried.starting, hcarried.output, fun _ hno => ?_⟩
      rw [← hcarried.input halive hno, List.flatten_append, List.flatten_singleton,
        List.append_assoc]
    | ended hne hlog hacc =>
      rw [written_of_ne hne, hacc, List.append_nil, List.append_nil]
      exact ⟨hcarried.starting, hcarried.output, (by intro hfalse; cases hfalse)⟩

theorem Hub.Carries.run {heard typed : List UInt8} (hc : h.Carries k heard typed)
    (r : Run (Steps Hub.step) h as h') :
    h'.Carries k (heard ++ as.flatMap (written k)) (typed ++ typedIn k h as) := by
  induction r generalizing heard typed with
  | nil h =>
    show h.Carries k (heard ++ []) (typed ++ [])
    rw [List.append_nil, List.append_nil]
    exact hc
  | @cons h m h' a as hstep _ ih =>
    have hrest := ih (hc.step hstep)
    have hgetD : (h.step a).getD h = m := by
      rw [show h.step a = some m from hstep]
      rfl
    unfold typedIn
    rw [List.flatMap_cons, hgetD, ← List.append_assoc, ← List.append_assoc]
    exact hrest

/-! ### What a viewer is sent -/

/-- The part of the log that was read for a client. -/
structure Backlogged (log : List UInt8) (b : SerialChunk) : Prop where
  ordered : b.offset ≤ b.next
  inside : b.next ≤ log.length
  text : b.text = Utf8.lossy (slice log b.offset (b.next - b.offset))

theorem Backlogged.grow (hb : Backlogged log b) (more : List UInt8) :
    Backlogged (log ++ more) b where
  ordered := hb.ordered
  inside := by
    rw [List.length_append]
    exact Nat.le_trans hb.inside (Nat.le_add_right _ _)
  text := by
    have hordered := hb.ordered
    have hinside := hb.inside
    rw [slice_append_left (by omega)]
    exact hb.text

theorem backlogged_consoleSerial {size : ℕ} (hsize : size ≤ log.length) :
    Backlogged log (consoleSerial (some log) (size - tail) tail) := by
  rw [consoleSerial_eq]
  have hread : readable log (size - tail) tail ≤ log.length - (size - tail) := Nat.min_le_right _ _
  refine ⟨Nat.le_add_right _ _, ?_, ?_⟩
  · show size - tail + readable log (size - tail) tail ≤ log.length
    omega
  · rw [Nat.add_sub_cancel_left]

/-- What a viewer is sent first. -/
def opening (b : SerialChunk) : List (List Char) := if b.text = [] then [] else [b.text]

theorem opening_flatten (b : SerialChunk) : (opening b).flatten = b.text := by
  unfold opening
  split
  · next hnil => rw [hnil]; rfl
  · exact List.append_nil _

/-- A client that is being served has got its part of the log, and then what its session sent. -/
def Client.Good (h : Hub) : Client → Prop
  | .looked size => size ≤ h.log.length
  | .fetched b | .attached b => Backlogged h.log b
  | .live v => Backlogged h.log v.backlog ∧ ∃ s got, h.sessions[v.session]? = some s ∧
      v.rx.Heard s.out got ∧ v.messages = opening v.backlog ++ got.map Utf8.lossy
  | .gone => True

theorem Client.Good.moved (hgood : client.Good h) (hmoved : Moved h client client') :
    client'.Good h := by
  cases hmoved with
  | same => exact hgood
  | fetched size => exact backlogged_consoleSerial hgood
  | attached => exact hgood
  | joined backlog hs =>
    exact ⟨hgood, _, [], hs, Receiver.heard_joined _, (List.append_nil _).symm⟩
  | message v hs hrecv =>
    obtain ⟨hb, s', got, hs', hheard, hmessages⟩ := hgood
    obtain rfl := Option.some.inj (hs.symm.trans hs')
    refine ⟨hb, _, _, hs, hheard.message hrecv, ?_⟩
    show v.messages ++ [_] = _
    rw [hmessages, List.map_append, List.append_assoc]
    rfl
  | lagged v hs hrecv =>
    obtain ⟨hb, s', got, hs', hheard, hmessages⟩ := hgood
    obtain rfl := Option.some.inj (hs.symm.trans hs')
    exact ⟨hb, _, got, hs, hheard.lagged hrecv, hmessages⟩
  | gone => trivial

theorem Turned.out (hturned : Turned s log t s' log') : ∃ more, s'.out = s.out ++ more := by
  cases hturned with
  | read | poll => exact ⟨_, rfl⟩
  | socket | file | output | closed | given | lost | quiet | logged =>
    exact ⟨[], (List.append_nil _).symm⟩

theorem Change.out (hchange : Change h a h' k s s') : ∃ more, s'.out = s.out ++ more := by
  cases hchange with
  | same | input | ended => exact ⟨[], (List.append_nil _).symm⟩
  | turn t ha ht => exact (Session.turn_cases ht).2.out

theorem Client.Good.grow (hgood : client.Good h) (hstep : h.step a = some h') :
    client.Good h' := by
  obtain ⟨more, hlog⟩ := Hub.step_log hstep
  cases client with
  | looked size =>
    show size ≤ h'.log.length
    rw [hlog, List.length_append]
    exact Nat.le_trans hgood (Nat.le_add_right _ _)
  | fetched b | attached b =>
    show Backlogged h'.log b
    rw [hlog]
    exact hgood.grow more
  | live v =>
    obtain ⟨hb, s, got, hs, hheard, hmessages⟩ := hgood
    obtain ⟨s', hs', hchange⟩ := Hub.step_session hstep hs
    obtain ⟨sent, hout⟩ := hchange.out
    refine ⟨?_, s', got, hs', ?_, hmessages⟩
    · rw [hlog]
      exact hb.grow more
    · rw [hout]
      exact hheard.send sent
  | gone => trivial

def Hub.Good (h : Hub) : Prop :=
  ∀ (c : ℕ) (client : Client), h.clients[c]? = some client → client.Good h

theorem Hub.Good.step (hgood : h.Good) (hstep : h.step a = some h') : h'.Good := by
  intro c client' hclient'
  rcases step_client hstep hclient' with rfl | ⟨client, hclient, hmoved⟩
  · obtain ⟨more, hlog⟩ := step_log hstep
    show h.log.length ≤ h'.log.length
    rw [hlog, List.length_append]
    exact Nat.le_add_right _ _
  · exact ((hgood c client hclient).moved hmoved).grow hstep

theorem good_new (log : List UInt8) : (Hub.new log).Good := by
  intro c client hclient
  cases hclient

/-! ### What is sent and what is in the log -/

/-- The task of a session is there and reads the guest's socket. -/
def Session.tails (s : Session) : Bool := s.alive && s.pump == .unixPump

/-- While the task of the session reads the socket, nothing else writes the log, and all that it
reads gets there. -/
def owned (k : ℕ) (h : Hub) (a : Action) : Bool :=
  !(h.sessions[k]?).any Session.tails ||
    match a with
    | .turn j (.read n kept) => j == k && decide (min n 4096 ≤ kept)
    | _ => (h.step a).all (fun t => t.log == h.log)

/-- Where in the log the session was when it had sent so many chunks. -/
def Session.reached (s : Session) (n : ℕ) : ℕ := s.start + (s.out.take n).flatten.length

/-- What was sent is what the log has from where the task began. -/
structure Session.Placed (s : Session) (log : List UInt8) : Prop where
  inside : s.start + s.out.flatten.length ≤ log.length
  sent : slice log s.start s.out.flatten.length = s.out.flatten
  fresh : s.pump = .starting → s.out = []
  file : ∀ pos, s.pump = .filePump pos → pos = s.start + s.out.flatten.length
  socket : s.tails = true → s.start + s.out.flatten.length = log.length

theorem placed_new (socket : Bool) (log : List UInt8) : (Session.new socket).Placed log where
  inside := Nat.zero_le _
  sent := rfl
  fresh := fun _ => rfl
  file := by intro _ hp; cases hp
  socket := by intro hp; cases hp

/-- More in the log is no matter, but for one that reads the socket. -/
theorem Session.Placed.grow (hs : s.Placed log) (more : List UInt8)
    (hlog : s.tails = true → more = []) : s.Placed (log ++ more) where
  inside := by
    rw [List.length_append]
    exact Nat.le_trans hs.inside (Nat.le_add_right _ _)
  sent := (slice_append_left hs.inside).trans hs.sent
  fresh := hs.fresh
  file := hs.file
  socket := by
    intro htails
    rw [hlog htails, List.append_nil]
    exact hs.socket htails

theorem length_flatten_concat (out : List (List UInt8)) (chunk : List UInt8) :
    (out ++ [chunk]).flatten.length = out.flatten.length + chunk.length := by
  rw [List.flatten_append, List.flatten_singleton, List.length_append]

/-- A chunk that comes next in the log is sent. -/
theorem slice_flatten_concat {out : List (List UInt8)} {chunk : List UInt8} {start : ℕ}
    (hsent : slice log start out.flatten.length = out.flatten)
    (hchunk : slice log (start + out.flatten.length) chunk.length = chunk) :
    slice log start (out ++ [chunk]).flatten.length = (out ++ [chunk]).flatten := by
  rw [length_flatten_concat, slice_add, hsent, hchunk, List.flatten_append, List.flatten_singleton]

theorem slice_all (l : List UInt8) : slice l 0 l.length = l := List.take_length

theorem Session.Placed.turned (hs : s.Placed log) (halive : s.alive = true)
    (hturned : Turned s log t s' log')
    (hread : s.tails = true → ∀ n kept, t = .read n kept → min n 4096 ≤ kept) :
    s'.Placed log' := by
  cases hturned with
  | socket hp hsocket =>
    have hout := hs.fresh hp
    refine ⟨?_, ?_, (by intro hp'; cases hp'), (by intro _ hp'; cases hp'), ?_⟩
    · simp [hout]
    · simp [hout, slice]
    · simp [hout]
  | file hp =>
    have hout := hs.fresh hp
    refine ⟨?_, ?_, (by intro hp'; cases hp'), ?_, (by simp [Session.tails])⟩
    · simp [hout]
    · simp [hout, slice]
    · intro pos hp'
      cases hp'
      simp [hout]
  | output hp bytes => exact ⟨hs.inside, hs.sent, hs.fresh, hs.file, hs.socket⟩
  | read hp n kept =>
    have htails : s.tails = true := by simp [Session.tails, halive, hp]
    have hend := hs.socket htails
    set chunk := s.stream.take (min n 4096)
    have hkept : chunk.take kept = chunk := by
      refine List.take_of_length_le ?_
      rw [List.length_take]
      exact Nat.le_trans (Nat.min_le_left _ _) (hread htails n kept rfl)
    have hnext : slice (log ++ chunk) (s.start + s.out.flatten.length) chunk.length = chunk := by
      rw [hend, ← Nat.add_zero log.length, slice_append_right, slice_all]
    rw [hkept]
    refine ⟨?_, ?_, (by simp [hp]), (by simp [hp]), fun _ => ?_⟩
    · show s.start + (s.out ++ [chunk]).flatten.length ≤ (log ++ chunk).length
      rw [length_flatten_concat, List.length_append]
      omega
    · exact slice_flatten_concat ((slice_append_left hs.inside).trans hs.sent) hnext
    · show s.start + (s.out ++ [chunk]).flatten.length = (log ++ chunk).length
      rw [length_flatten_concat, List.length_append]
      omega
  | closed hp => exact ⟨hs.inside, hs.sent, hs.fresh, hs.file, (by simp [Session.tails])⟩
  | given hp hin => exact ⟨hs.inside, hs.sent, hs.fresh, hs.file, hs.socket⟩
  | lost hp => exact ⟨hs.inside, hs.sent, hs.fresh, hs.file, (by simp [Session.tails])⟩
  | quiet ok => exact hs
  | @poll pos hp =>
    have hpos := hs.file pos hp
    have hinside := hs.inside
    have hlen : (log.drop pos).length = log.length - pos := List.length_drop
    have hnext :
        slice log (s.start + s.out.flatten.length) (log.drop pos).length = log.drop pos := by
      unfold slice
      rw [← hpos, List.take_length]
    refine ⟨?_, slice_flatten_concat hs.sent hnext, (by intro hp'; cases hp'), ?_,
      (by simp [Session.tails])⟩
    · show s.start + (s.out ++ [log.drop pos]).flatten.length ≤ log.length
      rw [length_flatten_concat]
      omega
    · intro pos' hp'
      cases hp'
      show pos + (log.drop pos).length = s.start + (s.out ++ [log.drop pos]).flatten.length
      rw [length_flatten_concat]
      omega
  | logged hp ok more =>
    have hgrown := hs.grow more (by simp [Session.tails, hp])
    exact ⟨hgrown.inside, hgrown.sent, hgrown.fresh, hgrown.file, (by simp [Session.tails, hp])⟩

theorem Session.Placed.change (hs : s.Placed h.log) (hget : h.sessions[k]? = some s)
    (hown : owned k h a = true) (hstep : h.step a = some h') (hchange : Change h a h' k s s') :
    s'.Placed h'.log := by
  unfold owned at hown
  rw [hget] at hown
  cases hchange with
  | same hne hacc =>
    obtain ⟨more, hlog⟩ := Hub.step_log hstep
    rw [hlog]
    refine hs.grow more (fun htails => ?_)
    have hsame : h'.log = h.log := by
      simp only [Option.any_some, htails, Bool.not_true, Bool.false_or] at hown
      split at hown
      · next j n kept =>
        rw [Bool.and_eq_true, beq_iff_eq] at hown
        obtain ⟨rfl, -⟩ := hown
        exact absurd rfl (hne _)
      · rw [hstep, Option.all_some, beq_iff_eq] at hown
        exact hown
    rw [hlog] at hsame
    exact List.append_right_eq_self.mp hsame
  | turn t ha ht =>
    obtain ⟨halive, hturned⟩ := Session.turn_cases ht
    refine hs.turned halive hturned ?_
    rintro htails n kept rfl
    subst ha
    simp only [Option.any_some, htails, Bool.not_true, Bool.false_or] at hown
    rw [Bool.and_eq_true, decide_eq_true_iff] at hown
    exact hown.2
  | input hne halive hlog hacc =>
    rw [hlog]
    exact ⟨hs.inside, hs.sent, hs.fresh, hs.file, hs.socket⟩
  | ended hne hlog hacc =>
    rw [hlog]
    exact ⟨hs.inside, hs.sent, hs.fresh, hs.file, (by simp [Session.tails])⟩

/-- The session, when it is there, and all the clients. -/
structure Hub.Kept (k : ℕ) (h : Hub) : Prop where
  good : h.Good
  placed : ∀ s, h.sessions[k]? = some s → s.Placed h.log

theorem Hub.Kept.step (hkept : h.Kept k) (hown : owned k h a = true) (hstep : h.step a = some h') :
    h'.Kept k := by
  refine ⟨hkept.good.step hstep, fun s' hs' => ?_⟩
  cases hs : h.sessions[k]? with
  | none =>
    rcases step_session_none hstep hs with heq | ⟨socket, heq⟩
    · rw [heq] at hs'
      cases hs'
    · obtain rfl := Option.some.inj (heq.symm.trans hs')
      exact placed_new socket h'.log
  | some s =>
    obtain ⟨t, ht, hchange⟩ := step_session hstep hs
    obtain rfl := Option.some.inj (ht.symm.trans hs')
    exact (hkept.placed s hs).change hs hown hstep hchange

theorem kept_new (k : ℕ) (log : List UInt8) : (Hub.new log).Kept k where
  good := good_new log
  placed := by intro s hs; cases hs

theorem Session.Placed.reached (hs : s.Placed log) (n : ℕ) : s.reached n ≤ log.length ∧
    slice log s.start (s.out.take n).flatten.length = (s.out.take n).flatten := by
  have hparts : s.out.flatten = (s.out.take n).flatten ++ (s.out.drop n).flatten := by
    rw [← List.flatten_append, List.take_append_drop]
  have hlen : s.out.flatten.length =
      (s.out.take n).flatten.length + (s.out.drop n).flatten.length := by
    rw [hparts, List.length_append]
  have hinside := hs.inside
  constructor
  · unfold Session.reached
    omega
  · have hsent := hs.sent
    rw [hlen, slice_add, hparts] at hsent
    refine (List.append_inj hsent ?_).1
    rw [length_slice]
    omega

/-- The chunks of a span are the log from where the session was to where it is. -/
theorem Session.Placed.span {rx : Receiver} {got : List (List UInt8)} (hs : s.Placed log)
    (hheard : rx.Heard s.out got) : s.reached rx.first ≤ s.reached rx.next ∧
      (rx.span s.out).flatten =
        slice log (s.reached rx.first) (s.reached rx.next - s.reached rx.first) := by
  have hsum : rx.next = rx.first + (rx.next - rx.first) := by
    have hordered := hheard.ordered
    omega
  have hparts : (s.out.take rx.next).flatten =
      (s.out.take rx.first).flatten ++ (rx.span s.out).flatten := by
    rw [hsum, List.take_add, List.flatten_append]
    rfl
  have hlen : s.reached rx.next = s.reached rx.first + (rx.span s.out).flatten.length := by
    unfold Session.reached
    rw [hparts, List.length_append, Nat.add_assoc]
  refine ⟨by omega, ?_⟩
  obtain ⟨-, hsent⟩ := hs.reached rx.next
  rw [hparts, List.length_append, slice_add] at hsent
  have hdiff : s.reached rx.next - s.reached rx.first = (rx.span s.out).flatten.length := by omega
  rw [hdiff]
  refine ((List.append_inj hsent ?_).2).symm
  obtain ⟨hinside, -⟩ := hs.reached rx.first
  exact length_slice hinside

/-- A viewer is given chunks of its session in their order, each once, all those since it subscribed
but the ones that it was told it has missed. They are what the guest wrote, and what was typed is
what the guest is given. -/
theorem viewer_messages (r : Run (Steps Hub.step) (Hub.new log) as h)
    (hc : h.clients[c]? = some (.live v)) : ∃ s got, h.sessions[v.session]? = some s ∧
      v.messages = opening v.backlog ++ got.map Utf8.lossy ∧
      got.Sublist (v.rx.span s.out) ∧ got.length + v.rx.skipped = v.rx.next - v.rx.first ∧
      (v.rx.skipped = 0 → got = v.rx.span s.out) ∧
      (s.pump = .unixPump → s.out.flatten ++ s.stream = as.flatMap (written v.session)) ∧
      (s.tails = true → s.given ++ s.input.flatten = typedIn v.session (Hub.new log) as) := by
  have hgood : h.Good := r.invariant (fun _ _ _ hi hs => Hub.Good.step hi hs) (good_new log)
  obtain ⟨-, s, got, hs, hheard, hmessages⟩ := hgood c _ hc
  have hnew : (Hub.new log).Carries v.session [] [] := ⟨rfl, rfl⟩
  have hcarries := hnew.run r
  unfold Hub.Carries at hcarries
  rw [hs] at hcarries
  have hcarried : s.Carried (as.flatMap (written v.session)) (typedIn v.session (Hub.new log) as) :=
    hcarries
  refine ⟨s, got, hs, hmessages, hheard.sublist, hheard.counted, hheard.all, hcarried.output, ?_⟩
  intro htails
  unfold Session.tails at htails
  rw [Bool.and_eq_true, beq_iff_eq] at htails
  exact hcarried.input htails.1 (by simp [htails.2])

/-- A guest writes, somebody looks at its console and types a line, and the guest goes on. -/
def watching : List Action :=
  [.ensure true, .turn 0 (.begins true), .turn 0 (.output [0x62, 0x6F]), .turn 0 (.read 4096 4096),
    .look, .fetch 0, .attach 0 true, .subscribe 0, .turn 0 (.output [0x6F, 0x74]),
    .turn 0 (.read 4096 4096), .recv 0, .type 0 [0x0A], .turn 0 (.input true)]

def watcher : Viewer :=
  { backlog := { offset := 0, next := 2, text := ['b', 'o'] }
    session := 0
    rx := { first := 1, next := 2, skipped := 0 }
    messages := [['b', 'o'], ['o', 't']] }

theorem watching_watcher :
    (exec Hub.step (Hub.new []) watching).clients[0]? = some (.live watcher) := by
  decide +kernel

theorem viewer_messages_watching : ∃ s got,
    (exec Hub.step (Hub.new []) watching).sessions[0]? = some s ∧
      watcher.messages = opening watcher.backlog ++ got.map Utf8.lossy ∧
      got.Sublist (watcher.rx.span s.out) ∧ got.length + 0 = 2 - 1 ∧
      (0 = 0 → got = watcher.rx.span s.out) ∧
      (s.pump = .unixPump → s.out.flatten ++ s.stream = watching.flatMap (written 0)) ∧
      (s.tails = true → s.given ++ s.input.flatten = typedIn 0 (Hub.new []) watching) :=
  viewer_messages (Run.of_exec (by decide +kernel)) watching_watcher

/-- The console is not dropped, and the guest's record goes on to have a socket, or none. -/
def steady (hasSocket : Bool) : Action → Bool
  | .dropVm => false
  | .ensure socket | .attach _ socket => socket == hasSocket
  | _ => true

theorem Hub.ensure_same (hcurrent : h.current = some k) (hs : h.sessions[k]? = some s) :
    h.ensure s.hasSocket = h := by
  unfold Hub.ensure
  rw [hcurrent, Option.bind_some, hs, Option.any_some, beq_self_eq_true, if_pos rfl]

theorem Hub.send_current {j : ℕ} (hsend : h.send j bytes = some h') : h'.current = h.current := by
  obtain ⟨s, -, -, rfl⟩ := send_eq_some hsend
  rfl

theorem Hub.step_current (hstep : h.step a = some h') (hcurrent : h.current = some k)
    (hs : h.sessions[k]? = some s) (hsteady : steady s.hasSocket a = true) :
    h'.current = some k := by
  cases hcaller : a.caller with
  | some c =>
    obtain ⟨client, hclient, hserved⟩ := serve_cases hcaller hstep
    cases hserved with
    | attach backlog socket =>
      obtain rfl := beq_iff_eq.mp hsteady
      rw [ensure_same hcurrent hs]
      exact hcurrent
    | type v hsend => exact (send_current hsend).trans hcurrent
    | fetch | subscribe | message | lagged | left => exact hcurrent
  | none =>
    cases a with
    | ensure socket =>
      obtain rfl := beq_iff_eq.mp hsteady
      cases hstep
      rw [ensure_same hcurrent hs]
      exact hcurrent
    | dropVm => cases hsteady
    | turn j t =>
      obtain ⟨s₀, hs₀, hstep⟩ := Option.bind_eq_some_iff.mp hstep
      obtain ⟨⟨s', log⟩, hturn, heq⟩ := Option.bind_eq_some_iff.mp hstep
      cases heq
      exact hcurrent
    | hungUp j =>
      obtain ⟨s₀, hs₀, hstep⟩ := Option.bind_eq_some_iff.mp hstep
      split at hstep
      · cases hstep
      · cases hstep
        exact hcurrent
    | write bytes =>
      cases hstep
      cases hsent : h.current.bind (fun j => h.send j bytes) with
      | none => exact hcurrent
      | some t =>
        obtain ⟨j, -, hsent⟩ := Option.bind_eq_some_iff.mp hsent
        exact (send_current hsent).trans hcurrent
    | append | look =>
      cases hstep
      exact hcurrent
    | fetch | attach | subscribe | recv | type | leave => cases hcaller

/-- A session whose task has ended takes no turn and no input. -/
theorem Change.dead (hchange : Change h a h' k s s') (hdead : s.alive = false) : s' = s := by
  cases hchange with
  | same => rfl
  | turn t ha ht =>
    obtain ⟨halive, -⟩ := Session.turn_cases ht
    rw [hdead] at halive
    cases halive
  | input hne halive hlog hacc =>
    rw [hdead] at halive
    cases halive
  | ended => rw [← hdead]

/-- Once the task of the session that the hub has is over, as when the guest's end of the socket is
closed, then until the console is dropped, or the record's socket comes or goes, the hub keeps that
session: nothing more is sent to those who watch it, and nothing that is typed is taken. -/
theorem dead_console (hcurrent : h.current = some k) (hs : h.sessions[k]? = some s)
    (hdead : s.alive = false)
    (r : Run (Guarded (fun _ a => steady s.hasSocket a = true) (Steps Hub.step)) h as h') :
    h'.current = some k ∧ h'.sessions[k]? = some s ∧ typedIn k h as = [] := by
  induction r with
  | nil h => exact ⟨hcurrent, hs, rfl⟩
  | @cons h m h' a as hok _ ih =>
    obtain ⟨hsteady, hstep⟩ := hok
    obtain ⟨s', hs', hchange⟩ := Hub.step_session hstep hs
    obtain rfl := hchange.dead hdead
    obtain ⟨hcurrent', hsame, htyped⟩ := ih (Hub.step_current hstep hcurrent hs hsteady) hs'
    refine ⟨hcurrent', hsame, ?_⟩
    have hgetD : (h.step a).getD h = m := by
      rw [show h.step a = some m from hstep]
      rfl
    unfold typedIn
    rw [hgetD, htyped, List.append_nil]
    cases ht : h.taken a with
    | none => exact Hub.accepted_of_none ht k
    | some taken =>
      obtain ⟨j, bytes⟩ := taken
      rw [Hub.accepted_of_some ht hs, hdead]
      exact if_neg (fun hboth => by cases hboth.2)

/-- The guest closes its end. -/
def closing : List Action := [.ensure true, .turn 0 (.begins true), .turn 0 .closed]

def tried : List Action :=
  [.ensure true, .write [0x0A], .look, .fetch 0, .attach 0 true, .subscribe 0]

theorem dead_console_closing :
    (exec Hub.step (exec Hub.step (Hub.new []) closing) tried).current = some 0 ∧
      (exec Hub.step (exec Hub.step (Hub.new []) closing) tried).sessions[0]? =
        some { Session.new true with pump := .unixPump, alive := false } ∧
      typedIn 0 (exec Hub.step (Hub.new []) closing) tried = [] :=
  dead_console (by decide +kernel) (by decide +kernel) rfl (Run.of_exec_guarded (by decide +kernel))

end Pertisk.Console
