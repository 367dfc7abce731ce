import Pertisk.Ha.World
import Pertisk.Lib.Estate

namespace Pertisk.Ha
open Lib

/-- The guest that a message asks its receiver to run. -/
def Message.runs : Message → Option VmId
  | .run _ record => some record.id
  | _ => none

/-- The guest runs here, or waits at the start gate. -/
def Daemon.Holds (d : Daemon) (v : VmId) : Prop :=
  d.alive v = true ∨ ∃ e ∈ d.starting, e.1 = v

namespace Daemon

variable {d d' : Daemon} {id : VmId} {answerTo : Option NodeId}

theorem holds_beginStart (h : d.beginStart id answerTo = .ok d') (v : VmId) (hv : d'.Holds v) :
    d.Holds v ∨ v = id := by
  unfold beginStart at h
  split at h
  · cases h
  · split at h
    · cases h
    · cases h
      rcases hv with hv | ⟨e, he, rfl⟩
      · exact .inl (.inl hv)
      · rcases List.mem_append.mp he with he | he
        · exact .inl (.inr ⟨e, he, rfl⟩)
        · obtain rfl := List.mem_singleton.mp he
          exact .inr rfl

theorem judge_alive (d : Daemon) (n : NodeId) (now : Nat) :
    (d.judge n now).alive = d.alive := by
  unfold judge
  dsimp only
  split
  · split <;> rfl
  · split <;> rfl

theorem judge_starting (d : Daemon) (n : NodeId) (now : Nat) :
    (d.judge n now).starting = d.starting := by
  unfold judge
  dsimp only
  split
  · split <;> rfl
  · split <;> rfl

end Daemon

namespace World

variable {w₀ s t u : World} {action : Action} {d : Daemon} {n m : NodeId} {v : VmId}

/-- A request to run the guest is on its way to the node. -/
def Asked (s : World) (v : VmId) (n : NodeId) : Prop :=
  ∃ p ∈ s.net, p.dest = n ∧ p.message.runs = some v

def Relies (s : World) (v : VmId) (n : NodeId) : Prop := (s.daemon n).Holds v ∨ s.Asked v n

/-- The start of the guest is not over yet on some node. -/
def Pending (s : World) (v : VmId) : Prop :=
  ∃ n, (∃ e ∈ (s.daemon n).starting, e.1 = v) ∨ s.Asked v n

/-- Only the node that was asked last to run a guest runs it, or will. -/
def Valid (s : World) : Prop := ∀ v, Sole (s.assigned v) (s.Relies v)

/-- A cluster at rest: one inventory, and each guest that runs is recorded where it runs. -/
structure Start (w : World) (origin : Replication.Inventory) : Prop where
  self : ∀ n, (w.daemon n).node.cluster.selfId = n
  large : ∀ n, 3 ≤ (w.daemon n).node.cluster.memberCount
  shared : ∀ n, Replication.ofNode (w.daemon n).node = origin
  placed : ∀ n v, (w.daemon n).alive v = true → w.assigned v = some n ∧
    ∃ record, origin.store.get v = some record ∧ record.nodeId = some n ∧ record.state = .running
  idle : ∀ n, (w.daemon n).starting = [] ∧ (w.daemon n).candidates = [] ∧ (w.daemon n).pass = none
  silent : w.net = []

/-- A pass asks for a guest of an owner it takes for lost to be run elsewhere. -/
structure Handover where
  guest : VmId
  owner : NodeId
  dest : NodeId
  deriving DecidableEq

def handsOver (s : World) : Action → Option Handover
  | .recoverNext n =>
    match (s.daemon n).pass with
    | some { loads, rest := vm :: _, waiting := .nothing } =>
      match recovery (s.daemon n).node loads vm with
      | .run owner dest _ => some ⟨vm.id, owner, dest⟩
      | _ => none
    | _ => none
  | _ => none

/-- The guest that a step looks at to start it here. -/
def autostarts (s : World) : Action → Option (VmId × NodeId)
  | .autostartNext n _ => ((s.daemon n).candidates.head?).map (fun vm => (vm.id, n))
  | _ => none

/-- A node has fenced its guests by the time another one takes it for lost. -/
def Timely (s : World) (action : Action) : Prop :=
  ∀ h ∈ s.handsOver action, (s.daemon h.owner).alive h.guest = false

instance (s : World) (action : Action) : Decidable (s.Timely action) :=
  inferInstanceAs (Decidable (∀ h ∈ s.handsOver action, _))

/-- A guest is handed over by one node only: it was given last to the destination itself, or to
the lost owner and no start of it is pending. And it is autostarted only where it was given
last. -/
def Careful (s : World) (action : Action) : Prop :=
  (∀ h ∈ s.handsOver action, s.assigned h.guest = some h.dest ∨
    (s.assigned h.guest = none ∨ s.assigned h.guest = some h.owner) ∧ ¬ s.Pending h.guest) ∧
  ∀ h ∈ s.autostarts action, s.assigned h.1 = none ∨ s.assigned h.1 = some h.2

/-- Nobody comes to run a guest, or to be asked to. -/
structure Eases (s t : World) : Prop where
  assigned : t.assigned = s.assigned
  relies : ∀ v n, t.Relies v n → s.Relies v n

namespace Eases

theorem refl (s : World) : Eases s s := ⟨rfl, fun _ _ h => h⟩

theorem trans (h : Eases s t) (g : Eases t u) : Eases s u :=
  ⟨g.assigned.trans h.assigned, fun v n hu => h.relies v n (g.relies v n hu)⟩

theorem valid (h : Eases s t) (hs : s.Valid) : t.Valid := by
  intro v
  rw [h.assigned]
  exact (hs v).mono (h.relies v)

/-- A step of one node that takes messages in and sends no run requests. -/
theorem of_local (hassigned : t.assigned = s.assigned)
    (hdaemon : ∀ m, m ≠ n → t.daemon m = s.daemon m)
    (hholds : ∀ v, (t.daemon n).Holds v → s.Relies v n)
    (hnet : ∀ p ∈ t.net, p.message.runs ≠ none → p ∈ s.net) : Eases s t := by
  refine ⟨hassigned, fun v m hrel => ?_⟩
  rcases hrel with hholds' | ⟨p, hp, hdest, hruns⟩
  · by_cases hm : m = n
    · subst hm
      exact hholds v hholds'
    · rw [hdaemon m hm] at hholds'
      exact .inl hholds'
  · exact .inr ⟨p, hnet p hp (by rw [hruns]; exact Option.some_ne_none v), hdest, hruns⟩

theorem setDaemon (h : ∀ v, d.Holds v → s.Relies v n) : Eases s (s.setDaemon n d) :=
  .of_local rfl (fun _ hm => Function.update_of_ne hm _ _)
    (fun v hv => h v (by simpa [World.setDaemon] using hv)) (fun _ hp _ => hp)

theorem send {packets : List Packet} (h : Eases s t)
    (hp : ∀ p ∈ packets, p.message.runs = none) : Eases s (t.send packets) := by
  refine h.trans (.of_local (n := 0) rfl (fun _ _ => rfl) (fun _ hv => .inl hv) ?_)
  intro p hmem hruns
  rcases List.mem_append.mp hmem with hmem | hmem
  · exact hmem
  · exact absurd (hp p hmem) hruns

theorem replicate (h : Eases s t) (n : NodeId) : Eases s (t.replicate n) := by
  refine h.send (fun p hp => ?_)
  obtain ⟨dest, -, rfl⟩ := List.mem_map.mp hp
  rfl

theorem answer {id : VmId} {answerTo : Option NodeId} {result : Except String VmRecord}
    (h : Eases s t) : Eases s (t.answer n id answerTo result) := by
  unfold World.answer
  split
  · exact h
  · refine h.send (fun p hp => ?_)
    obtain rfl := List.mem_singleton.mp hp
    rfl

/-- The usual change of a daemon: guests stop here, and none comes to wait at the gate. -/
theorem daemon (halive : ∀ v, d.alive v = true → (s.daemon n).alive v = true)
    (hstarting : d.starting = (s.daemon n).starting) : Eases s (s.setDaemon n d) := by
  refine .setDaemon (fun v hv => .inl ?_)
  rcases hv with hv | hv
  · exact .inl (halive v hv)
  · rw [hstarting] at hv
    exact .inr hv

end Eases

/-- The same for the invariant at once. -/
theorem Valid.daemon (hs : s.Valid)
    (halive : ∀ v, d.alive v = true → (s.daemon n).alive v = true)
    (hstarting : d.starting = (s.daemon n).starting) : (s.setDaemon n d).Valid :=
  (Eases.daemon halive hstarting).valid hs

theorem alive_of_setAlive (d : Daemon) (id v : VmId) (h : (d.setAlive id false).alive v = true) :
    d.alive v = true := by
  unfold Daemon.setAlive at h
  dsimp only at h
  by_cases hv : v = id
  · subst hv
    rw [Function.update_self] at h
    cases h
  · rwa [Function.update_of_ne hv] at h

theorem eases_onGuestExited (s : World) (n : NodeId) (id : VmId) :
    Eases s (s.onGuestExited n id) := by
  unfold onGuestExited
  dsimp only
  split
  · exact .refl s
  · split
    · refine .replicate ?_ n
      exact .daemon (fun v hv => alive_of_setAlive _ id v hv) rfl
    · exact .refl s

theorem eases_reconcileNext (s : World) (n : NodeId) (vm : VmRecord) (rest : List VmRecord) :
    Eases s (s.reconcileNext n vm rest) := by
  unfold reconcileNext
  dsimp only
  split
  · exact .daemon (fun v hv => alive_of_setAlive _ vm.id v hv) rfl
  · split
    · refine .trans (.daemon ?_ ?_) (eases_onGuestExited _ n vm.id)
      · split <;> exact fun v hv => hv
      · split <;> rfl
    · exact .daemon (fun v hv => hv) rfl

theorem eases_runAnswered (s : World) (n : NodeId) (pass : Pass) (owner : NodeId) (vm : VmRecord)
    (result : Except String VmRecord) : Eases s (s.runAnswered n pass owner vm result) := by
  unfold runAnswered
  cases result with
  | error text => exact .daemon (fun v hv => hv) rfl
  | ok started =>
    refine .send (.daemon (fun v hv => hv) rfl) (fun p hp => ?_)
    obtain rfl := List.mem_singleton.mp hp
    rfl

theorem eases_finishStart {i : Nat} {id : VmId} {answerTo : Option NodeId}
    (hi : (s.daemon n).starting[i]? = some (id, answerTo)) (outcome : Outcome) :
    Eases s ((s.setDaemon n { s.daemon n with
      starting := (s.daemon n).starting.eraseIdx i }).finishStart n id answerTo outcome) := by
  have hgone : ∀ v, (∃ e ∈ (s.daemon n).starting.eraseIdx i, e.1 = v) → s.Relies v n := by
    rintro v ⟨e, he, hv⟩
    exact .inl (.inr ⟨e, List.mem_of_mem_eraseIdx he, hv⟩)
  have hsame : ∀ d : Daemon, (∀ v, d.alive v = true → (s.daemon n).alive v = true ∨ v = id) →
      d.starting = (s.daemon n).starting.eraseIdx i → Eases s (s.setDaemon n d) := by
    intro d halive hstarting
    refine .setDaemon (fun v hv => ?_)
    rcases hv with hv | hv
    · rcases halive v hv with hv | rfl
      · exact .inl (.inl hv)
      · exact .inl (.inr ⟨_, List.mem_of_getElem? hi, rfl⟩)
    · rw [hstarting] at hv
      exact hgone v hv
  have htwice : ∀ d d' : Daemon, (s.setDaemon n d).setDaemon n d' = s.setDaemon n d' := by
    intro d d'
    simp [World.setDaemon]
  have herased := hsame { s.daemon n with starting := (s.daemon n).starting.eraseIdx i }
    (fun v hv => .inl hv) rfl
  unfold finishStart
  rw [show (s.setDaemon n { s.daemon n with
    starting := (s.daemon n).starting.eraseIdx i }).daemon n = { s.daemon n with
    starting := (s.daemon n).starting.eraseIdx i } from Function.update_self ..]
  dsimp only
  split
  · exact herased.answer
  · split
    · exact herased.answer
    · cases outcome with
      | refused text => exact herased.answer
      | failed created text =>
        dsimp only
        rw [htwice]
        exact .answer (hsame _ (fun v hv => .inl hv) rfl)
      | started created pid =>
        dsimp only
        rw [htwice]
        refine .answer (.replicate (hsame _ (fun v hv => ?_) rfl) n)
        by_cases hv' : v = id
        · exact .inr hv'
        · left
          simpa [Daemon.bump, Daemon.upsertVm, Daemon.setAlive, hv'] using hv

/-- The request is off the net, and its guest is at the gate instead. -/
theorem eases_applyRun {i : Nat} {sender : NodeId} {record : VmRecord}
    (hi : s.net[i]? = some ⟨n, .run sender record⟩) :
    Eases s ({ s with net := s.net.eraseIdx i }.applyRun n sender record) := by
  have hasked : s.Relies record.id n := .inr ⟨_, List.mem_of_getElem? hi, rfl, rfl⟩
  have hset : ∀ d : Daemon, (∀ v, d.Holds v → (s.daemon n).Holds v ∨ v = record.id) →
      Eases s (setDaemon { s with net := s.net.eraseIdx i } n d) := by
    intro d hd
    refine .of_local rfl (fun _ hm => Function.update_of_ne hm _ _) (fun v hv => ?_)
      (fun p hp _ => List.mem_of_mem_eraseIdx hp)
    rcases hd v (by simpa [setDaemon] using hv) with hv | rfl
    · exact .inl hv
    · exact hasked
  have hready : ∀ v, (((s.daemon n).upsertVm (record.toRun n s.runDir)).setAlive record.id
      false).Holds v → (s.daemon n).Holds v := by
    intro v hv
    rcases hv with hv | hv
    · exact .inl (alive_of_setAlive _ record.id v hv)
    · exact .inr hv
  unfold applyRun
  dsimp only
  split
  · exact .answer (hset _ (fun v hv => .inl hv))
  · split
    · rename_i d hd
      exact hset d (fun v hv => (Daemon.holds_beginStart hd v hv).imp_left (hready v))
    · exact .answer (hset _ (fun v hv => .inl (hready v hv)))

theorem eases_receive {i : Nat} {p : Packet} (hi : s.net[i]? = some p) :
    Eases s ({ s with net := s.net.eraseIdx i }.receive p) := by
  have herased : Eases s { s with net := s.net.eraseIdx i } :=
    .of_local (n := 0) rfl (fun _ _ => rfl) (fun _ hv => .inl hv)
      (fun p hp _ => List.mem_of_mem_eraseIdx hp)
  obtain ⟨n, message⟩ := p
  cases message with
  | inventory body =>
    refine .send (herased.trans (.daemon (fun v hv => hv) rfl)) (fun p hp => ?_)
    obtain ⟨r, -, rfl⟩ := List.mem_map.mp hp
    rfl
  | run sender record => exact eases_applyRun hi
  | ran sender id result =>
    simp only [receive]
    split
    · split
      · exact herased.trans (eases_runAnswered ..)
      · exact herased
    · exact herased
  | drop record =>
    exact herased.trans (.daemon (fun v hv => alive_of_setAlive _ record.id v hv) rfl)

theorem Start.valid {origin : Replication.Inventory} (h : w₀.Start origin) : w₀.Valid := by
  intro v n hrel
  rcases hrel with (halive | ⟨e, he, -⟩) | ⟨p, hp, -⟩
  · exact (h.placed n v halive).1
  · rw [(h.idle n).1] at he
    cases he
  · rw [h.silent] at hp
    cases hp

/-- The guest is given to `m`, and at most `m` comes to rely on it. -/
theorem Valid.give (hs : s.Valid) (hassigned : t.assigned = Function.update s.assigned v (some m))
    (hrelies : ∀ u n, t.Relies u n → s.Relies u n ∨ u = v ∧ n = m)
    (hok : s.assigned v = some m ∨ ∀ n, s.Relies v n → n = m) : t.Valid := by
  intro u
  rw [hassigned]
  by_cases hu : u = v
  · subst hu
    rw [Function.update_self]
    exact (hs u).give (fun n hn => (hrelies u n hn).imp_right And.right) hok
  · rw [Function.update_of_ne hu]
    exact (hs u).mono (fun n hn => (hrelies u n hn).resolve_right (fun h => hu h.1))

/-- When no start is pending, a guest that does not run on its owner runs nowhere. -/
theorem Valid.idle (hs : s.Valid) {owner : NodeId}
    (howner : s.assigned v = none ∨ s.assigned v = some owner) (hpending : ¬ s.Pending v)
    (hfenced : (s.daemon owner).alive v = false) (n : NodeId) : ¬ s.Relies v n := by
  intro hrel
  have hgiven := hs v n hrel
  rcases howner with hnone | hsome
  · rw [hnone] at hgiven
    cases hgiven
  · obtain rfl : owner = n := Option.some.inj (hsome.symm.trans hgiven)
    rcases hrel with (halive | hstarting) | hasked
    · rw [hfenced] at halive
      cases halive
    · exact hpending ⟨owner, .inl hstarting⟩
    · exact hpending ⟨owner, .inr hasked⟩

/-- What is sent to the destination is the guest itself. -/
theorem recovery_id {node : Node} {loads : List NodeLoad} {vm moving : VmRecord}
    {owner dest : NodeId} (h : recovery node loads vm = .run owner dest moving) :
    moving.id = vm.id := by
  unfold recovery at h
  split at h
  · cases h
  · split at h
    · cases h
    · split at h
      · cases h
      · split at h
        · cases h
        · dsimp only at h
          split at h
          · cases h
          · split at h
            · cases h
            · cases h
              rfl

theorem step_recoverNext (hs : s.Valid) {pass : Pass} (hpass : (s.daemon n).pass = some pass)
    (hnothing : pass.waiting = .nothing) (htimely : s.Timely (.recoverNext n))
    (hcareful : s.Careful (.recoverNext n)) : (s.recoverNext n pass).Valid := by
  obtain ⟨loads, rest, waiting⟩ := pass
  obtain rfl : waiting = .nothing := hnothing
  unfold recoverNext
  cases rest with
  | nil =>
    refine Eases.valid (.replicate ?_ n) hs
    exact .daemon (fun v hv => hv) rfl
  | cons vm rest =>
    dsimp only
    cases hrec : recovery (s.daemon n).node loads vm with
    | skip =>
      dsimp only
      exact hs.daemon (fun v hv => hv) rfl
    | fail failed =>
      dsimp only
      exact hs.daemon (fun v hv => hv) rfl
    | run owner dest moving =>
      dsimp only
      have hover : s.handsOver (.recoverNext n) = some ⟨vm.id, owner, dest⟩ := by
        simp [handsOver, hpass, hrec]
      refine hs.give rfl (fun u k hrel => ?_) ?_
      · rcases hrel with hholds | ⟨p, hp, hdest, hruns⟩
        · left
          have hwait : Eases s (s.setDaemon n { s.daemon n with
              pass := some ⟨loads, vm :: rest, .run owner dest⟩ }) :=
            .daemon (fun v hv => hv) rfl
          exact hwait.relies u k (.inl hholds)
        · rcases List.mem_append.mp hp with hp | hp
          · exact .inl (.inr ⟨p, hp, hdest, hruns⟩)
          · obtain rfl := List.mem_singleton.mp hp
            right
            refine ⟨?_, hdest.symm⟩
            rw [← recovery_id hrec]
            exact (Option.some.inj hruns).symm
      · rcases hcareful.1 _ hover with hdest | ⟨howner, hpending⟩
        · exact .inl hdest
        · right
          intro k hk
          exact absurd hk (hs.idle howner hpending (htimely _ hover) k)

theorem step_autostartNext (hs : s.Valid) {vm : VmRecord} {rest : List VmRecord}
    (hcandidates : (s.daemon n).candidates = vm :: rest) {fits : Bool}
    (hcareful : s.Careful (.autostartNext n fits)) :
    (s.autostartNext n vm rest fits).Valid := by
  have hlocal : ∀ d : Daemon, d.alive = (s.daemon n).alive →
      d.starting = (s.daemon n).starting → (s.setDaemon n d).Valid := by
    intro d halive hstarting
    exact hs.daemon (fun v hv => halive ▸ hv) hstarting
  unfold autostartNext
  dsimp only
  split
  · exact hlocal _ rfl rfl
  · split
    · exact hlocal _ rfl rfl
    · split
      · exact hlocal _ rfl rfl
      · split
        · rename_i d hd
          have howner := hcareful.2 (vm.id, n) (by simp [autostarts, hcandidates])
          refine hs.give rfl (fun u k hrel => ?_) ?_
          · rcases hrel with hholds | hasked
            · by_cases hk : k = n
              · subst hk
                rw [show ((s.setDaemon k d).assign vm.id k).daemon k = d from
                  Function.update_self ..] at hholds
                rcases Daemon.holds_beginStart hd u hholds with hold | rfl
                · exact .inl (.inl hold)
                · exact .inr ⟨rfl, rfl⟩
              · rw [show ((s.setDaemon n d).assign vm.id n).daemon k = s.daemon k from
                  Function.update_of_ne hk ..] at hholds
                exact .inl (.inl hholds)
            · exact .inl (.inr hasked)
          · rcases howner with hnone | hsome
            · right
              intro k hk
              have hgiven := hs _ k hk
              rw [hnone] at hgiven
              cases hgiven
            · exact .inl hsome
        · exact hlocal _ rfl rfl

theorem step_valid (hs : s.Valid) (htimely : s.Timely action) (hcareful : s.Careful action)
    (h : s.step action = some t) : t.Valid := by
  cases action with
  | advance ms =>
    cases h
    exact hs
  | sendHeartbeats n =>
    cases h
    refine Eases.valid (.send (.daemon (fun v hv => hv) rfl) (fun p hp => ?_)) hs
    obtain ⟨dest, -, rfl⟩ := List.mem_map.mp hp
    rfl
  | judge n =>
    cases h
    refine hs.daemon (fun v hv => ?_) ?_
    · rwa [Daemon.judge_alive] at hv
    · exact Daemon.judge_starting ..
  | fenceNext n =>
    simp only [step] at h
    split at h
    · cases h
    · rename_i vm rest hfencing
      cases h
      exact hs.daemon (fun v hv => alive_of_setAlive _ vm.id v hv) rfl
  | reconcile n =>
    cases h
    exact hs.daemon (fun v hv => hv) rfl
  | reconcileNext n =>
    simp only [step] at h
    split at h
    · cases h
    · cases h
      exact (eases_reconcileNext ..).valid hs
  | recover n =>
    simp only [step, Option.ite_none_right_eq_some, Option.some.injEq] at h
    obtain ⟨-, rfl⟩ := h
    exact hs.daemon (fun v hv => hv) rfl
  | recoverNext n =>
    simp only [step] at h
    split at h
    · rename_i loads rest hpass
      cases h
      exact step_recoverNext hs hpass rfl htimely hcareful
    · cases h
  | giveUp n text =>
    simp only [step] at h
    split at h
    · cases h
      exact (eases_runAnswered ..).valid hs
    · cases h
  | dropped n =>
    simp only [step] at h
    split at h
    · cases h
      exact hs.daemon (fun v hv => hv) rfl
    · cases h
  | autostart n =>
    simp only [step, Option.ite_none_right_eq_some, Option.some.injEq] at h
    obtain ⟨-, rfl⟩ := h
    exact hs.daemon (fun v hv => hv) rfl
  | autostartNext n fits =>
    simp only [step] at h
    split at h
    · cases h
    · rename_i vm rest hcandidates
      cases h
      exact step_autostartNext hs hcandidates hcareful
  | finishStart n i outcome =>
    simp only [step] at h
    split at h
    · cases h
    · rename_i id answerTo hi
      cases h
      exact (eases_finishStart hi outcome).valid hs
  | exit n id =>
    cases h
    exact hs.daemon (fun v hv => alive_of_setAlive _ id v hv) rfl
  | exitWatch n id =>
    simp only [step] at h
    split at h
    · cases h
    · cases h
      exact (eases_onGuestExited ..).valid hs
  | deliver i =>
    simp only [step] at h
    split at h
    · cases h
    · rename_i p hi
      cases h
      exact (eases_receive hi).valid hs
  | lose i =>
    cases h
    refine Eases.valid ?_ hs
    exact .of_local (n := 0) rfl (fun _ _ => rfl) (fun _ hv => .inl hv)
      (fun p hp _ => List.mem_of_mem_eraseIdx hp)

theorem run_valid {actions : List Action}
    (r : Run (Guarded (fun s a => s.Timely a ∧ s.Careful a) (Steps step)) w₀ actions s) (h0 : w₀.Valid) :
    s.Valid :=
  r.invariant (I := Valid) (fun _ _ _ hs h => step_valid hs h.1.1 h.1.2 h.2) h0

/-- While one node at a time hands a guest over, it never runs on two nodes. -/
theorem runs_once {origin : Replication.Inventory} (h0 : w₀.Start origin) {actions : List Action}
    (r : Run (Guarded (fun s a => s.Timely a ∧ s.Careful a) (Steps step)) w₀ actions s)
    (hne : m ≠ n) : ¬ ((s.daemon m).alive v = true ∧ (s.daemon n).alive v = true) := by
  rintro ⟨hm, hn⟩
  exact hne ((run_valid r h0.valid v).unique (.inl (.inl hm)) (.inl (.inl hn)))

/-- A guest that runs on node 1, and one each for nodes 2 and 3 to start at boot. -/
def threeVms : List VmRecord :=
  [{ id := .numeric 100, spec := { name := "db" }, state := .running, nodeId := some 1 },
    { id := .numeric 102, spec := { name := "web", autostart := true }, state := .stopped,
      nodeId := some 2 },
    { id := .numeric 103, spec := { name := "mail", autostart := true }, state := .stopped,
      nodeId := some 3 }]

/-- Three equal nodes that have all heard from each other at time 0. -/
def trio : World where
  now := 0
  runDir := "/run/pertisk"
  daemon id :=
    { node :=
        { (Node.fresh id).replaceAll threeVms with
          cluster := { (Node.fresh id).cluster with
            members := Table.ofList ([1, 2, 3].map (fun m => ⟨m,
              { id := m, name := "node", peerUrl := "", cpus := 4, memoryMib := 16384 }, 0⟩)) } }
      alive := fun v => decide (id = 1 ∧ v = .numeric 100) }
  net := []
  assigned v := if v = .numeric 100 then some 1 else none

theorem trio_start : trio.Start ⟨Table.ofList threeVms, Table.empty⟩ where
  self _ := rfl
  large _ := Nat.le_refl 3
  shared _ := rfl
  placed n v h := by
    obtain ⟨rfl, rfl⟩ : n = 1 ∧ v = .numeric 100 := by simpa [trio] using h
    exact ⟨rfl, _, rfl, rfl, rfl⟩
  idle _ := ⟨rfl, rfl, rfl⟩
  silent := rfl

/-- A tick, from its look at the quorum to where `recover_ha` has read the inventory. -/
def tick (n : NodeId) : List Action :=
  [.judge n, .reconcile n, .reconcileNext n, .reconcileNext n, .reconcileNext n, .recover n]

/-- Node 1 is cut off and fences itself, and node 2 takes it for lost. -/
def cutOff : List Action :=
  [.advance 9000, .sendHeartbeats 2, .lose 0, .deliver 0, .deliver 0, .advance 2000, .judge 1,
    .fenceNext 1] ++ tick 2

/-- Steps that give no guest to a node. -/
def Quiet (s : World) (action : Action) : Prop :=
  (s.handsOver action).isNone ∧ (s.autostarts action).isNone

instance (s : World) (action : Action) : Decidable (s.Quiet action) :=
  inferInstanceAs (Decidable (_ ∧ _))

/-- The lost owner had the guest last, and no start of it is pending. -/
theorem careful_handover {g : Handover} (hover : s.handsOver action = some g)
    (hauto : s.autostarts action = none) (howner : s.assigned g.guest = some g.owner)
    (hpending : ¬ s.Pending g.guest) : s.Careful action := by
  refine ⟨fun g' hg => ?_, fun g' hg => ?_⟩
  · obtain rfl := Option.some.inj (hover.symm.trans hg)
    exact .inr ⟨.inr howner, hpending⟩
  · rw [hauto] at hg
    cases hg

theorem run_of_quiet {actions : List Action} (r : Run (Guarded Quiet (Steps step)) s actions t) :
    Run (Guarded (fun s a => s.Timely a ∧ s.Careful a) (Steps step)) s actions t := by
  refine r.mono (fun s action t h => ?_)
  obtain ⟨⟨hover, hauto⟩, hstep⟩ := h
  rw [Option.isNone_iff_eq_none] at hover hauto
  refine ⟨⟨fun g hg => ?_, fun g hg => ?_, fun g hg => ?_⟩, hstep⟩
  · rw [hover] at hg
    cases hg
  · rw [hover] at hg
    cases hg
  · rw [hauto] at hg
    cases hg

theorem runs_once_recovered :
    let s := exec step (exec step (exec step trio cutOff) [.recoverNext 2])
      [.deliver 0, .finishStart 2 0 (.started none none)]
    ¬ ((s.daemon 1).alive (.numeric 100) = true ∧ (s.daemon 2).alive (.numeric 100) = true) := by
  intro s
  have hcut : Run (Guarded (fun s a => s.Timely a ∧ s.Careful a) (Steps step)) trio cutOff
      (exec step trio cutOff) := run_of_quiet (.of_exec_guarded (by decide +kernel))
  have hassigned : (exec step trio cutOff).assigned (.numeric 100) = some 1 := by decide +kernel
  have hpending : ¬ (exec step trio cutOff).Pending (.numeric 100) := by
    rintro ⟨n, hn⟩
    have hrel : (exec step trio cutOff).Relies (.numeric 100) n := hn.imp_left Or.inr
    have hgiven := run_valid hcut trio_start.valid (.numeric 100) n hrel
    obtain rfl : 1 = n := Option.some.inj (hassigned.symm.trans hgiven)
    have hstarting : ((exec step trio cutOff).daemon 1).starting = [] := by decide +kernel
    have hnet : (exec step trio cutOff).net.length = 0 := by decide +kernel
    rcases hn with ⟨e, he, -⟩ | ⟨p, hp, -⟩
    · rw [hstarting] at he
      cases he
    · rw [List.length_eq_zero_iff.mp hnet] at hp
      cases hp
  have hover : (exec step trio cutOff).handsOver (.recoverNext 2) =
      some ⟨.numeric 100, 1, 2⟩ := by decide +kernel
  have hcareful := careful_handover hover rfl hassigned hpending
  have hhand : Run (Guarded (fun s a => s.Timely a ∧ s.Careful a) (Steps step))
      (exec step trio cutOff) [.recoverNext 2]
      (exec step (exec step trio cutOff) [.recoverNext 2]) :=
    .one_exec ⟨by decide +kernel, hcareful⟩ (by decide +kernel)
  have hstart : Run (Guarded (fun s a => s.Timely a ∧ s.Careful a) (Steps step))
      (exec step (exec step trio cutOff) [.recoverNext 2])
      [.deliver 0, .finishStart 2 0 (.started none none)] s :=
    run_of_quiet (.of_exec_guarded (by decide +kernel))
  exact runs_once trio_start (hcut.append (hhand.append hstart)) (by decide)

/-- The first tick of a node, with no heartbeat through: it starts the guest of its own. -/
def boot (n : NodeId) : List Action :=
  [.sendHeartbeats n, .lose 0, .lose 0] ++ tick n ++
    [.recoverNext n, .recoverNext n, .recoverNext n, .recoverNext n, .autostart n,
      .autostartNext n true, .finishStart n 0 (.started none none)]

/-- Nodes 2 and 3 each know of their own new load only, so each sends the guest to the other. -/
def twoPasses : List Action :=
  boot 2 ++ boot 3 ++
    [.advance 9000, .sendHeartbeats 2, .lose 0, .deliver 0, .deliver 0, .sendHeartbeats 3, .lose 0,
      .deliver 0, .deliver 0, .advance 2000, .judge 1, .fenceNext 1] ++
    tick 2 ++ [.recoverNext 2] ++ tick 3 ++ [.recoverNext 3] ++
    [.deliver 0, .deliver 0, .finishStart 3 0 (.started none none),
      .finishStart 2 0 (.started none none)]

theorem runs_twice :
    ¬ ∀ (w₀ s : World) (origin : Replication.Inventory) (actions : List Action) (v : VmId)
      (m n : NodeId), w₀.Start origin → Run (Guarded Timely (Steps step)) w₀ actions s →
      (s.daemon m).alive v = true → (s.daemon n).alive v = true → m = n := by
  intro h
  have heq := h trio (exec step trio twoPasses) _ twoPasses (.numeric 100) 2 3 trio_start
    (.of_exec_guarded (by decide +kernel)) (by decide +kernel) (by decide +kernel)
  exact absurd heq (by decide)

end World

end Pertisk.Ha
