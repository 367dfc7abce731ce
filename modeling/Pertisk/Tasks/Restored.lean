import Mathlib.Logic.Relation
import Pertisk.Tasks.Autostart

namespace Pertisk.Tasks
open Lib

variable {s t : Host} {p q : Phase} {m : Move Host Phase} {i : ℕ} {a : Answer} {r : VmRecord}
  {c : Caller} {id : VmId} {elapsed since : Nat} {todo : List VmRecord} {quorum : Bool}

theorem stage_beside (hbeside : Beside s t id) (h : Stage quorum since s id p) :
    Stage quorum since t id p := by
  have hstarts : ∀ {started : VmId} {c : Caller} {own own' : Prop}, (own → own') →
      Starts since s id started c own → Starts since t id started c own' := by
    intro started c own own' hown hs
    by_cases hid : started = id
    · obtain ⟨elapsed, todo, rfl, helapsed, ho, hin⟩ := starts_own hid hs
      exact starts_go helapsed hid (hown ho) (hbeside.autostarted.mpr hin)
    · exact hs.beside hid hid hbeside
  have hmarks : ∀ {r : VmRecord} {todo : List VmRecord} {tick : Bool},
      Stage quorum since s id (.marking r (.reconcile todo tick)) →
      Stage quorum since t id (.marking r (.reconcile todo tick)) := by
    rintro r todo tick ⟨htick, hearly, hstage⟩
    refine ⟨htick, hbeside.early hearly, ?_⟩
    split
    · rename_i hid
      rw [if_pos hid] at hstage
      obtain ⟨hout, hnew, hrestore, hmine, htemplate⟩ := hstage
      refine ⟨hout, fun hin => hnew (hbeside.autostarted.mp hin), hbeside.restore hrestore, ?_,
        htemplate⟩
      rw [Host.mine, hbeside.self]
      exact hmine
    · rename_i hid
      rw [if_neg hid] at hstage
      exact hbeside.pending hstage
  cases p with
  | reconcile todo tick => exact ⟨h.1, hbeside.early h.2.1, hbeside.pending h.2.2⟩
  | exited id' f =>
    cases f with
    | watch => exact h.elim
    | reconcile rest tick =>
      obtain ⟨htick, hearly, hstage⟩ := h
      refine ⟨htick, hbeside.early hearly, ?_⟩
      split
      · rename_i hid
        rw [if_pos hid] at hstage
        obtain ⟨hout, hnew, hrestore, r, hget, hruns, htemplate⟩ := hstage
        exact ⟨hout, fun hin => hnew (hbeside.autostarted.mp hin), hbeside.restore hrestore, r,
          hbeside.get.trans hget, runsHere_self hbeside.self hruns, htemplate⟩
      · rename_i hid
        rw [if_neg hid] at hstage
        exact hbeside.pending hstage
  | marking r f =>
    cases f with
    | watch => exact h.elim
    | reconcile rest tick => exact hmarks h
  | marked r f =>
    cases f with
    | watch => exact h.elim
    | reconcile rest tick => exact hmarks h
  | autostart elapsed todo => exact ⟨h.1, hbeside.queued h.2⟩
  | taken r elapsed todo =>
    refine ⟨h.1, ?_⟩
    have hstage := h.2
    split
    · rename_i hid
      rw [if_pos hid] at hstage
      exact ⟨hbeside.idle hstage.1, hbeside.autostarted.mpr hstage.2⟩
    · rename_i hid
      rw [if_neg hid] at hstage
      exact hbeside.queued hstage
  | start id' c => exact hstarts hbeside.idle h
  | waiting id' c => exact hstarts hbeside.idle h
  | prepared r c => exact hstarts (idle_congr hbeside.self) h
  | reread r c => exact hstarts (idle_congr hbeside.self) h
  | checking r c => exact hstarts (idle_congr hbeside.self) h
  | starting r c => exact hstarts (idle_congr hbeside.self) h
  | created r c => exact hstarts (fun ho => ⟨idle_congr hbeside.self ho.1, hbeside.lives ho.2⟩) h
  | launched r c =>
    exact hstarts (fun ho => ⟨runsHere_self hbeside.self ho.1, hbeside.lives ho.2⟩) h
  | _ => exact h.elim

theorem done_beside (hbeside : Beside s t id) (h : Done quorum since s id) :
    Done quorum since t id := by
  refine ⟨hbeside.rests h.1, fun hquorum => ?_⟩
  rcases h.2 hquorum with hup | ⟨r, hget, hlate⟩
  · exact .inl (hbeside.up hup)
  · exact .inr ⟨r, hbeside.get.trans hget, hlate⟩

@[simp] theorem asks_created (c : Caller) (s : Host) (id : VmId) :
    (c.asks s id).createdThisBoot = s.createdThisBoot := by cases c <;> rfl

@[simp] theorem upsert_created (s : Host) (r : VmRecord) :
    (s.upsert r).createdThisBoot = s.createdThisBoot := rfl

@[simp] theorem kill_created (s : Host) (id : VmId) :
    (s.kill id).createdThisBoot = s.createdThisBoot := rfl

/-- No task forgets or adds a guest that was created since the boot. -/
theorem turn_created (h : s.turn i a p = some m) :
    m.shared.createdThisBoot = s.createdThisBoot := by
  cases p with
  | reconcile todo tick =>
    cases todo with
    | nil =>
      cases h
      rfl
    | cons r todo =>
      simp only [Host.turn, Host.passTurn] at h
      split at h
      · cases h
        dsimp only
        split <;> rfl
      · split at h
        · cases h
          dsimp only
          split <;> rfl
        · cases h
          rfl
  | _ =>
    simp only [Host.turn, Host.startTurn, Host.stopTurn, Host.exitTurn, Host.passTurn] at h
    repeat' split at h
    all_goals cases h <;> simp

namespace Daemon

variable {d d' d₁ d₂ d₃ : Daemon} {guests : List VmId} {as : List Action}

/-- The steps of the tick that this task is, while the hypervisor does what it is asked and there is
room; time passes, and the gate opens. -/
def Permits (i : ℕ) (d : Daemon) : Action → Prop
  | .turn j answer =>
    j = i ∧ answer.toBool = true ∧ (d.pool.get i).all (Allowed d.shared answer) = true
  | .cooled | .wait _ => True
  | _ => False

instance (i : ℕ) (d : Daemon) : ∀ a, Decidable (Permits i d a)
  | .turn .. => instDecidableAnd
  | .cooled | .wait _ => .isTrue trivial
  | .start _ | .stop .. | .restart .. | .update .. | .create .. | .run .. | .apply .. | .listen _ |
    .finish .. | .tick _ | .reconcile | .shutdownAll | .exits _ | .restartDaemon _ =>
    .isFalse not_false

/-- What goes on before the daemon ends. -/
def ending : Action → Bool
  | .turn .. | .tick _ | .reconcile | .shutdownAll | .cooled | .wait _ | .exits _ => true
  | _ => false

/-- A tick, from its start to its end. -/
def Tick (quorum : Bool) (d d' : Daemon) : Prop :=
  ∃ as, Run (Guarded (Permits d.pool.next) (Steps Daemon.step)) (exec Daemon.step d [.tick quorum])
    as d' ∧ d'.pool.get d.pool.next = none

/-- The daemon between two ticks. -/
structure Rested (guests : List VmId) (d : Daemon) : Prop where
  created : d.shared.createdThisBoot = []
  rests : ∀ id ∈ guests, Rests d.shared id

/-- The daemon while a tick goes on, and after it. -/
structure Ticking (guests : List VmId) (quorum : Bool) (since : Nat) (i : ℕ) (d : Daemon) : Prop where
  created : d.shared.createdThisBoot = []
  stage : ∀ p, d.pool.get i = some p → ∀ id ∈ guests, Stage quorum since d.shared id p
  done : d.pool.get i = none → ∀ id ∈ guests, Done quorum since d.shared id

theorem Ticking.become (h : Ticking guests quorum since i d) {t : Host}
    (hcreated : t.createdThisBoot = d.shared.createdThisBoot) (hbeside : ∀ id, Beside d.shared t id) :
    Ticking guests quorum since i (d.become t) :=
  ⟨hcreated.trans h.created, fun p hget id hid => stage_beside (hbeside id) (h.stage p hget id hid),
    fun hget id hid => done_beside (hbeside id) (h.done hget id hid)⟩

theorem Ticking.step {a : Action} (h : Ticking guests quorum since i d) (hguard : Permits i d a)
    (hstep : d.step a = some d') : Ticking guests quorum since i d' := by
  cases a with
  | turn j answer =>
    obtain ⟨rfl, hyes, hallowed⟩ := hguard
    obtain ⟨p, hget, hstep⟩ := Option.bind_eq_some_iff.mp hstep
    obtain ⟨m, hturn, hstep⟩ := Option.bind_eq_some_iff.mp hstep
    cases hstep
    rw [hget, Option.all_some] at hallowed
    have hadvances : ∀ id ∈ guests, Advances quorum since id m := fun id hid =>
      stage_turn h.created (h.stage p hget id hid) hyes hallowed hturn
    refine ⟨?_, fun q hq id hid => ?_, fun hnone id hid => ?_⟩
    · rw [Crew.take_shared, turn_created hturn]
      exact h.created
    · rw [Crew.get_take_self hget] at hq
      rw [Crew.take_shared]
      exact (hadvances id hid).1 q hq
    · rw [Crew.get_take_self hget] at hnone
      rw [Crew.take_shared]
      exact (hadvances id hid).2 hnone
  | cooled =>
    simp only [Daemon.step] at hstep
    split at hstep
    · cases hstep
      exact h.become rfl (fun id => Beside.refl.gate .free)
    · cases hstep
  | wait seconds =>
    cases hstep
    exact h.become rfl (fun id => .wait seconds)
  | _ => exact absurd hguard id

/-- A tick lists the guests as it finds them. -/
theorem Rested.ticking (h : Rested guests d) :
    Ticking guests quorum d.shared.elapsed d.pool.next (exec Daemon.step d [.tick quorum]) := by
  have hget : (exec Daemon.step d [.tick quorum]).pool.get d.pool.next =
      some (.reconcile d.shared.node.store.rows quorum) := by
    show (d.pool.spawn _).get d.pool.next = _
    rw [Pool.get_spawn, if_pos rfl]
  refine ⟨h.created, fun p hp id hid => ?_, fun hnone => ?_⟩
  · rw [hget] at hp
    cases hp
    obtain ⟨hhonest, hcase⟩ := h.rests id hid
    have hnodup : (d.shared.node.store.rows.map VmRecord.id).Nodup :=
      List.pairwise_map.mpr (d.shared.node.store.sorted.imp ne_of_lt)
    refine ⟨rfl, ⟨hnodup, le_refl _⟩, hhonest, ?_⟩
    rcases hcase with hup | hwanted | ⟨r, hwaits⟩
    · exact .inl ⟨.inl hup, fun r hr hkey => hkey ▸ Table.get_of_mem hr⟩
    · exact .inl ⟨.inr hwanted, fun r hr hkey => hkey ▸ Table.get_of_mem hr⟩
    · exact .inr ⟨r, Table.mem_of_get hwaits.1, hwaits⟩
  · rw [hget] at hnone
    cases hnone

/-- A tick starts the guests whose delay has passed, when it has quorum. -/
theorem Rested.tick (h : Rested guests d) (htick : Tick quorum d d') :
    Rested guests d' ∧ ∀ id ∈ guests, Done quorum d.shared.elapsed d'.shared id := by
  obtain ⟨as, hrun, hend⟩ := htick
  have hticking : Ticking guests quorum d.shared.elapsed d.pool.next d' :=
    hrun.invariant (fun _ _ _ hi hs => hi.step hs.1 hs.2) h.ticking
  have hdone := hticking.done hend
  exact ⟨⟨hticking.created, fun id hid => (hdone id hid).1⟩, hdone⟩

/-- The daemon starts again, with these of the guests' processes left, and some time passes. -/
def restarted (d : Daemon) (left : List VmId) (seconds : Nat) : Daemon :=
  exec Daemon.step d [.restartDaemon left, .wait seconds]

theorem Ready.rested {auto : VmId → Bool} (h : Ready guests auto d) (left : List VmId) (seconds : Nat) :
    Rested guests (d.restarted left seconds) := by
  refine ⟨rfl, fun id hid => ⟨fun hin => ?_, .inr (.inr ?_)⟩⟩
  · cases hin
  · obtain ⟨r, hget, hkin, hstate⟩ := h.shared id hid
    exact ⟨r, hget, auto id, kin_congr rfl hkin, hstate⟩

end Daemon

/-- The first guest runs. -/
def webRuns : Daemon :=
  exec Daemon.step smallNode ([.start (.numeric 100)] ++ goesThrough 0 ++ [.cooled])

theorem webRuns_running : webRuns.Running [.numeric 100] := by
  have habout : webRuns.pool.all.all (fun p => !p.about (.numeric 100)) = true := by decide +kernel
  refine ⟨fun id hid => ?_, fun i p hget id hid => ?_⟩
  · obtain rfl := List.mem_singleton.mp hid
    exact ⟨(webRuns.shared.get (.numeric 100)).get (by decide +kernel), Option.eq_some_of_isSome _,
      by decide +kernel, by decide +kernel⟩
  · obtain rfl := List.mem_singleton.mp hid
    have hp := List.all_eq_true.mp habout p (Pool.mem_all hget)
    rwa [Bool.not_eq_true'] at hp

theorem no_delay (h : (s.get id).all (fun r => r.spec.autostartDelay == 0) = true) :
    ¬ ∃ r, s.get id = some r ∧ since < r.spec.autostartDelay := by
  rintro ⟨r, hget, hlate⟩
  rw [hget, Option.all_some, beq_iff_eq] at h
  rw [h] at hlate
  exact Nat.not_lt_zero _ hlate

/-- The guests are stopped, and the daemon ends. -/
def leavesAlone : List Action := .shutdownAll :: List.replicate 3 (.turn 2 (.ok none))

/-- The exit watch finds that the first guest was stopped, while the second one's turn is to come. -/
def watchFirst : List Action :=
  [.shutdownAll, .turn 2 (.ok none)] ++ List.replicate 4 (.turn 1 (.ok none)) ++
  List.replicate 2 (.turn 2 (.ok none))

/-- The daemon's first tick, after it has ended and started again. -/
def firstTick (d : Daemon) (steps : ℕ) : Daemon :=
  exec Daemon.step (d.restarted [] 0) (.tick true :: List.replicate steps (.turn 0 (.ok none)))

theorem firstTick_tick (d : Daemon) (steps : ℕ)
    (hrun : ((List.replicate steps (Action.turn 0 (.ok none))).foldlM
      (fun s a => if Daemon.Permits 0 s a then s.step a else none)
      (exec Daemon.step (d.restarted [] 0) [.tick true])).isSome)
    (hend : (firstTick d steps).pool.get 0 = none) :
    Daemon.Tick true (d.restarted [] 0) (firstTick d steps) :=
  ⟨List.replicate steps (.turn 0 (.ok none)), Run.of_exec_guarded hrun, hend⟩

end Pertisk.Tasks
