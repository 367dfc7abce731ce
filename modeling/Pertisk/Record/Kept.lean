import Pertisk.Lib.Calls
import Pertisk.Record.Writers

namespace Pertisk.Record
open Lib Tasks

/-- The copy and the change that a step writes. -/
def Daemon.written (d : Daemon) : Action → Option (VmRecord × Change)
  | .turn i _ =>
    match d.pool.get i with
    | some (.writing base c _) => some (base, c)
    | _ => none
  | .login user => some (d.shared.current, .sshUser user)
  | .observed nets => some (d.shared.current, .nicAddrs nets)
  | _ => none

/-- A write makes of the copy that it was given what it makes of the record: what the change does not
set is as it was when the copy was read. -/
def Fresh (d : Daemon) (a : Action) : Prop :=
  match d.written a with
  | some (base, c) => c.apply base = c.apply d.shared.current
  | none => True

/-- Moreover a record by which the guest does not run here is written only while it does not. -/
def Careful (d : Daemon) (a : Action) : Prop :=
  match d.written a with
  | some (base, c) => c.apply base = c.apply d.shared.current ∧ (c.ends = true → d.shared.on = false)
  | none => True

instance (d : Daemon) (a : Action) : Decidable (Careful d a) :=
  match h : d.written a with
  | some (base, c) => decidable_of_iff (c.apply base = c.apply d.shared.current ∧
      (c.ends = true → d.shared.on = false)) (by simp [Careful, h])
  | none => isTrue (by simp [Careful, h])

def Idle (d : Daemon) : Prop := d.pool.all = []

instance (d : Daemon) : Decidable (Idle d) :=
  decidable_of_iff (d.pool.all.isEmpty = true) List.isEmpty_iff

def Started (d : Daemon) : Prop := ∃ i base c caller, d.pool.get i = some (.writing base c (.running caller))

/-- The record shows the guest's process, or the start that let it run is still to be written. -/
def Shown (d : Daemon) : Prop :=
  ∀ p, d.shared.process = some p → p.on = true →
    Shows d.shared.current p.pid p.apiSocket ∨ Started d

def Names (h : Host) (r : VmRecord) : Prop :=
  ∀ p, h.process = some p → r.pid = p.pid ∧ r.apiSocket = p.apiSocket

/-- What an operation relies on while the others go on. -/
def Relies (h : Host) (i : ℕ) : Phase → Prop
  | .writing base c (.checking _) => h.gate = .held i ∧ c.launches = false ∧
    ((c.apply base).state ≠ .running → h.on = false)
  | .writing base c (.starting _) => h.gate = .held i ∧ h.on = false ∧ Names h (c.apply base)
  | .writing base c (.running _) => h.gate = .held i ∧
    ∀ p, h.process = some p → Shows (c.apply base) p.pid p.apiSocket
  | .writing _ c (.failed _ _) => h.gate = .held i ∧ c.launches = false
  | .writing _ c _ => c.launches = false
  | .checking _ _ => h.gate = .held i ∧ h.on = false
  | .starting r _ => h.gate = .held i ∧ h.on = false ∧ Names h r
  | _ => True

/-- Another operation does not open the gate that `j` holds, and makes no process meanwhile. -/
def Leaves (h h' : Host) (j : ℕ) : Prop :=
  h.gate = .held j → h'.gate = .held j ∧ (h'.process = h.process ∨ h'.process = none)

variable {h h' : Host} {d d' : Daemon} {i j : ℕ} {p q : Phase} {m : Move Host Phase}
  {base r : VmRecord} {c : Change} {next : Next} {caller : Caller} {answer : Answer} {a : Action}

theorem on_of_leaves (hprocess : h'.process = h.process ∨ h'.process = none) (hoff : h.on = false) :
    h'.on = false := by
  rcases hprocess with he | he
  · rw [Host.on, he]
    exact hoff
  · rw [Host.on, he]
    rfl

theorem process_of_leaves (hprocess : h'.process = h.process ∨ h'.process = none) {p : Process}
    (hp : h'.process = some p) : h.process = some p := by
  rcases hprocess with he | he
  · exact he.symm.trans hp
  · rw [he] at hp
    cases hp

theorem Relies.leaves (hr : Relies h j p) (hl : Leaves h h' j) : Relies h' j p := by
  cases p with
  | writing base c next =>
    cases next with
    | checking =>
      obtain ⟨hheld, hlaunches, hoff⟩ := hr
      obtain ⟨hgate, hprocess⟩ := hl hheld
      exact ⟨hgate, hlaunches, fun hstate => on_of_leaves hprocess (hoff hstate)⟩
    | starting =>
      obtain ⟨hheld, hoff, hnames⟩ := hr
      obtain ⟨hgate, hprocess⟩ := hl hheld
      exact ⟨hgate, on_of_leaves hprocess hoff, fun p hp => hnames p (process_of_leaves hprocess hp)⟩
    | running =>
      obtain ⟨hheld, hshows⟩ := hr
      obtain ⟨hgate, hprocess⟩ := hl hheld
      exact ⟨hgate, fun p hp => hshows p (process_of_leaves hprocess hp)⟩
    | failed => exact ⟨(hl hr.1).1, hr.2⟩
    | done | waiting | clearing | returned => exact hr
  | checking =>
    obtain ⟨hgate, hprocess⟩ := hl hr.1
    exact ⟨hgate, on_of_leaves hprocess hr.2⟩
  | starting =>
    obtain ⟨hheld, hoff, hnames⟩ := hr
    obtain ⟨hgate, hprocess⟩ := hl hheld
    exact ⟨hgate, on_of_leaves hprocess hoff, fun p hp => hnames p (process_of_leaves hprocess hp)⟩
  | start | waiting | stopping | exited | exiting | recovering | taking | clearing | pulling =>
    trivial

theorem Leaves.same (hgate : h'.gate = h.gate)
    (hprocess : h'.process = h.process ∨ h'.process = none) : Leaves h h' j :=
  fun hheld => ⟨hgate.trans hheld, hprocess⟩

/-- Who holds the gate may do with it, and with the process, what it likes. -/
theorem Leaves.holder (hheld : h.gate = .held i) (hji : j ≠ i) : Leaves h h' j := by
  intro hj
  rw [hheld] at hj
  cases hj
  exact absurd rfl hji

@[simp] theorem ok_shared {r : VmRecord} : (caller.ok h r).shared = h := by cases caller <;> rfl

@[simp] theorem err_shared {text : String} : (caller.err h text).shared = h := by
  cases caller <;> rfl

theorem ok_relies {h' : Host} (hq : (caller.ok h r).next = some q) : Relies h' i q := by
  cases caller with
  | request => cases hq
  | recovery =>
    cases hq
    rfl

theorem err_relies {h' : Host} {text : String} (hq : (caller.err h text).next = some q) :
    Relies h' i q := by
  cases caller with
  | request => cases hq
  | recovery =>
    cases hq
    rfl

@[simp] theorem ok_spawned : (caller.ok h r).spawned = none := by cases caller <;> rfl

@[simp] theorem err_spawned {text : String} : (caller.err h text).spawned = none := by
  cases caller <;> rfl

/-- An operation's step leaves the others what they rely on, and has itself what it relies on. -/
structure Safe (h : Host) (i : ℕ) (m : Move Host Phase) : Prop where
  others : ∀ j, j ≠ i → Leaves h m.shared j
  own : ∀ q, m.next = some q → Relies m.shared i q
  alone : m.spawned = none

/-- A step that changes neither the gate nor the process, or ends the process. -/
theorem Safe.same (hgate : m.shared.gate = h.gate)
    (hprocess : m.shared.process = h.process ∨ m.shared.process = none)
    (hown : ∀ q, m.next = some q → Relies m.shared i q) (halone : m.spawned = none) : Safe h i m :=
  ⟨fun _ _ => .same hgate hprocess, hown, halone⟩

theorem Safe.holder (hheld : h.gate = .held i)
    (hown : ∀ q, m.next = some q → Relies m.shared i q) (halone : m.spawned = none) : Safe h i m :=
  ⟨fun _ hji => .holder hheld hji, hown, halone⟩

theorem writeTurn_safe (hr : Relies h i (.writing base c next)) :
    Safe h i (h.writeTurn base c next) := by
  cases next with
  | done => exact .same rfl (.inl rfl) (fun q hq => nomatch hq) rfl
  | waiting caller =>
    unfold Host.writeTurn
    dsimp only
    split
    · exact .same (by simp [Host.write]) (.inl (by simp [Host.write]))
        (fun q hq => err_relies hq) (by simp)
    · refine .same rfl (.inl rfl) (fun q hq => ?_) rfl
      cases hq
      trivial
  | checking caller =>
    obtain ⟨hheld, -, hoff⟩ := hr
    unfold Host.writeTurn
    dsimp only
    split
    · exact .holder hheld (fun q hq => ok_relies hq) (by simp)
    · rename_i hstate
      refine .holder hheld (fun q hq => ?_) rfl
      cases hq
      exact ⟨hheld, hoff hstate⟩
  | starting caller =>
    refine .holder hr.1 (fun q hq => ?_) rfl
    cases hq
    exact hr
  | running caller => exact .holder hr.1 (fun q hq => ok_relies hq) (by simp [Host.writeTurn])
  | failed text caller => exact .holder hr.1 (fun q hq => err_relies hq) (by simp [Host.writeTurn])
  | clearing vm =>
    refine .same rfl (.inl rfl) (fun q hq => ?_) rfl
    cases hq
    trivial
  | returned =>
    refine .same rfl (.inl rfl) (fun q hq => ?_) rfl
    cases hq
    rfl

/-- Who finds the gate open finds the guest off, or recorded as running. -/
theorem startTurn_safe (hr : Relies h i p)
    (hopen : h.gate = .free → h.on = true → h.current.state = .running)
    (hm : h.startTurn i answer p = some m) : Safe h i m := by
  cases p with
  | start caller =>
    cases answer <;> simp only [Host.startTurn, reduceCtorEq, Option.some.injEq] at hm
    subst hm
    split
    · exact .same (by simp) (.inl (by simp)) (fun q hq => err_relies hq) (by simp)
    · refine .same rfl (.inl rfl) (fun q hq => ?_) rfl
      cases hq
      rfl
  | waiting caller =>
    cases answer <;> simp only [Host.startTurn, reduceCtorEq] at hm
    split at hm
    · rename_i inv hfree
      cases hm
      refine ⟨fun j hji hheld => ?_, fun q hq => ?_, rfl⟩
      · rw [hfree] at hheld
        cases hheld
      · cases hq
        refine ⟨rfl, rfl, fun hstate => ?_⟩
        rw [Change.apply, (inv.prepare_runtime _).1] at hstate
        exact Bool.eq_false_iff.mpr (fun hon => hstate (hopen hfree hon))
    · cases hm
  | checking r caller =>
    obtain ⟨hheld, hoff⟩ := hr
    cases answer <;> simp only [Host.startTurn, reduceCtorEq, Option.some.injEq] at hm
    case ok => rw [hoff] at hm; cases hm
    case refused text =>
      subst hm
      exact .holder hheld (fun q hq => err_relies hq) (by simp)
    case error text =>
      subst hm
      refine .holder hheld (fun q hq => ?_) rfl
      cases hq
      exact ⟨hheld, rfl⟩
    case created created =>
      subst hm
      refine .holder hheld (fun q hq => ?_) rfl
      cases hq
      refine ⟨hheld, rfl, fun p hp => ?_⟩
      cases hp
      exact ⟨rfl, rfl⟩
  | starting r caller =>
    obtain ⟨hheld, -, hnames⟩ := hr
    cases answer <;> simp only [Host.startTurn, reduceCtorEq, Option.some.injEq] at hm
    case error text =>
      subst hm
      refine .holder hheld (fun q hq => ?_) rfl
      cases hq
      exact ⟨hheld, rfl⟩
    case started pid =>
      cases hprocess : h.process with
      | none => rw [hprocess] at hm; cases hm
      | some p =>
        rw [hprocess] at hm
        cases hm
        obtain ⟨hpid, hsocket⟩ := hnames p hprocess
        refine .holder hheld (fun q hq => ?_) rfl
        cases hq
        refine ⟨hheld, fun p' hp' => ?_⟩
        cases hp'
        exact ⟨rfl, congrArg (Option.or pid) hpid, hsocket⟩
  | writing | stopping | exited | exiting | recovering | taking | clearing | pulling => cases hm

theorem stopTurn_safe (hm : h.stopTurn answer p = some m) : Safe h i m := by
  have hwrite : ∀ m : Move Host Phase, m.shared = h ∨ m.shared = h.kill → m.spawned = none →
      (∀ q, m.next = some q → Relies m.shared i q) → Safe h i m := by
    intro m hshared halone hown
    rcases hshared with he | he
    · exact .same (by rw [he]) (.inl (by rw [he])) hown halone
    · exact .same (by rw [he]; rfl) (.inr (by rw [he]; rfl)) hown halone
  cases p with
  | stopping r =>
    simp only [Host.stopTurn] at hm
    split at hm
    · cases answer <;> cases hm
      · exact hwrite _ (.inr rfl) rfl (fun q hq => by cases hq; rfl)
      · exact hwrite _ (.inl rfl) rfl (fun q hq => nomatch hq)
    · cases hm
      exact hwrite _ (.inl rfl) rfl (fun q hq => by cases hq; rfl)
  | exited =>
    cases hm
    split
    · exact hwrite _ (.inl rfl) rfl (fun q hq => by cases hq; trivial)
    · exact hwrite _ (.inl rfl) rfl (fun q hq => nomatch hq)
  | exiting r =>
    cases hm
    exact hwrite _ (.inr rfl) rfl (fun q hq => by cases hq; rfl)
  | writing | start | waiting | checking | starting | recovering | taking | clearing | pulling =>
    cases hm

theorem recoverTurn_safe (hm : h.recoverTurn answer p = some m) : Safe h i m := by
  have hgoes : ∀ q, Relies h i q → Safe h i { shared := h, next := some q } := by
    intro q hq
    refine .same rfl (.inl rfl) (fun q' hq' => ?_) rfl
    cases hq'
    exact hq
  cases p with
  | recovering vm =>
    cases answer <;> cases hm
    · exact hgoes _ rfl
    · exact hgoes _ trivial
    · exact hgoes _ rfl
    · exact hgoes _ rfl
  | taking vm =>
    cases hm
    refine hgoes _ ?_
    split <;> rfl
  | clearing vm =>
    cases hm
    refine .same rfl (.inr rfl) (fun q hq => ?_) rfl
    cases hq
    trivial
  | pulling vm =>
    cases answer <;> cases hm
    · exact hgoes _ trivial
    · exact hgoes _ rfl
  | writing | start | waiting | checking | starting | stopping | exited | exiting => cases hm

theorem turn_safe (hr : Relies h i p)
    (hopen : h.gate = .free → h.on = true → h.current.state = .running)
    (hm : h.turn i answer p = some m) : Safe h i m := by
  cases p with
  | writing base c next =>
    cases hm
    exact writeTurn_safe hr
  | start | waiting | checking | starting => exact startTurn_safe hr hopen hm
  | stopping | exited | exiting =>
    rw [Host.turn] at hm
    exact stopTurn_safe hm
  | recovering | taking | clearing | pulling =>
    rw [Host.turn] at hm
    exact recoverTurn_safe hm

/-- What holds between any two steps. -/
structure Sound (d : Daemon) : Prop where
  tasks : Crew.Holds (fun _ => True) Relies d
  shown : Shown d

theorem Sound.open (h : Sound d) (hfree : d.shared.gate = .free) (hon : d.shared.on = true) :
    d.shared.current.state = .running := by
  obtain ⟨p, hp, hpon⟩ : ∃ p, d.shared.process = some p ∧ p.on = true := by
    simpa [Host.on, Option.any_eq_true] using hon
  rcases h.shown p hp hpon with hshows | ⟨i, base, c, caller, hget⟩
  · exact hshows.1
  · have hheld := (h.tasks.tasks i _ hget).1
    rw [hfree] at hheld
    cases hheld

theorem on_of_process {p : Process} (hp : h.process = some p) (hon : p.on = true) : h.on = true := by
  rw [Host.on, hp]
  exact hon

/-- A step after which the record shows the process as well as before, unless the process has gone. -/
theorem Shown.take (h : Shown d) (hget : d.pool.get i = some p)
    (hother : ∀ base c caller, p ≠ .writing base c (.running caller))
    (hprocess : m.shared.process = d.shared.process ∨ m.shared.on = false)
    (hcurrent : ∀ p, d.shared.process = some p → p.on = true →
      Shows d.shared.current p.pid p.apiSocket → Shows m.shared.current p.pid p.apiSocket) :
    Shown (d.take i m) := by
  intro q hq hon
  rw [Crew.take_shared] at hq ⊢
  rcases hprocess with hsame | hoff
  · rw [hsame] at hq
    rcases h q hq hon with hshows | ⟨j, base, c, caller, hj⟩
    · exact .inl (hcurrent q hq hon hshows)
    · have hji : j ≠ i := by
        rintro rfl
        rw [hget] at hj
        exact hother base c caller (Option.some.inj hj)
      exact .inr ⟨j, base, c, caller, Crew.get_take_ne hget hji hj⟩
  · rw [on_of_process hq hon] at hoff
    cases hoff

@[simp] theorem writeTurn_process : (h.writeTurn base c next).shared.process = h.process := by
  cases next <;> simp only [Host.writeTurn, ok_shared, err_shared] <;> try rfl
  all_goals split <;> simp [Host.write]

@[simp] theorem writeTurn_book :
    (h.writeTurn base c next).shared.book = h.book.write Change.apply base c := by
  cases next <;> simp only [Host.writeTurn, ok_shared, err_shared] <;> try rfl
  all_goals split <;> simp [Host.write]

theorem writeTurn_current : (h.writeTurn base c next).shared.current = c.apply base := by
  rw [Host.current, writeTurn_book]
  rfl

theorem writeTurn_shown (hs : Sound d) (hget : d.pool.get i = some (.writing base c next))
    (hfresh : c.apply base = c.apply d.shared.current) (hends : c.ends = true → d.shared.on = false) :
    Shown (d.take i (d.shared.writeTurn base c next)) := by
  have hrelies := hs.tasks.tasks i _ hget
  by_cases hrunning : ∃ caller, next = .running caller
  · obtain ⟨caller, rfl⟩ := hrunning
    intro p hp _
    rw [Crew.take_shared, writeTurn_process] at hp
    rw [Crew.take_shared, writeTurn_current]
    exact .inl (hrelies.2 p hp)
  · refine hs.shown.take hget (fun b e caller he => ?_) (.inl writeTurn_process)
      (fun p hp hon hshows => ?_)
    · cases he
      exact hrunning ⟨caller, rfl⟩
    · have hison := on_of_process hp hon
      have hnotends : c.ends = false := by
        refine Bool.eq_false_iff.mpr (fun he => ?_)
        rw [hends he] at hison
        cases hison
      have hlaunches : c.launches = false := by
        cases next with
        | starting => rw [hrelies.2.1] at hison; cases hison
        | running caller => exact absurd ⟨caller, rfl⟩ hrunning
        | checking => exact hrelies.2.1
        | failed => exact hrelies.2
        | done | waiting | clearing | returned => exact hrelies
      rw [writeTurn_current, hfresh]
      exact hshows.change hnotends hlaunches

/-- A step other than a write leaves the record. The process goes or is new and off, unless it is
told to run. -/
theorem quiet_turn (hm : h.turn i answer p = some m) (hp : ∀ base c next, p ≠ .writing base c next) :
    m.shared.book = h.book ∧ (m.shared.process = h.process ∨ m.shared.on = false ∨
      ∃ base c caller, m.next = some (.writing base c (.running caller))) := by
  cases p with
  | writing base c next => exact absurd rfl (hp base c next)
  | start | waiting =>
    cases answer <;> simp only [Host.turn, Host.startTurn, reduceCtorEq] at hm
    split at hm <;> cases hm
    all_goals simp
  | checking r caller =>
    cases answer <;> simp only [Host.turn, Host.startTurn, reduceCtorEq] at hm
    case ok => split at hm <;> cases hm; exact ⟨rfl, .inl rfl⟩
    all_goals cases hm
    all_goals simp [Host.on]
  | starting r caller =>
    cases answer <;> simp only [Host.turn, Host.startTurn, reduceCtorEq] at hm
    case started =>
      split at hm <;> cases hm
      exact ⟨rfl, .inr (.inr ⟨_, _, _, rfl⟩)⟩
    case error => cases hm; exact ⟨rfl, .inl rfl⟩
  | stopping r =>
    simp only [Host.turn, Host.stopTurn] at hm
    split at hm
    · cases answer <;> cases hm
      · exact ⟨rfl, .inr (.inl rfl)⟩
      · exact ⟨rfl, .inl rfl⟩
    · cases hm
      exact ⟨rfl, .inl rfl⟩
  | exited =>
    cases hm
    split <;> exact ⟨rfl, .inl rfl⟩
  | exiting | clearing =>
    cases hm
    exact ⟨rfl, .inr (.inl rfl)⟩
  | taking =>
    cases hm
    exact ⟨rfl, .inl rfl⟩
  | recovering | pulling =>
    cases answer <;> cases hm <;> exact ⟨rfl, .inl rfl⟩

theorem turn_shown (hs : Sound d) (hget : d.pool.get i = some p)
    (hm : d.shared.turn i answer p = some m) (hok : Careful d (.turn i answer)) :
    Shown (d.take i m) := by
  by_cases hwrite : ∃ base c next, p = .writing base c next
  · obtain ⟨base, c, next, rfl⟩ := hwrite
    cases hm
    simp only [Careful, Daemon.written, hget] at hok
    exact writeTurn_shown hs hget hok.1 hok.2
  · have hother : ∀ base c next, p ≠ .writing base c next :=
      fun base c next he => hwrite ⟨base, c, next, he⟩
    obtain ⟨hbook, hprocess⟩ := quiet_turn hm hother
    have hcurrent : m.shared.current = d.shared.current := congrArg Ledger.current hbook
    rcases hprocess with hsame | hoff | ⟨base, c, caller, hnext⟩
    · exact hs.shown.take hget (fun base c caller => hother base c _) (.inl hsame)
        (fun p _ _ hshows => hcurrent ▸ hshows)
    · exact hs.shown.take hget (fun base c caller => hother base c _) (.inr hoff)
        (fun p _ _ hshows => hcurrent ▸ hshows)
    · exact fun _ _ _ => .inr ⟨i, base, c, caller, Crew.get_take_next hget hnext⟩

theorem turn_sound (hs : Sound d) (hget : d.pool.get i = some p)
    (hm : d.shared.turn i answer p = some m) (hok : Careful d (.turn i answer)) :
    Sound (d.take i m) := by
  have hsafe := turn_safe (hs.tasks.tasks i p hget) hs.open hm
  refine ⟨hs.tasks.take hget trivial hsafe.own (fun j q hq => ?_) (fun j q hji _ hq => ?_),
    turn_shown hs hget hm hok⟩
  · rw [hsafe.alone] at hq
    cases hq
  · exact hq.leaves (hsafe.others j hji)

theorem spawn_sound (hs : Sound d) (hp : Relies d.shared d.pool.next p) : Sound (d.spawn p) := by
  refine ⟨hs.tasks.spawn hp, fun q hq hon => ?_⟩
  rcases hs.shown q hq hon with hshows | ⟨j, base, c, caller, hj⟩
  · exact .inl hshows
  · refine .inr ⟨j, base, c, caller, ?_⟩
    show (d.pool.spawn p).get j = _
    rw [Pool.get_spawn, if_neg (Nat.ne_of_lt (Pool.lt_of_get hj))]
    exact hj

theorem become_sound (hs : Sound d) (hleaves : ∀ j, Leaves d.shared h j)
    (hshows : ∀ p, h.process = some p → p.on = true → d.shared.process = some p ∧
      (Shows d.shared.current p.pid p.apiSocket → Shows h.current p.pid p.apiSocket)) :
    Sound (d.become h) := by
  refine ⟨hs.tasks.change trivial (fun j q _ hq => hq.leaves (hleaves j)), fun p hp hon => ?_⟩
  obtain ⟨hsame, hkeeps⟩ := hshows p hp hon
  rcases hs.shown p hsame hon with h' | hstarted
  · exact .inl (hkeeps h')
  · exact .inr hstarted

theorem patch_sound (hs : Sound d) (hends : c.ends = false) (hlaunches : c.launches = false) :
    Sound (d.become (d.shared.write d.shared.current c)) :=
  become_sound hs (fun _ => .same rfl (.inl rfl))
    (fun _ hp _ => ⟨hp, fun hshows => hshows.change hends hlaunches⟩)

/-- What a request asks for is none of the changes that a start makes. -/
theorem change_plain {q : Request} (h : q.change r = .ok (some c)) : c.launches = false := by
  cases q with
  | update req names =>
    obtain ⟨_, -, h⟩ := bind_ok h
    obtain ⟨_, -, h⟩ := bind_ok h
    obtain ⟨_, -, h⟩ := bind_ok h
    obtain ⟨_, -, h⟩ := bind_ok h
    obtain ⟨_, -, h⟩ := bind_ok h
    cases h
    rfl
  | setSchedule kind req =>
    obtain ⟨_, -, h⟩ := bind_ok h
    obtain ⟨_, -, h⟩ := bind_ok h
    obtain ⟨_, -, h⟩ := bind_ok h
    cases h
    rfl
  | attachDisk | attachIso =>
    obtain ⟨_, -, h⟩ := bind_ok h
    split at h <;> cases h
    rfl
  | detachDisk | detachIso | attachNic | detachNic | clearSchedule =>
    obtain ⟨_, -, h⟩ := bind_ok h
    cases h
    rfl
  | ran =>
    cases h
    rfl

theorem step_sound (hs : Sound d) (hok : Careful d a) (h : d.step a = some d') : Sound d' := by
  cases a with
  | request q =>
    simp only [Daemon.step] at h
    split at h
    · rename_i c hc
      cases h
      exact spawn_sound hs (change_plain hc)
    · cases h
      exact hs
  | login user =>
    cases h
    exact patch_sound hs rfl rfl
  | observed nets =>
    cases h
    exact patch_sound hs rfl rfl
  | start =>
    cases h
    exact spawn_sound hs trivial
  | stop hard =>
    simp only [Daemon.step] at h
    split at h <;> cases h
    · exact spawn_sound hs trivial
    · exact hs
  | gone =>
    simp only [Daemon.step] at h
    split at h <;> cases h
    exact spawn_sound hs trivial
  | recover =>
    simp only [Daemon.step] at h
    split at h <;> cases h
    · exact spawn_sound hs trivial
    · exact hs
  | turn i answer =>
    obtain ⟨p, hget, h⟩ := Option.bind_eq_some_iff.mp h
    obtain ⟨m, hm, h⟩ := Option.bind_eq_some_iff.mp h
    cases h
    exact turn_sound hs hget hm hok
  | cooled =>
    simp only [Daemon.step] at h
    split at h <;> cases h
    rename_i hcooling
    refine become_sound hs (fun j hheld => ?_) (fun p hp _ => ⟨hp, id⟩)
    rw [hcooling] at hheld
    cases hheld
  | exits =>
    simp only [Daemon.step] at h
    split at h <;> cases h
    exact become_sound hs (fun _ => .same rfl (.inr rfl)) (fun p hp _ => nomatch hp)

theorem step_book (h : d.step a = some d') : d'.shared.book = match d.written a with
    | some (base, c) => d.shared.book.write Change.apply base c
    | none => d.shared.book := by
  cases a with
  | login | observed =>
    cases h
    rfl
  | turn i answer =>
    obtain ⟨p, hget, h⟩ := Option.bind_eq_some_iff.mp h
    obtain ⟨m, hm, h⟩ := Option.bind_eq_some_iff.mp h
    cases h
    rw [Crew.take_shared, Daemon.written]
    simp only [hget]
    cases p with
    | writing base c next =>
      cases hm
      exact writeTurn_book
    | _ => exact (quiet_turn hm (fun _ _ _ he => nomatch he)).1
  | start =>
    cases h
    rfl
  | request | stop | recover =>
    simp only [Daemon.step] at h
    split at h <;> cases h <;> rfl
  | gone | cooled | exits =>
    simp only [Daemon.step] at h
    split at h <;> cases h
    rfl

/-- Nothing but what the log holds has been made of the record. -/
def Untouched (d : Daemon) : Prop := d.shared.book.log = [] → d.shared.book.current = d.shared.book.first

theorem step_untouched (hj : Untouched d) (h : d.step a = some d') : Untouched d' := by
  have hbook := step_book h
  intro hlog
  cases hw : d.written a with
  | none =>
    simp only [hw] at hbook
    rw [hbook] at hlog ⊢
    exact hj hlog
  | some w =>
    simp only [hw] at hbook
    rw [hbook] at hlog
    simp [Ledger.write] at hlog

theorem step_present_iff (hj : Untouched d) (hp : d.shared.book.Present Change.apply)
    (h : d.step a = some d') : d'.shared.book.Present Change.apply ↔ Fresh d a := by
  have hbook := step_book h
  have hj' := step_untouched hj h
  unfold Fresh
  cases hw : d.written a with
  | none =>
    simp only [hw] at hbook
    rw [hbook]
    exact iff_of_true hp trivial
  | some w =>
    simp only [hw] at hbook
    rw [Ledger.present_iff hj', hbook]
    exact Ledger.kept_write_iff ((Ledger.present_iff hj).mp hp)

theorem Careful.fresh (h : Careful d a) : Fresh d a := by
  unfold Careful at h
  unfold Fresh
  split at h
  · exact h.1
  · trivial

variable {self : NodeId} {runDir : String} {process : Option Process} {as : List Action}

theorem opened_sound (h : ∀ p, process = some p → p.on = true → Shows r p.pid p.apiSocket) :
    Sound (opened self runDir r process) := by
  refine ⟨⟨trivial, fun i p hp => ?_⟩, fun p hp hon => .inl (h p hp hon)⟩
  simp [opened, Pool.get] at hp

theorem opened_present : (opened self runDir r process).shared.book.Present Change.apply :=
  Ledger.Kept.present rfl

/-- In a run, every change is still there at every time, but for what later ones set, exactly when
each operation writes a record that is as it read it but for what it sets itself. When, moreover, an
operation that ends the guest writes that only while the guest does not run, a guest that runs
after the last of them is recorded with its process. -/
theorem no_edit_lost (h : ∀ p, process = some p → p.on = true → Shows r p.pid p.apiSocket)
    (run : Run (Steps Daemon.step) (opened self runDir r process) as d) :
    ((∀ bs e, bs <+: as → Run (Steps Daemon.step) (opened self runDir r process) bs e →
        e.shared.book.Present Change.apply) ↔
      Run (Guarded Fresh (Steps Daemon.step)) (opened self runDir r process) as d) ∧
    (Run (Guarded Careful (Steps Daemon.step)) (opened self runDir r process) as d →
      d.shared.book.Present Change.apply ∧ (Idle d → ∀ p, d.shared.process = some p → p.on = true →
        Shows d.shared.current p.pid p.apiSocket)) := by
  have hstep : ∀ s a t, Untouched s → s.shared.book.Present Change.apply →
      Steps Daemon.step s a t →
      Untouched t ∧ (t.shared.book.Present Change.apply ↔ Fresh s a) :=
    fun _ _ _ hj hp hs => ⟨step_untouched hj hs, step_present_iff hj hp hs⟩
  have huntouched : Untouched (opened self runDir r process) := fun _ => rfl
  have hdet : ∀ s a t t', Steps Daemon.step s a t → Steps Daemon.step s a t' → t = t' :=
    fun _ _ _ _ h h' => Run.steps_det h h'
  have hiff := Run.always_iff_of (J := Untouched)
    (P := fun d => d.shared.book.Present Change.apply) hdet hstep run huntouched opened_present
  refine ⟨hiff, fun hcareful => ⟨?_, fun hidle p hp hon => ?_⟩⟩
  · have hfresh : Run (Guarded Fresh (Steps Daemon.step)) (opened self runDir r process) as d :=
      hcareful.mono (fun s a t hs => ⟨hs.1.fresh, hs.2⟩)
    exact hiff.mpr hfresh as d (List.prefix_refl as) run
  · have hsound := hcareful.invariant (I := Sound)
      (fun s a t hs hst => step_sound hs hst.1 hst.2) (opened_sound h)
    rcases hsound.shown p hp hon with hshows | ⟨i, base, c, caller, hget⟩
    · exact hshows
    · have hmem := Pool.mem_all hget
      rw [hidle] at hmem
      cases hmem

def web : VmRecord :=
  { id := .numeric 100, spec := { name := "web" }, state := .stopped, nodeId := some 1 }

def data : VolumeRecord :=
  { id := 7, name := "data", format := .qcow2, sizeBytes := 1, path := .disk 7 .qcow2 }

def qemu : Created := { pid := some 4711, apiSocket := some (.text "/run/100.qmp") }

/-- A start up to where the guest's process is there, which is not in the record yet. -/
def created (task : ℕ) : List Action :=
  [.turn task (.inventory {}), .turn task .ok, .turn task (.inventory {}), .turn task .ok,
    .turn task (.created qemu)]

/-- The rest of it. -/
def runs (task : ℕ) : List Action := [.turn task .ok, .turn task (.started none), .turn task .ok]

/-- A disk is attached while the guest's process is being made. -/
def attachedMeanwhile : List Action :=
  .start :: created 0 ++ [.request (.attachDisk data), .turn 1 .ok] ++ runs 0

/-- A request to attach a disk has read the record when the guest is started. -/
def startedMeanwhile : List Action :=
  [.request (.attachDisk data), .start] ++ created 1 ++ runs 1 ++ [.turn 0 .ok]

/-- A disk, and then a start. -/
def oneByOne : List Action :=
  [.request (.attachDisk data), .turn 0 .ok, .start] ++ created 1 ++ runs 1

theorem one_by_one_kept :
    (exec Daemon.step (opened 1 "/run" web none) oneByOne).shared.book.Present Change.apply ∧
    Shows (exec Daemon.step (opened 1 "/run" web none) oneByOne).shared.current (some 4711)
      (some (.text "/run/100.qmp")) := by
  have hcareful : Run (Guarded Careful (Steps Daemon.step)) (opened 1 "/run" web none) oneByOne
      (exec Daemon.step (opened 1 "/run" web none) oneByOne) := .of_exec_guarded (by decide +kernel)
  have hkept := (no_edit_lost (fun _ hp => by cases hp) hcareful.unguard).2 hcareful
  have hidle : Idle (exec Daemon.step (opened 1 "/run" web none) oneByOne) := by decide +kernel
  have hprocess : (exec Daemon.step (opened 1 "/run" web none) oneByOne).shared.process =
      some ⟨some 4711, some (.text "/run/100.qmp"), true⟩ := by decide +kernel
  exact ⟨hkept.1, hkept.2 hidle _ hprocess rfl⟩

/-- A disk that was attached while the guest started is gone from the record behind the start; and
a guest that started while a disk was being attached runs, and is recorded as stopped. -/
theorem attached_disk_lost :
    (∃ d, Run (Steps Daemon.step) (opened 1 "/run" web none) attachedMeanwhile d ∧ Idle d ∧
      d.shared.book.log = [.prepare {}, .prepare {}, .attach (Service.volumeDisk data),
        .create qemu, .start 1 none] ∧
      d.shared.current.usesVolume data.id = false ∧ ¬ d.shared.book.Present Change.apply) ∧
    ∃ d, Run (Steps Daemon.step) (opened 1 "/run" web none) startedMeanwhile d ∧ Idle d ∧
      d.shared.on = true ∧ d.shared.current.state = .stopped ∧ d.shared.current.pid = none ∧
      d.shared.current.apiSocket = none := by
  have hlog : (exec Daemon.step (opened 1 "/run" web none) attachedMeanwhile).shared.book.log =
      [.prepare {}, .prepare {}, .attach (Service.volumeDisk data), .create qemu, .start 1 none] := rfl
  have hlost : ¬ (exec Daemon.step (opened 1 "/run" web none)
      attachedMeanwhile).shared.book.Kept Change.apply := by
    unfold Ledger.Kept
    decide +kernel
  refine ⟨⟨_, .of_exec (by decide +kernel), by decide +kernel, hlog, by decide +kernel,
    fun hpresent => hlost ((Ledger.present_iff (fun hnil => ?_)).mp hpresent)⟩,
    _, .of_exec (by decide +kernel), by decide +kernel, by decide +kernel⟩
  rw [hlog] at hnil
  cases hnil

end Pertisk.Record
