import Pertisk.Lib.Calls
import Pertisk.Tasks.Exits

namespace Pertisk.Tasks
open Lib

/-- A guest that ended by itself has no process, and autostart has had its turn with it or has no
reason to start it. -/
def Quiet (s : Host) (id : VmId) : Prop :=
  s.lives id = false ∧ (id ∈ s.autostarted ∨
    (id ∉ s.restoreOnBoot ∧ ∀ r, s.get id = some r → r.spec.autostart = false))

/-- A task that does not start the guest. -/
def Spent (s : Host) (id : VmId) (p : Phase) : Prop :=
  p.autostarts id = false ∧ (id ∈ s.autostarted ∨
    (id ∉ p.queue ∧ ∀ r ∈ p.records, r.id = id → r.spec.autostart = false))

def Calm (s : Host) : Prop := ∀ id ∈ s.off, Quiet s id

def Left (s : Host) (_ : ℕ) (p : Phase) : Prop := ∀ id ∈ s.off, Spent s id p

namespace Daemon

variable (d : Daemon)

/-- Autostart is done with the guest. -/
def autostartDone (id : VmId) : Bool :=
  d.pool.all.all (fun p => !p.autostarts id) &&
    (d.shared.autostarted.contains id || (!d.shared.restoreOnBoot.contains id &&
      (d.shared.get id).all (fun r => !r.spec.autostart) &&
      d.pool.all.all (fun p => !p.queue.contains id &&
        p.records.all (fun r => r.id != id || !r.spec.autostart))))

def watched (id : VmId) : Bool := d.pool.all.any (Phase.watches id)

/-- A guest ends by itself when autostart is done with it and, if it is recorded as running, an exit
watch is on it. Afterwards no reconcile pass finds it gone before autostart has had its turn, and
its record is not written but by starts, stops and the watch. -/
def WatchFirst (d : Daemon) : Action → Prop
  | .exits id => d.autostartDone id = true ∧
      ((d.shared.get id).all (fun r => !d.shared.runsHere r) = true ∨ d.watched id = true)
  | .turn i _ =>
    (d.pool.get i).all (fun p => d.shared.off.all (fun id =>
      (!p.finds d.shared id || d.shared.autostarted.contains id) && !p.writes id)) = true
  | .update id _ | .create id _ _ => id ∉ d.shared.off
  | .apply record _ _ => record.id ∉ d.shared.off
  | _ => True

instance (d : Daemon) : ∀ a, Decidable (WatchFirst d a)
  | .turn .. => instDecidableEqBool _ _
  | .update .. | .create .. | .apply .. => instDecidableNot
  | .exits _ => instDecidableAnd
  | .start _ | .stop .. | .restart .. | .run .. | .listen _ | .finish .. | .tick _ | .reconcile |
    .shutdownAll | .cooled | .wait _ | .restartDaemon _ => .isTrue trivial

end Daemon

section step
variable {s t : Host} {p q : Phase} {m : Move Host Phase} {i j : ℕ} {a : Answer} {r : VmRecord}
  {id : VmId}

theorem autostarted_change (hp : Spent s id p) (hc : Change s p t) (h : id ∈ s.autostarted) :
    id ∈ t.autostarted := by
  rcases hc.autostarted id h with hin | hstarts
  · exact hin
  · rw [hp.1] at hstarts
    cases hstarts

theorem quiet_change (hs : Quiet s id) (hp : Spent s id p) (hc : Change s p t) (hid : id ∈ t.off)
    (hfinds : p.finds s id = true → id ∈ s.autostarted) : Quiet t id := by
  refine ⟨?_, ?_⟩
  · rw [Bool.eq_false_iff]
    intro hlives
    rcases hc.alive id hid hlives with hold | hstarts
    · rw [hs.1] at hold
      cases hold
    · rw [hp.1] at hstarts
      cases hstarts
  · by_cases hdone : id ∈ s.autostarted
    · exact .inl (autostarted_change hp hc hdone)
    · right
      obtain ⟨hrestore, hstore⟩ := hs.2.resolve_left hdone
      have hrecords := (hp.2.resolve_left hdone).2
      refine ⟨fun hin => ?_, fun r hget => ?_⟩
      · rcases hc.restore id hin with hold | hfind
        · exact hrestore hold
        · exact hdone (hfinds hfind)
      · rcases hc.store id r hget with hold | ⟨r₀, hr₀, hrid, hauto⟩
        · exact hstore r hold
        · rw [hauto]
          exact hrecords r₀ hr₀ hrid

theorem spent_other (hp : Spent s id p) (hq : Spent s id q) (hc : Change s p t) : Spent t id q := by
  refine ⟨hq.1, ?_⟩
  rcases hq.2 with hdone | hrest
  · exact .inl (autostarted_change hp hc hdone)
  · exact .inr hrest

theorem spent_follows (hs : Quiet s id) (hp : Spent s id p) (hc : Change s p t)
    (hf : Follows s p q) : Spent t id q := by
  refine ⟨?_, ?_⟩
  · rw [Bool.eq_false_iff]
    intro hstarts
    rcases hf.starts id hstarts with hold | ⟨hqueue, hnew⟩
    · rw [hp.1] at hold
      cases hold
    · exact (hp.2.resolve_left hnew).1 hqueue
  · by_cases hdone : id ∈ s.autostarted
    · exact .inl (autostarted_change hp hc hdone)
    · right
      obtain ⟨hrestore, hstore⟩ := hs.2.resolve_left hdone
      obtain ⟨hqueue, hrecords⟩ := hp.2.resolve_left hdone
      refine ⟨fun hin => ?_, fun r hr hrid => ?_⟩
      · rcases hf.queue id hin with hold | ⟨r, hget, hauto | hin'⟩
        · exact hqueue hold
        · rw [hstore r hget] at hauto
          cases hauto
        · exact hrestore hin'
      · rcases hf.records r hr with hget | ⟨r₀, hr₀, hid₀, hauto⟩
        · rw [hrid] at hget
          exact hstore r hget
        · rw [hauto]
          exact hrecords r₀ hr₀ (hid₀.trans hrid)

/-- A call of a request knows nothing of the guest yet. -/
theorem spent_fresh (hstarts : p.autostarts id = false) (hqueue : p.queue = [])
    (hrecords : p.records = []) : Spent s id p := by
  refine ⟨hstarts, .inr ⟨?_, ?_⟩⟩
  · rw [hqueue]
    exact List.not_mem_nil
  · rw [hrecords]
    exact fun r hr => absurd hr List.not_mem_nil

/-- A pass that lists the guests as the inventory has them. -/
theorem spent_listed (hs : Quiet s id) (hstarts : p.autostarts id = false) (hqueue : p.queue = [])
    (hrecords : p.records = s.node.store.rows) : Spent s id p := by
  refine ⟨hstarts, hs.2.imp_right (fun hrest => ⟨?_, fun r hr hrid => ?_⟩)⟩
  · rw [hqueue]
    exact List.not_mem_nil
  · rw [hrecords] at hr
    exact hrest.2 r (hrid ▸ Table.get_of_mem hr)

end step

namespace Daemon

variable {d d' : Daemon} {s t : Host} {p q : Phase} {m : Move Host Phase} {i j : ℕ} {a : Answer}
  {r : VmRecord} {id : VmId}

/-- What holds of the guests that ended by themselves. -/
structure Off (d : Daemon) : Prop where
  holds : Crew.Holds Calm Left d
  watched : ∀ id ∈ d.shared.off, ∀ r, d.shared.get id = some r → d.shared.runsHere r = true →
    ∃ i p, d.pool.get i = some p ∧ p.watches id = true

theorem Off.turn (h : Off d) (hget : d.pool.get i = some p)
    (hguard : ∀ id ∈ d.shared.off, (p.finds d.shared id = true → id ∈ d.shared.autostarted) ∧
      p.writes id = false)
    (hturn : d.shared.turn i a p = some m) : Off (d.take i m) := by
  have hcourse := course_turn hturn
  have hcalm := h.holds.shared
  have hleft := h.holds.tasks
  have hoff := hcourse.shared.off
  have hown := fun id hid => hleft i p hget id (hoff id hid)
  refine ⟨h.holds.take hget (fun id hid => ?_) (fun q hq id hid => ?_) (fun j q hq id hid => ?_)
    (fun j q _ hj _ id hid => ?_), fun id hid r hgot hruns => ?_⟩
  · exact quiet_change (hcalm id (hoff id hid)) (hown id hid) hcourse.shared hid
      (hguard id (hoff id hid)).1
  · exact spent_follows (hcalm id (hoff id hid)) (hown id hid) hcourse.shared (hcourse.next q hq)
  · exact spent_follows (hcalm id (hoff id hid)) (hown id hid) hcourse.shared (hcourse.spawned q hq)
  · exact spent_other (hown id hid) (hleft j q hj id (hoff id hid)) hcourse.shared
  · rw [Crew.take_shared] at hid hgot hruns
    have hruns' : d.shared.runsHere r = true := by
      rwa [Host.runsHere, Host.mine, hcourse.shared.self] at hruns
    rcases sight_turn hturn hid hgot hruns' with ⟨hold, hnext⟩ | ⟨q, hq, hw⟩ | hstarts | hwrites
    · obtain ⟨j, q, hj, hw⟩ := h.watched id (hoff id hid) r hold hruns'
      by_cases hji : j = i
      · subst hji
        rw [hget] at hj
        cases hj
        obtain ⟨q', hq', hw'⟩ := hnext hw
        exact ⟨j, q', Crew.get_take_next hget hq', hw'⟩
      · exact ⟨j, q, Crew.get_take_ne hget hji hj, hw⟩
    · obtain ⟨j, hj⟩ := Crew.get_take_spawned (c := d) (i := i) hq
      exact ⟨j, q, hj, hw⟩
    · rw [(hown id hid).1] at hstarts
      cases hstarts
    · rw [(hguard id (hoff id hid)).2] at hwrites
      cases hwrites

/-- A request that clears some guests and starts none. -/
theorem Off.become (h : Off d) (hself : t.self = d.shared.self)
    (hoff : ∀ id ∈ t.off, id ∈ d.shared.off) (hlives : ∀ id ∈ t.off, t.lives id = true →
      d.shared.lives id = true) (hdone : t.autostarted = d.shared.autostarted)
    (hrestore : t.restoreOnBoot = d.shared.restoreOnBoot)
    (hstore : ∀ id ∈ t.off, t.get id = d.shared.get id) : Off (d.become t) := by
  refine ⟨h.holds.change (fun id hid => ?_) (fun j q hj hq id hid => ?_), fun id hid r hgot hruns => ?_⟩
  · have hquiet := h.holds.shared id (hoff id hid)
    refine ⟨?_, ?_⟩
    · rw [Bool.eq_false_iff]
      intro hl
      have hl' := hlives id hid hl
      rw [hquiet.1] at hl'
      cases hl'
    · rw [hdone, hrestore, hstore id hid]
      exact hquiet.2
  · have hspent := hq id (hoff id hid)
    refine ⟨hspent.1, ?_⟩
    rw [hdone]
    exact hspent.2
  · have hgot' : d.shared.get id = some r := (hstore id hid).symm.trans hgot
    refine h.watched id (hoff id hid) r hgot' ?_
    have hruns' : t.runsHere r = true := hruns
    rwa [Host.runsHere, Host.mine, hself] at hruns'

theorem Off.spawn (h : Off (d.become t)) (hnew : ∀ id ∈ t.off, Spent t id p) : Off (d.spawn t p) := by
  refine ⟨Crew.Holds.spawn h.holds hnew, fun id hid r hgot hruns => ?_⟩
  obtain ⟨i, q, hi, hw⟩ := h.watched id hid r hgot hruns
  have hold : d.pool.get i = some q := hi
  refine ⟨i, q, ?_, hw⟩
  show (d.pool.spawn p).get i = some q
  rw [Pool.get_spawn, if_neg (Nat.ne_of_lt (Pool.lt_of_get hold))]
  exact hold

theorem Off.asked (h : Off d) (id : VmId) : Off (d.become (d.shared.asked id)) :=
  h.become rfl (fun _ hid => (mem_asked.mp hid).1) (fun _ _ hl => hl) rfl rfl (fun _ _ => rfl)

/-- A record is written for a guest that is not among those that ended by themselves. -/
theorem Off.upsert (h : Off d) (hid : r.id ∉ d.shared.off) : Off (d.become (d.shared.upsert r)) := by
  refine h.become rfl (fun _ hid => hid) (fun _ _ hl => hl) rfl rfl (fun id hoff => ?_)
  have hne : r.id ≠ id := by
    rintro rfl
    exact hid hoff
  rw [get_upsert, if_neg hne]

theorem not_off_asked (s : Host) (id : VmId) : id ∉ (s.asked id).off :=
  fun hid => (mem_asked.mp hid).2 rfl

theorem autostartDone_iff (h : d.autostartDone id = true) :
    (∀ i p, d.pool.get i = some p → p.autostarts id = false) ∧ (id ∈ d.shared.autostarted ∨
      (id ∉ d.shared.restoreOnBoot ∧ (∀ r, d.shared.get id = some r → r.spec.autostart = false) ∧
        ∀ i p, d.pool.get i = some p →
          id ∉ p.queue ∧ ∀ r ∈ p.records, r.id = id → r.spec.autostart = false)) := by
  simp only [autostartDone, Bool.and_eq_true, Bool.or_eq_true, List.all_eq_true, Bool.not_eq_true',
    List.contains_eq_mem, decide_eq_true_eq, decide_eq_false_iff_not, bne_iff_ne] at h
  obtain ⟨hstarts, hdone⟩ := h
  refine ⟨fun i p hget => hstarts p (Pool.mem_all hget), hdone.imp_right (fun hrest => ?_)⟩
  obtain ⟨⟨hrestore, hstore⟩, htasks⟩ := hrest
  refine ⟨hrestore, fun r hget => ?_, fun i p hget => ?_⟩
  · rw [hget] at hstore
    simpa using hstore
  · obtain ⟨hqueue, hrecords⟩ := htasks p (Pool.mem_all hget)
    refine ⟨hqueue, fun r hr hrid => ?_⟩
    exact (hrecords r hr).resolve_left (fun hne => hne hrid)

/-- The guest ends by itself. -/
theorem Off.exits (h : Off d) (hdone : d.autostartDone id = true)
    (hwatch : (d.shared.get id).all (fun r => !d.shared.runsHere r) = true ∨ d.watched id = true) :
    Off (d.become { d.shared.kill id with off := id :: d.shared.off }) := by
  obtain ⟨hstarts, hcases⟩ := autostartDone_iff hdone
  refine ⟨h.holds.change (fun id' hid => ?_) (fun j q hj hq id' hid => ?_),
    fun id' hid r hgot hruns => ?_⟩
  · rcases List.mem_cons.mp hid with rfl | hold
    · refine ⟨?_, hcases.imp_right (fun hrest => ⟨hrest.1, hrest.2.1⟩)⟩
      have hkill : (d.shared.kill id').lives id' = false := by simp [lives_kill]
      exact hkill
    · have hquiet := h.holds.shared id' hold
      refine ⟨?_, hquiet.2⟩
      have hkill : (d.shared.kill id).lives id' = false := by rw [lives_kill, hquiet.1]; rfl
      exact hkill
  · rcases List.mem_cons.mp hid with rfl | hold
    · exact ⟨hstarts j q hj, hcases.imp_right (fun hrest => hrest.2.2 j q hj)⟩
    · exact hq id' hold
  · rcases List.mem_cons.mp hid with rfl | hold
    · rcases hwatch with hidle | hwatched
      · have hgot' : d.shared.get id' = some r := hgot
        rw [hgot', Option.all_some, Bool.not_eq_true'] at hidle
        have hruns' : d.shared.runsHere r = true := hruns
        rw [hidle] at hruns'
        cases hruns'
      · obtain ⟨p, hp, hw⟩ := List.any_eq_true.mp hwatched
        obtain ⟨i, hi⟩ := Pool.get_of_mem hp
        exact ⟨i, p, hi, hw⟩
    · exact h.watched id' hold r hgot hruns

theorem updated_id {n : Node} {req : Service.UpdateVmRequest} {r' : VmRecord}
    (h : updated n req r = .ok r') : r'.id = r.id := by
  unfold updated at h
  obtain ⟨-, -, h⟩ := bind_ok h
  obtain ⟨-, -, h⟩ := bind_ok h
  obtain ⟨-, -, h⟩ := bind_ok h
  obtain ⟨notes, -, h⟩ := bind_ok h
  obtain ⟨-, -, h⟩ := bind_ok h
  cases h
  rfl

/-- What is known of one guest does not speak of another one's record. -/
theorem spent_record (hid : r.id ≠ id) (hstarts : p.autostarts id = false) (hqueue : p.queue = [])
    (hrecords : p.records = [r]) : Spent s id p := by
  refine ⟨hstarts, .inr ⟨?_, fun r' hr hrid => ?_⟩⟩
  · rw [hqueue]
    exact List.not_mem_nil
  · rw [hrecords] at hr
    obtain rfl := List.mem_singleton.mp hr
    exact absurd hrid hid

theorem Off.step {a : Action} (h : Off d) (hguard : WatchFirst d a) (hstep : d.step a = some d') :
    Off d' := by
  cases a with
  | start id =>
    cases hstep
    exact (h.asked id).spawn (fun _ _ => spent_fresh rfl rfl rfl)
  | stop id hard =>
    simp only [Daemon.step] at hstep
    split at hstep
    · cases hstep
      exact h
    · cases hstep
      split
      · exact h
      · exact Off.spawn (t := d.shared) h (fun _ _ => spent_fresh rfl rfl rfl)
  | restart id recreate =>
    simp only [Daemon.step] at hstep
    split at hstep
    · cases hstep
      exact h
    · cases hstep
      split
      · exact h
      · split
        · exact (h.asked id).spawn (fun _ _ => spent_fresh rfl rfl rfl)
        · exact h.asked id
  | update id req =>
    simp only [Daemon.step] at hstep
    split at hstep
    · cases hstep
      exact h
    · rename_i r hget
      split at hstep
      · cases hstep
        exact h
      · rename_i r' hr
        cases hstep
        have hrid : r'.id = id := (updated_id hr).trans (Table.key_of_get hget)
        refine Off.spawn (t := d.shared) h (fun id' hid => spent_record ?_ rfl rfl rfl)
        rintro rfl
        exact hguard (hrid ▸ hid)
  | create id spec runDir =>
    simp only [Daemon.step] at hstep
    split at hstep
    · cases hstep
      exact h
    · cases hstep
      have hnew := h.upsert (r := Service.defined runDir id spec d.shared.self) hguard
      exact hnew.become rfl (fun _ hid => hid) (fun _ _ hl => hl) rfl rfl (fun _ _ => rfl)
  | run record runDir pulled =>
    have hasked := h.asked record.id
    have hnot : record.id ∉ (d.become (d.shared.asked record.id)).shared.off :=
      not_off_asked d.shared record.id
    simp only [Daemon.step] at hstep
    split at hstep
    · cases hstep
      refine hasked.spawn (fun id hid => spent_record ?_ rfl rfl rfl)
      rintro rfl
      exact hnot hid
    · cases hstep
      have hnew := hasked.upsert (r := record.toRun (d.shared.asked record.id).self runDir) hnot
      split
      · exact Off.spawn hnew (fun _ _ => spent_fresh rfl rfl rfl)
      · exact hnew
  | apply record hard again =>
    cases hstep
    cases again with
    | false => exact Off.spawn (h.upsert hguard) (fun _ _ => spent_fresh rfl rfl rfl)
    | true =>
      have hnew := (h.asked record.id).upsert (r := record) (not_off_asked d.shared record.id)
      exact Off.spawn hnew (fun _ _ => spent_fresh rfl rfl rfl)
  | listen record =>
    cases hstep
    exact h.become rfl (fun _ hid => hid) (fun _ _ hl => hl) rfl rfl (fun _ _ => rfl)
  | finish id answer =>
    simp only [Daemon.step] at hstep
    split at hstep
    · cases hstep
      exact h
    · rename_i r hget
      have hrid : r.id = id := Table.key_of_get hget
      split at hstep
      · cases hstep
        have hnew : Off (d.become { d.shared.asked id with
            incoming := d.shared.incoming.erase id, alive := id :: d.shared.alive }) := by
          refine h.become rfl (fun _ hid => (mem_asked.mp hid).1) (fun id' hid hl => ?_) rfl rfl
            (fun _ _ => rfl)
          have hne : id' ≠ id := (mem_asked.mp hid).2
          have hcases : id' = id ∨ d.shared.lives id' = true := by simpa [Host.lives] using hl
          exact hcases.resolve_left hne
        refine Off.spawn hnew (fun id' hid => spent_record ?_ rfl rfl rfl)
        rintro rfl
        exact (mem_asked.mp hid).2 hrid
      · cases hstep
        refine h.become rfl (fun _ hid => (mem_asked.mp hid).1) (fun id' hid hl => ?_) rfl rfl
          (fun _ _ => rfl)
        have hkill : ((d.shared.asked id).kill id).lives id' = true := hl
        rw [lives_kill, Bool.and_eq_true] at hkill
        exact hkill.1
  | tick quorum =>
    cases hstep
    exact Off.spawn (t := d.shared) h
      (fun id hid => spent_listed (h.holds.shared id hid) rfl rfl rfl)
  | reconcile =>
    cases hstep
    exact Off.spawn (t := d.shared) h
      (fun id hid => spent_listed (h.holds.shared id hid) rfl rfl rfl)
  | shutdownAll =>
    cases hstep
    exact Off.spawn (t := d.shared) h
      (fun id hid => spent_listed (h.holds.shared id hid) rfl rfl rfl)
  | turn i answer =>
    obtain ⟨p, hget, hstep⟩ := Option.bind_eq_some_iff.mp hstep
    obtain ⟨m, hturn, hstep⟩ := Option.bind_eq_some_iff.mp hstep
    cases hstep
    refine h.turn hget (fun id hid => ?_) hturn
    rw [WatchFirst, hget, Option.all_some, List.all_eq_true] at hguard
    have hcond := hguard id hid
    simp only [Bool.and_eq_true, Bool.or_eq_true, Bool.not_eq_true', List.contains_eq_mem,
      decide_eq_true_eq] at hcond
    refine ⟨fun hfinds => hcond.1.resolve_left ?_, hcond.2⟩
    rw [hfinds]
    simp
  | cooled =>
    simp only [Daemon.step] at hstep
    split at hstep
    · cases hstep
      exact h.become rfl (fun _ hid => hid) (fun _ _ hl => hl) rfl rfl (fun _ _ => rfl)
    · cases hstep
  | wait seconds =>
    cases hstep
    exact h.become rfl (fun _ hid => hid) (fun _ _ hl => hl) rfl rfl (fun _ _ => rfl)
  | exits id =>
    simp only [Daemon.step] at hstep
    split at hstep
    · cases hstep
      exact h.exits hguard.1 hguard.2
    · cases hstep
  | restartDaemon left =>
    cases hstep
    refine ⟨⟨fun id hid => ?_, fun i p hget => ?_⟩, fun id hid => ?_⟩
    · cases hid
    · cases hget
    · cases hid

/-- Turns of this task alone lead to where the guest's record says that it is stopped. -/
def Marks (d : Daemon) (i : ℕ) (id : VmId) : Prop :=
  ∃ n d', Run (Steps Daemon.step) d (List.replicate n (.turn i (.ok none))) d' ∧
    ∃ r, d'.shared.get id = some r ∧ r.state = .stopped

theorem Marks.turn (hget : d.pool.get i = some p) (hturn : d.shared.turn i (.ok none) p = some m)
    (h : Marks (d.take i m) i id) : Marks d i id := by
  obtain ⟨n, d', hrun, hr⟩ := h
  refine ⟨n + 1, d', ?_, hr⟩
  have hstep : Steps Daemon.step d (.turn i (.ok none)) (d.take i m) := by
    rw [Steps, Daemon.step, hget]
    show (d.shared.turn i (.ok none) p >>= fun m => some (d.take i m)) = some (d.take i m)
    rw [hturn]
    rfl
  rw [List.replicate_succ]
  exact .cons hstep hrun

theorem marks_marked {r₀ : VmRecord} (hget : d.pool.get i = some (.marked r₀ .watch)) :
    Marks d i r₀.id := by
  refine .turn hget rfl ⟨0, _, .nil _, r₀.stopped, ?_, rfl⟩
  rw [Crew.take_shared]
  have hwritten : (d.shared.upsert r₀.stopped).get r₀.id = some r₀.stopped := by
    rw [get_upsert]
    exact if_pos rfl
  exact hwritten

theorem marks_marking {r₀ : VmRecord} (hget : d.pool.get i = some (.marking r₀ .watch)) :
    Marks d i r₀.id :=
  .turn hget rfl (marks_marked (Crew.get_take_next hget rfl))

theorem marks_exited (hget : d.pool.get i = some (.exited id .watch))
    (hrec : d.shared.get id = some r) (hruns : d.shared.runsHere r = true) : Marks d i id := by
  have hturn : d.shared.turn i (.ok none) (.exited id .watch) =
      some { shared := d.shared, next := some (.marking r .watch) } := by
    simp only [Host.turn, Host.exitTurn, hrec, hruns, if_true]
  have hid : r.id = id := Table.key_of_get hrec
  have hmarks := marks_marking (d := d.take i { shared := d.shared, next := some (.marking r .watch) })
    (Crew.get_take_next hget rfl)
  rw [hid] at hmarks
  exact .turn hget hturn hmarks

/-- The exit watch finds the guest gone and marks it stopped. -/
theorem marks_watch (hget : d.pool.get i = some p) (hw : p.watches id = true)
    (hlives : d.shared.lives id = false) (hrec : d.shared.get id = some r)
    (hruns : d.shared.runsHere r = true) : Marks d i id := by
  cases p with
  | watch r₀ =>
    obtain rfl : id = r₀.id := beq_iff_eq.mp hw
    have hturn : d.shared.turn i (.ok none) (.watch r₀) =
        some { shared := d.shared, next := some (.exited r₀.id .watch) } := by
      simp [Host.turn, Host.exitTurn, hrec, runsHere_state hruns, hlives]
    refine .turn hget hturn (marks_exited (Crew.get_take_next hget rfl) (r := r) ?_ ?_)
    · rw [Crew.take_shared]
      exact hrec
    · rw [Crew.take_shared]
      exact hruns
  | exited id' f =>
    cases f with
    | watch =>
      obtain rfl : id = id' := beq_iff_eq.mp hw
      exact marks_exited hget hrec hruns
    | reconcile rest tick => cases hw
  | marking r₀ f =>
    cases f with
    | watch =>
      obtain rfl : id = r₀.id := beq_iff_eq.mp hw
      exact marks_marking hget
    | reconcile rest tick => cases hw
  | marked r₀ f =>
    cases f with
    | watch =>
      obtain rfl : id = r₀.id := beq_iff_eq.mp hw
      exact marks_marked hget
    | reconcile rest tick => cases hw
  | _ => cases hw

/-- A guest that ended by itself is not started while nobody asks for it, and its record says that it
is stopped, or its exit watch goes on to say so. -/
theorem stays_off {as : List Action} (hoff : d.shared.off = [])
    (hrun : Run (Guarded WatchFirst (Steps Daemon.step)) d as d') : ∀ id ∈ d'.shared.off,
      d'.shared.lives id = false ∧ ∀ r, d'.shared.get id = some r → d'.shared.runsHere r = true →
        ∃ i, d'.Marks i id := by
  have hstart : Off d := by
    refine ⟨⟨fun id hid => ?_, fun i p _ id hid => ?_⟩, fun id hid => ?_⟩ <;>
      (rw [hoff] at hid; cases hid)
  have hend : Off d' := hrun.invariant (fun _ _ _ hi hs => hi.step hs.1 hs.2) hstart
  intro id hid
  have hlives := (hend.holds.shared id hid).1
  refine ⟨hlives, fun r hrec hruns => ?_⟩
  obtain ⟨i, p, hget, hw⟩ := hend.watched id hid r hrec hruns
  exact ⟨i, marks_watch hget hw hlives hrec hruns⟩

end Daemon

/-- The guest's exit watch finds that it powered off, and the tick comes afterwards. -/
def powersOff : List Action :=
  [.start (.numeric 100)] ++ goesThrough 0 ++ [.cooled, .exits (.numeric 100)] ++
  List.replicate 4 (.turn 1 (.ok none)) ++ [.tick true] ++ List.replicate 4 (.turn 2 (.ok none))

theorem powersOff_stays : (exec Daemon.step smallNode powersOff).shared.lives (.numeric 100) = false :=
  have hrun : Run (Guarded Daemon.WatchFirst (Steps Daemon.step)) smallNode powersOff
      (exec Daemon.step smallNode powersOff) := Run.of_exec_guarded (by decide +kernel)
  (Daemon.stays_off rfl hrun (.numeric 100) (by decide +kernel)).1

/-- The tick finds the guest gone before its exit watch does, and starts it. -/
def tickFirst : List Action :=
  [.start (.numeric 100)] ++ goesThrough 0 ++ [.cooled, .tick true, .exits (.numeric 100)] ++
  List.replicate 14 (.turn 2 (.ok none))

theorem tickFirst_starts : ¬ ∀ (d d' : Daemon) (as : List Action), d.shared.off = [] →
    Run (Steps Daemon.step) d as d' → ∀ id ∈ d'.shared.off, d'.shared.lives id = false := by
  intro h
  have hlives := h smallNode _ tickFirst rfl (Run.of_exec (by decide +kernel)) (.numeric 100)
    (by decide +kernel)
  exact absurd hlives (by decide +kernel)

end Pertisk.Tasks
