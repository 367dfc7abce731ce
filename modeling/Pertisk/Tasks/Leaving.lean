import Pertisk.Tasks.Exits

namespace Pertisk.Tasks
open Lib

/-- A record of a guest that lives on this node, with its autostart flag. -/
def Kin (s : Host) (auto : Bool) (r : VmRecord) : Prop :=
  s.mine r = true ∧ r.template = false ∧ r.spec.autostart = auto

/-- The next boot starts the guest: it is recorded as running, or it is marked for autostart. -/
def Restorable (s : Host) (auto : Bool) (r : VmRecord) : Prop :=
  Kin s auto r ∧ (auto = true ∨ r.state = .running)

/-- A task that leaves the guest's record as the next boot needs it. -/
def Fine (s : Host) (auto : Bool) (id : VmId) : Phase → Prop
  | .prepared r _ | .reread r _ | .launched r _ | .writing r | .finishing r =>
    r.id = id → Restorable s auto r
  | .checking r _ | .starting r _ | .created r _ | .stopping r _ | .stopped r _ | .marking r _
  | .marked r _ => r.id = id → Kin s auto r ∧ auto = true
  | .exited id' _ | .stop id' _ _ => id' = id → auto = true
  | _ => True

/-- The task works on the guest, or has its record to write back. -/
def Phase.about (id : VmId) : Phase → Bool
  | prepared r _ | reread r _ | launched r _ | writing r | finishing r | checking r _ | starting r _
  | created r _ | stopping r _ | stopped r _ | marking r _ | marked r _ => r.id == id
  | exited id' _ | stop id' _ _ => id' == id
  | _ => false

/-- A watch or a reconcile pass is about to find the guest gone. -/
def Phase.misses (s : Host) (id : VmId) : Phase → Bool
  | watch r => id == r.id && !s.lives r.id
  | reconcile (r :: _) _ => id == r.id && s.runsHere r && !s.lives r.id
  | _ => false

variable {s t : Host} {p q : Phase} {m : Move Host Phase} {i : ℕ} {a : Answer} {r r₀ : VmRecord}
  {c : Caller} {f : Finder} {id : VmId} {auto : Bool}

theorem fine_of_not_about (h : p.about id = false) : Fine s auto id p := by
  cases p <;> first
    | trivial
    | exact fun hid => absurd (beq_iff_eq.mpr hid) (by rw [Bool.eq_false_iff] at h; exact h)

theorem fine_goOn (h : (c.goOn t).next = some q) : Fine s auto id q := by
  obtain ⟨elapsed, rest, -, rfl⟩ := goOn_next c t h
  trivial

theorem fine_finder (h : (f.goOn t).next = some q) : Fine s auto id q := by
  obtain ⟨rest, tick, -, rfl⟩ := finder_next f t h
  trivial

theorem kin_congr (hself : t.self = s.self) (h : Kin s auto r) : Kin t auto r := by
  obtain ⟨hmine, hrest⟩ := h
  refine ⟨?_, hrest⟩
  rw [Host.mine, hself]
  exact hmine

theorem fine_congr (hself : t.self = s.self) (h : Fine s auto id p) : Fine t auto id p := by
  cases p <;> first
    | trivial
    | exact h
    | exact fun hid => ⟨kin_congr hself (h hid).1, (h hid).2⟩

/-- The guest's record, as the next boot needs it. -/
def Stored (s : Host) (auto : Bool) (id : VmId) : Prop := ∃ r, s.get id = some r ∧ Restorable s auto r

theorem stored_congr (hself : t.self = s.self) (hget : t.get id = s.get id) (h : Stored s auto id) :
    Stored t auto id := by
  obtain ⟨r, hr, hkin, hstate⟩ := h
  exact ⟨r, hget.trans hr, kin_congr hself hkin, hstate⟩

/-- A record that is written, if it is the guest's, does for the next boot. -/
theorem stored_upsert (h : Stored s auto id) (hself : t.self = s.self) (hget : t.get id = (s.upsert r).get id)
    (hr : r.id = id → Restorable s auto r) : Stored t auto id := by
  rw [get_upsert] at hget
  split at hget
  · rename_i hid
    exact ⟨r, hget, kin_congr hself (hr hid).1, (hr hid).2⟩
  · exact stored_congr hself hget h

/-- What a step does for one guest. -/
structure Leaves (s : Host) (auto : Bool) (id : VmId) (m : Move Host Phase) : Prop where
  self : m.shared.self = s.self
  stored : Stored m.shared auto id
  next : ∀ q, m.next = some q → Fine s auto id q
  spawned : ∀ q, m.spawned = some q → Fine s auto id q

theorem Leaves.same (h : Stored s auto id) (hself : m.shared.self = s.self)
    (hget : m.shared.get id = s.get id) (hnext : ∀ q, m.next = some q → Fine s auto id q)
    (hspawned : m.spawned = none) : Leaves s auto id m := by
  refine ⟨hself, stored_congr hself hget h, hnext, fun q hq => ?_⟩
  rw [hspawned] at hq
  cases hq

theorem asks_self : (c.asks s id).self = s.self := by cases c <;> rfl

theorem leaves_goOn (h : Stored s auto id) (hself : t.self = s.self) (hget : t.get id = s.get id) :
    Leaves s auto id (c.goOn t) :=
  .same h (by rw [goOn_shared]; exact hself) (by rw [goOn_shared]; exact hget)
    (fun q hq => fine_goOn hq) (by simp)

theorem leaves_finder (h : Stored s auto id) (hself : t.self = s.self) (hget : t.get id = s.get id) :
    Leaves s auto id (f.goOn t) :=
  .same h (by rw [finder_shared]; exact hself) (by rw [finder_shared]; exact hget)
    (fun q hq => fine_finder hq) (by simp)

/-- A record that is read from the inventory. -/
theorem restorable_read (h : Stored s auto id) {id' : VmId} (hget : s.get id' = some r)
    (hid : r.id = id) : Restorable s auto r := by
  obtain ⟨r', hr', hfine⟩ := h
  have hkey : r.id = id' := Table.key_of_get hget
  rw [← hkey, hid, hr'] at hget
  cases hget
  exact hfine

theorem leaves_startTurn (h : Stored s auto id) (hp : Fine s auto id p)
    (hturn : s.startTurn i a p = some m) : Leaves s auto id m := by
  cases p with
  | start id' c =>
    simp only [Host.startTurn] at hturn
    split at hturn
    · cases hturn
      exact leaves_goOn h asks_self (asks_get c s id' id)
    · rename_i r hget
      rw [asks_get] at hget
      cases hturn
      split
      · exact leaves_goOn h asks_self (asks_get c s id' id)
      · refine .same h asks_self (asks_get c s id' id) (fun q hq => ?_) rfl
        cases hq
        exact restorable_read h hget
  | prepared r c =>
    cases hturn
    have hstored : Stored ((c.asks s r.id).upsert r) auto id :=
      stored_upsert (stored_congr asks_self (asks_get c s r.id id) h) rfl rfl
        (fun hid => ⟨kin_congr asks_self (hp hid).1, (hp hid).2⟩)
    split
    · refine ⟨by rw [goOn_shared]; exact asks_self, by rw [goOn_shared]; exact hstored,
        fun q hq => fine_goOn hq, fun q hq => ?_⟩
      rw [goOn_spawned] at hq
      cases hq
    · refine ⟨asks_self, hstored, fun q hq => ?_, fun q hq => ?_⟩
      · cases hq
        trivial
      · cases hq
  | waiting id' c =>
    simp only [Host.startTurn] at hturn
    split at hturn
    · split at hturn
      · cases hturn
        exact leaves_goOn h asks_self (asks_get c s id' id)
      · rename_i r hget
        rw [asks_get] at hget
        cases hturn
        refine .same h asks_self (asks_get c s id' id) (fun q hq => ?_) rfl
        cases hq
        exact restorable_read h hget
    · cases hturn
  | reread r c =>
    cases hturn
    have hstored : Stored ((c.asks s r.id).upsert r) auto id :=
      stored_upsert (stored_congr asks_self (asks_get c s r.id id) h) rfl rfl
        (fun hid => ⟨kin_congr asks_self (hp hid).1, (hp hid).2⟩)
    split
    · refine ⟨by rw [goOn_shared]; exact asks_self, by rw [goOn_shared]; exact hstored,
        fun q hq => fine_goOn hq, fun q hq => ?_⟩
      rw [goOn_spawned] at hq
      cases hq
    · rename_i hstate
      refine ⟨asks_self, hstored, fun q hq => ?_, fun q hq => ?_⟩
      · cases hq
        exact fun hid => ⟨(hp hid).1, (hp hid).2.resolve_right hstate⟩
      · cases hq
  | checking r c =>
    cases hturn
    split
    · refine .same h asks_self (asks_get c s r.id id) (fun q hq => ?_) rfl
      cases hq
      exact hp
    · exact leaves_goOn h asks_self (asks_get c s r.id id)
  | starting r c =>
    simp only [Host.startTurn] at hturn
    split at hturn
    · rename_i process
      cases hturn
      have hkin : r.id = id → Kin s auto (r.withCreated process) := by
        intro hid
        obtain ⟨⟨hmine, htemplate, hauto⟩, -⟩ := hp hid
        cases process <;> exact ⟨hmine, htemplate, hauto⟩
      have hstored : Stored ((c.asks s r.id).upsert (r.withCreated process)) auto id := by
        refine stored_upsert (stored_congr asks_self (asks_get c s r.id id) h) rfl rfl (fun hid => ?_)
        rw [VmRecord.withCreated_id] at hid
        exact ⟨kin_congr asks_self (hkin hid), .inl (hp hid).2⟩
      refine ⟨asks_self, hstored, fun q hq => ?_, fun q hq => ?_⟩
      · cases hq
        intro hid
        rw [VmRecord.withCreated_id] at hid
        exact ⟨hkin hid, (hp hid).2⟩
      · cases hq
    · rename_i text
      cases hturn
      have hstored : Stored ((c.asks s r.id).upsert (r.failed text)) auto id :=
        stored_upsert (stored_congr asks_self (asks_get c s r.id id) h) rfl rfl
          (fun hid => ⟨kin_congr asks_self (hp hid).1, .inl (hp hid).2⟩)
      refine ⟨by rw [goOn_shared]; exact asks_self, by rw [goOn_shared]; exact hstored,
        fun q hq => fine_goOn hq, fun q hq => ?_⟩
      rw [goOn_spawned] at hq
      cases hq
  | created r c =>
    simp only [Host.startTurn] at hturn
    split at hturn
    · rename_i process
      split at hturn
      · cases hturn
        refine .same h rfl rfl (fun q hq => ?_) rfl
        cases hq
        intro hid
        obtain ⟨⟨hmine, htemplate, hauto⟩, hyes⟩ := hp hid
        refine ⟨⟨?_, htemplate, hauto⟩, .inl hyes⟩
        rw [Host.mine, beq_iff_eq] at hmine ⊢
        simp [VmRecord.started, VmRecord.withCreated, hmine]
      · cases hturn
    · rename_i text
      cases hturn
      have hstored : Stored (s.upsert (r.failed text)) auto id :=
        stored_upsert h rfl rfl (fun hid => ⟨(hp hid).1, .inl (hp hid).2⟩)
      refine ⟨by rw [goOn_shared]; rfl, by rw [goOn_shared]; exact hstored,
        fun q hq => fine_goOn hq, fun q hq => ?_⟩
      rw [goOn_spawned] at hq
      cases hq
  | launched r c =>
    cases hturn
    have hstored : Stored (s.upsert r) auto id := stored_upsert h rfl rfl hp
    refine ⟨by rw [goOn_shared]; rfl, by rw [goOn_shared]; exact hstored,
      fun q hq => fine_goOn hq, fun q hq => ?_⟩
    simp only [Host.watchOf] at hq
    split at hq
    · cases hq
      trivial
    · cases hq
  | _ => cases hturn

theorem leaves_stopTurn (h : Stored s auto id) (hp : Fine s auto id p)
    (hturn : s.stopTurn a p = some m) : Leaves s auto id m := by
  have hno : ∀ q : Phase, (none : Option Phase) = some q → Fine s auto id q := fun q hq => by cases hq
  cases p with
  | stop id' hard again =>
    simp only [Host.stopTurn] at hturn
    split at hturn
    · cases hturn
      exact .same h rfl rfl hno rfl
    · rename_i r hget
      cases hturn
      split
      · exact .same h rfl rfl hno rfl
      · refine .same h rfl rfl (fun q hq => ?_) rfl
        cases hq
        intro hid
        exact ⟨(restorable_read h hget hid).1, hp ((Table.key_of_get hget).symm.trans hid)⟩
  | stopping r again =>
    simp only [Host.stopTurn] at hturn
    split at hturn
    · split at hturn
      · cases hturn
        refine .same h rfl rfl (fun q hq => ?_) rfl
        cases hq
        exact hp
      · cases hturn
        exact .same h rfl rfl hno rfl
    · cases hturn
      refine .same h rfl rfl (fun q hq => ?_) rfl
      cases hq
      exact hp
  | stopped r again =>
    cases hturn
    have hstored : Stored (s.upsert r.stopped) auto id :=
      stored_upsert h rfl rfl (fun hid => ⟨(hp hid).1, .inl (hp hid).2⟩)
    refine ⟨rfl, hstored, fun q hq => ?_, hno⟩
    dsimp only at hq
    split at hq
    · cases hq
      trivial
    · cases hq
  | writing r =>
    cases hturn
    have hstored : Stored (s.upsert r) auto id := stored_upsert h rfl rfl hp
    exact ⟨rfl, hstored, hno, hno⟩
  | finishing r =>
    cases hturn
    have hstored : Stored (s.upsert r) auto id := stored_upsert h rfl rfl hp
    refine ⟨rfl, hstored, hno, fun q hq => ?_⟩
    simp only [Host.watchOf] at hq
    split at hq
    · cases hq
      trivial
    · cases hq
  | _ => cases hturn

/-- The watch looks for the guest only where the next boot starts it all the same. -/
theorem leaves_exitTurn (h : Stored s auto id) (hp : Fine s auto id p)
    (hlook : auto = false → p.misses s id = false) (hturn : s.exitTurn p = some m) :
    Leaves s auto id m := by
  have hno : ∀ q : Phase, (none : Option Phase) = some q → Fine s auto id q := fun q hq => by cases hq
  cases p with
  | watch r =>
    simp only [Host.exitTurn] at hturn
    split at hturn
    · cases hturn
      exact .same h rfl rfl hno rfl
    · cases hturn
      split
      · exact .same h rfl rfl hno rfl
      · refine .same h rfl rfl (fun q hq => ?_) rfl
        cases hq
        split
        · trivial
        · rename_i hgone
          intro hid
          by_contra hauto
          have hmiss := hlook (Bool.eq_false_iff.mpr hauto)
          simp [Phase.misses, hid, hid ▸ hgone] at hmiss
  | exited id' f =>
    simp only [Host.exitTurn] at hturn
    split at hturn
    · cases hturn
      exact leaves_finder h rfl rfl
    · rename_i r hget
      cases hturn
      split
      · refine .same h rfl rfl (fun q hq => ?_) rfl
        cases hq
        intro hid
        exact ⟨(restorable_read h hget hid).1, hp ((Table.key_of_get hget).symm.trans hid)⟩
      · exact leaves_finder h rfl rfl
  | marking r f =>
    cases hturn
    refine .same h rfl rfl (fun q hq => ?_) rfl
    cases hq
    exact hp
  | marked r f =>
    cases hturn
    have hstored : Stored (s.upsert r.stopped) auto id :=
      stored_upsert h rfl rfl (fun hid => ⟨(hp hid).1, .inl (hp hid).2⟩)
    refine ⟨by rw [finder_shared]; rfl, by rw [finder_shared]; exact hstored,
      fun q hq => fine_finder hq, fun q hq => ?_⟩
    rw [finder_spawned] at hq
    cases hq
  | _ => cases hturn

theorem leaves_passTurn (h : Stored s auto id) (hlook : auto = false → p.misses s id = false)
    (hturn : s.passTurn a p = some m) : Leaves s auto id m := by
  have hno : ∀ q : Phase, (none : Option Phase) = some q → Fine s auto id q := fun q hq => by cases hq
  cases p with
  | reconcile todo tick =>
    cases todo with
    | nil =>
      cases hturn
      refine .same h rfl rfl (fun q hq => ?_) rfl
      dsimp only at hq
      split at hq
      · cases hq
        trivial
      · cases hq
    | cons r todo =>
      simp only [Host.passTurn] at hturn
      split at hturn
      · cases hturn
        refine .same h ?_ ?_ (fun q hq => ?_) rfl
        · dsimp only
          split <;> rfl
        · dsimp only
          split <;> rfl
        · cases hq
          trivial
      · split at hturn
        · rename_i hgone
          cases hturn
          refine .same h ?_ ?_ (fun q hq => ?_) rfl
          · dsimp only
            split <;> rfl
          · dsimp only
            split <;> rfl
          · cases hq
            intro hid
            by_contra hauto
            have hmiss := hlook (Bool.eq_false_iff.mpr hauto)
            have hfound : Phase.misses s id (.reconcile (r :: todo) tick) = true := by
              rw [← hid]
              simpa [Phase.misses] using hgone
            rw [hfound] at hmiss
            cases hmiss
        · cases hturn
          refine .same h rfl rfl (fun q hq => ?_) rfl
          cases hq
          trivial
  | autostart elapsed todo =>
    cases todo with
    | nil =>
      cases hturn
      exact .same h rfl rfl hno rfl
    | cons r todo =>
      simp only [Host.passTurn] at hturn
      split at hturn
      · cases hturn
        refine .same h rfl rfl (fun q hq => ?_) rfl
        cases hq
        trivial
      · split at hturn
        · cases hturn
          refine .same h rfl rfl (fun q hq => ?_) rfl
          cases hq
          trivial
        · cases hturn
          refine .same h rfl rfl (fun q hq => ?_) rfl
          cases hq
          split <;> trivial
  | taken r elapsed todo =>
    cases hturn
    split
    · refine .same h rfl rfl (fun q hq => ?_) rfl
      cases hq
      trivial
    · exact .same h rfl rfl hno rfl
  | shutdown todo =>
    cases todo with
    | nil =>
      cases hturn
      exact .same h rfl rfl hno rfl
    | cons r todo =>
      cases hturn
      refine .same h ?_ ?_ (fun q hq => ?_) rfl
      · dsimp only
        split <;> rfl
      · dsimp only
        split <;> rfl
      · cases hq
        trivial
  | _ => cases hturn

theorem leaves_turn (h : Stored s auto id) (hp : Fine s auto id p)
    (hlook : auto = false → p.misses s id = false) (hturn : s.turn i a p = some m) :
    Leaves s auto id m := by
  unfold Host.turn at hturn
  split at hturn
  all_goals first
    | exact leaves_startTurn h hp hturn
    | exact leaves_stopTurn h hp hturn
    | exact leaves_exitTurn h hp hlook hturn
    | exact leaves_passTurn h hlook hturn

namespace Daemon

variable {d d' : Daemon} {guests : List VmId}

/-- The guest's record is marked for autostart. -/
def flagged (d : Daemon) (id : VmId) : Bool := (d.shared.get id).any (fun r => r.spec.autostart)

/-- These guests are recorded as running here, and no task but their watches works on them. -/
structure Running (guests : List VmId) (d : Daemon) : Prop where
  stored : ∀ id ∈ guests, ∃ r, d.shared.get id = some r ∧ d.shared.runsHere r = true ∧
    r.template = false
  about : ∀ i p, d.pool.get i = some p → ∀ id ∈ guests, p.about id = false

/-- The tasks go on, ticks come and guests end, and nobody asks for anything. No watch and no reconcile
pass looks for one of these guests while it is gone, unless it is marked for autostart. -/
def Unseen (guests : List VmId) (d : Daemon) : Action → Prop
  | .turn i _ => (d.pool.get i).all (fun p => guests.all (fun id => d.flagged id || !p.misses d.shared id)) = true
  | .tick _ | .reconcile | .shutdownAll | .cooled | .wait _ | .exits _ => True
  | _ => False

instance (guests : List VmId) (d : Daemon) : ∀ a, Decidable (Unseen guests d a)
  | .turn .. => instDecidableEqBool _ _
  | .tick _ | .reconcile | .shutdownAll | .cooled | .wait _ | .exits _ => .isTrue trivial
  | .start _ | .stop .. | .restart .. | .update .. | .create .. | .run .. | .apply .. | .listen _ |
    .finish .. | .restartDaemon _ => .isFalse not_false

/-- Each guest's record is as the next boot needs it, and each task leaves it so. -/
def Ready (guests : List VmId) (auto : VmId → Bool) (d : Daemon) : Prop :=
  Crew.Holds (fun s => ∀ id ∈ guests, Stored s (auto id) id)
    (fun s _ p => ∀ id ∈ guests, Fine s (auto id) id p) d

theorem Running.ready (h : Running guests d) : Ready guests d.flagged d := by
  refine ⟨fun id hid => ?_, fun i p hget id hid => fine_of_not_about (h.about i p hget id hid)⟩
  obtain ⟨r, hr, hruns, htemplate⟩ := h.stored id hid
  have hparts := hruns
  rw [Host.runsHere, Bool.and_eq_true] at hparts
  refine ⟨r, hr, ⟨hparts.2, htemplate, ?_⟩, .inr (runsHere_state hruns)⟩
  rw [flagged, hr]
  rfl

theorem Ready.flagged_eq {auto : VmId → Bool} (h : Ready guests auto d) {id : VmId} (hid : id ∈ guests) :
    d.flagged id = auto id := by
  obtain ⟨r, hr, ⟨-, -, hauto⟩, -⟩ := h.shared id hid
  rw [flagged, hr]
  exact hauto

theorem Ready.begin {auto : VmId → Bool} (h : Ready guests auto d) {p : Phase}
    (hp : ∀ id, p.about id = false) : Ready guests auto (d.spawn d.shared p) :=
  Crew.Holds.spawn h (fun id _ => fine_of_not_about (hp id))

theorem Ready.become {auto : VmId → Bool} (h : Ready guests auto d) {t : Host}
    (hself : t.self = d.shared.self) (hget : ∀ id, t.get id = d.shared.get id) :
    Ready guests auto (d.become t) :=
  h.change (fun id hid => stored_congr hself (hget id) (h.shared id hid))
    (fun _ _ _ hq id hid => fine_congr hself (hq id hid))

theorem Ready.step {auto : VmId → Bool} {a : Action} (h : Ready guests auto d)
    (hguard : Unseen guests d a) (hstep : d.step a = some d') : Ready guests auto d' := by
  cases a with
  | turn i answer =>
    obtain ⟨p, hget, hstep⟩ := Option.bind_eq_some_iff.mp hstep
    obtain ⟨m, hturn, hstep⟩ := Option.bind_eq_some_iff.mp hstep
    cases hstep
    rw [Unseen, hget, Option.all_some, List.all_eq_true] at hguard
    have hleaves : ∀ id ∈ guests, Leaves d.shared (auto id) id m := by
      intro id hid
      refine leaves_turn (h.shared id hid) (h.tasks i p hget id hid) (fun hauto => ?_) hturn
      have hcond := hguard id hid
      rw [h.flagged_eq hid, hauto, Bool.false_or, Bool.not_eq_true'] at hcond
      exact hcond
    refine h.take hget (fun id hid => (hleaves id hid).stored) (fun q hq id hid => ?_)
      (fun j q hq id hid => ?_) (fun j q _ _ hq id hid => ?_)
    · exact fine_congr (hleaves id hid).self ((hleaves id hid).next q hq)
    · exact fine_congr (hleaves id hid).self ((hleaves id hid).spawned q hq)
    · exact fine_congr (hleaves id hid).self (hq id hid)
  | tick quorum =>
    cases hstep
    exact h.begin (fun _ => rfl)
  | reconcile =>
    cases hstep
    exact h.begin (fun _ => rfl)
  | shutdownAll =>
    cases hstep
    exact h.begin (fun _ => rfl)
  | cooled =>
    simp only [Daemon.step] at hstep
    split at hstep
    · cases hstep
      exact h.become rfl (fun _ => rfl)
    · cases hstep
  | wait seconds =>
    cases hstep
    exact h.become rfl (fun _ => rfl)
  | exits id =>
    simp only [Daemon.step] at hstep
    split at hstep
    · cases hstep
      exact h.become rfl (fun _ => rfl)
    · cases hstep
  | _ => exact absurd hguard id

end Daemon

end Pertisk.Tasks
