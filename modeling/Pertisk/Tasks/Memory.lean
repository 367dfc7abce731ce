import Pertisk.Lib.Table
import Pertisk.Tasks.Effect

namespace Pertisk.Tasks
open Lib

/-- The host memory less the host reserve. -/
def budgetMib (hostMib : Nat) : Nat := hostMib - hostMemoryReserveMib (min hostMib u32Max)

theorem fits_budget {host : UInt64} {running need : Nat}
    (h : guestStartFits host.toNat running need = true) : running + need ≤ budgetMib host.toNat := by
  have hfits : saturatingAdd running need ≤ budgetMib host.toNat := of_decide_eq_true h
  have hbudget : budgetMib host.toNat < 2 ^ 64 := lt_of_le_of_lt (Nat.sub_le _ _) host.toNat_lt
  have hreserve : 64 ≤ hostMemoryReserveMib (min host.toNat u32Max) := by
    unfold hostMemoryReserveMib
    omega
  have hhost := host.toNat_lt
  unfold budgetMib at *
  unfold saturatingAdd u64Max at hfits
  omega

namespace Host

variable (s : Host)

/-- The sum over the guests that are recorded as running on this node. -/
def usedMib : Nat := ((s.node.store.rows.filter s.runsHere).map (fun r => r.spec.memoryMib)).sum

def memory (r : VmRecord) : Nat := if s.runsHere r then r.spec.memoryMib else 0

theorem usedMib_total : s.usedMib = s.node.store.total s.memory := Table.total_filter s.runsHere

theorem runningMib_total (id : VmId) :
    s.runningMib id = (s.node.store.erase id).total s.memory := by
  have hfilter := Table.total_filter (t := s.node.store.erase id) (f := fun r => r.spec.memoryMib)
    s.runsHere
  have hrows : (s.node.store.erase id).rows.filter s.runsHere =
      s.node.store.rows.filter (fun r => r.id != id && s.runsHere r) := by
    rw [Table.erase, List.filter_filter]
    refine List.filter_congr (fun r _ => ?_)
    by_cases hid : r.id = id <;> simp [hid]
  rw [hrows] at hfilter
  exact hfilter

variable {s} {t : Host} {q r : VmRecord} {id : VmId}

theorem runsHere_congr (h : t.node.cluster = s.node.cluster) : t.runsHere = s.runsHere := by
  funext r
  rw [runsHere, runsHere, mine, mine, self, self, h]

theorem memory_congr (h : t.node.cluster = s.node.cluster) : t.memory = s.memory := by
  funext r
  rw [memory, memory, runsHere_congr h]

theorem usedMib_congr (h : t.node = s.node) : t.usedMib = s.usedMib := by
  rw [usedMib, usedMib, h, runsHere_congr (s := s) (t := t) (by rw [h])]

theorem runningMib_congr (h : t.node = s.node) : t.runningMib id = s.runningMib id := by
  rw [runningMib, runningMib, h, runsHere_congr (s := s) (t := t) (by rw [h])]

theorem used_upsert (h : t.node = s.node.upsertVm q) : t.usedMib = s.runningMib q.id + s.memory q := by
  have hcluster : t.node.cluster = s.node.cluster := by rw [h]; rfl
  rw [usedMib_total, runningMib_total, h, memory_congr hcluster]
  exact Table.total_insert

theorem running_upsert_self (h : t.node = s.node.upsertVm q) :
    t.runningMib q.id = s.runningMib q.id := by
  have hcluster : t.node.cluster = s.node.cluster := by rw [h]; rfl
  rw [runningMib_total, runningMib_total, h, memory_congr hcluster]
  exact congrArg (Table.total · s.memory) Table.erase_insert_self

theorem running_upsert_ne (h : t.node = s.node.upsertVm q) (hne : id ≠ q.id) :
    t.runningMib id ≤ s.runningMib q.id + s.memory q := by
  have hcluster : t.node.cluster = s.node.cluster := by rw [h]; rfl
  rw [runningMib_total, runningMib_total, h, memory_congr hcluster]
  have herase : (s.node.upsertVm q).store.erase id = (s.node.store.erase id).insert q :=
    Table.erase_insert_ne hne
  rw [herase, Table.total_insert, Table.erase_comm]
  exact Nat.add_le_add_right Table.total_erase_le _

/-- A record that takes no more than the one it replaces. -/
def Light (s : Host) (q : VmRecord) : Prop := s.memory q ≤ ((s.get q.id).map s.memory).getD 0

theorem Light.used (hl : s.Light q) (h : t.node = s.node.upsertVm q) : t.usedMib ≤ s.usedMib := by
  have hcluster : t.node.cluster = s.node.cluster := by rw [h]; rfl
  rw [usedMib_total, usedMib_total, h, memory_congr hcluster]
  exact Table.total_insert_le hl

theorem Light.running (hl : s.Light q) (h : t.node = s.node.upsertVm q) (id : VmId) :
    t.runningMib id ≤ s.runningMib id := by
  have hcluster : t.node.cluster = s.node.cluster := by rw [h]; rfl
  rw [runningMib_total, runningMib_total, h, memory_congr hcluster]
  exact Table.total_erase_insert_le hl

theorem light_of_not_runsHere (h : s.runsHere q = false) : s.Light q := by
  rw [Light, memory, h]
  exact Nat.zero_le _

theorem light_of_state (h : q.state ≠ .running) : s.Light q := by
  refine light_of_not_runsHere ?_
  rw [runsHere, Bool.and_eq_false_iff]
  exact .inl (by simpa using h)

/-- The guest is recorded as running here as the record says, or with more memory. -/
def unchanged (s : Host) (r : VmRecord) : Bool :=
  (s.get r.id).any (fun now => s.runsHere now && decide (r.spec.memoryMib ≤ now.spec.memoryMib))

theorem light_of_unchanged (h : s.unchanged q = true) : s.Light q := by
  cases hnow : s.get q.id with
  | none =>
    rw [unchanged, hnow] at h
    cases h
  | some now =>
    rw [unchanged, hnow, Option.any_some, Bool.and_eq_true] at h
    rw [Light, hnow, Option.map_some, Option.getD_some, memory, memory, if_pos h.1]
    split
    · exact of_decide_eq_true h.2
    · exact Nat.zero_le _

end Host

namespace Daemon

variable (d : Daemon)

/-- The memory of the guests for which a start call has found room and which it has not yet recorded
as running. -/
def reservedMib (except : VmId) : Nat :=
  (((d.pool.all.filterMap Phase.reserved).filter (fun r => r.id != except)).map
    (fun r => r.spec.memoryMib)).sum

/-- The guest fits beside those that run and the one that is about to. -/
def room (r : VmRecord) : Bool :=
  match d.shared.hostMib with
  | some host =>
    guestStartFits host.toNat (d.shared.runningMib r.id + d.reservedMib r.id) r.spec.memoryMib
  | none => true

def admits (r : VmRecord) : Bool := !d.shared.runsHere r || d.shared.unchanged r || d.room r

/-- A record that is written as running here without the check of a start is still the recorded one,
or its guest fits. -/
def Admitted (d : Daemon) : Action → Prop
  | .turn i _ => ((d.pool.get i).bind Phase.rewrites).all d.admits = true
  | .apply record _ _ => d.admits record = true
  | _ => True

instance (d : Daemon) : ∀ a, Decidable (Admitted d a)
  | .turn .. | .apply .. => instDecidableEqBool _ _
  | .start _ | .stop .. | .restart .. | .update .. | .create .. | .run .. | .listen _ | .finish .. |
    .tick _ | .reconcile | .shutdownAll | .cooled | .wait _ | .exits _ | .restartDaemon _ =>
    .isTrue trivial

variable {d} {host : UInt64} {i j : ℕ} {p q : Phase} {m : Move Host Phase} {s t : Host}
  {r r' : VmRecord}

/-- The guests that are recorded as running fit. -/
structure Within (host : UInt64) (s : Host) : Prop where
  hostMib : s.hostMib = some host
  used : s.usedMib ≤ budgetMib host.toNat

/-- What a task at the gate relies on. -/
structure Kept (host : UInt64) (s : Host) (i : ℕ) (p : Phase) : Prop where
  gate : p.gated → s.gate = .held i
  unstarted : ∀ r, p.unstarted = some r → r.state ≠ .running
  reserved : ∀ r, p.reserved = some r → s.runningMib r.id + r.spec.memoryMib ≤ budgetMib host.toNat

/-- The guests that run fit, and the one that is about to. -/
def Fits (host : UInt64) (d : Daemon) : Prop := Crew.Holds (Within host) (Kept host) d

/-- What is kept for a guest is the part of a start call behind the gate. -/
theorem gated_of_reserved (h : p.reserved = some r) : p.gated = true := by
  cases p <;> first
    | rfl
    | cases h

theorem idle_kept (hg : p.gated = false) (hu : p.unstarted = none) (hr : p.reserved = none) :
    Kept host s i p := by
  refine ⟨fun h => ?_, fun r h => ?_, fun r h => ?_⟩
  · rw [hg] at h
    cases h
  · rw [hu] at h
    cases h
  · rw [hr] at h
    cases h

theorem reserved_le (hget : d.pool.get j = some q) (hr : q.reserved = some r') {id : VmId}
    (hne : r'.id ≠ id) : r'.spec.memoryMib ≤ d.reservedMib id := by
  refine List.single_le_sum (fun _ _ => Nat.zero_le _) _ (List.mem_map_of_mem ?_)
  refine List.mem_filter.mpr ⟨List.mem_filterMap.mpr ⟨q, Pool.mem_all hget, hr⟩, by simpa using hne⟩

/-- What is written with `admits` leaves enough for the guests that run and for the one that is
about to. -/
theorem admits_write (h : Fits host d) (hadmits : d.admits r = true)
    (ht : t.node = d.shared.node.upsertVm r) :
    t.usedMib ≤ budgetMib host.toNat ∧ ∀ j q r', d.pool.get j = some q → q.reserved = some r' →
      t.runningMib r'.id + r'.spec.memoryMib ≤ budgetMib host.toNat := by
  have hused := h.shared.used
  have hkept : ∀ j q r', d.pool.get j = some q → q.reserved = some r' →
      d.shared.runningMib r'.id + r'.spec.memoryMib ≤ budgetMib host.toNat :=
    fun j q r' hget hr => (h.tasks j q hget).reserved r' hr
  have hlight : d.shared.Light r → t.usedMib ≤ budgetMib host.toNat ∧
      ∀ j q r', d.pool.get j = some q → q.reserved = some r' →
        t.runningMib r'.id + r'.spec.memoryMib ≤ budgetMib host.toNat := by
    intro hl
    refine ⟨le_trans (hl.used ht) hused, fun j q r' hget hr => ?_⟩
    exact le_trans (Nat.add_le_add_right (hl.running ht r'.id) _) (hkept j q r' hget hr)
  rw [admits, Bool.or_eq_true, Bool.or_eq_true, Bool.not_eq_true'] at hadmits
  rcases hadmits with (hout | hsame) | hroom
  · exact hlight (Host.light_of_not_runsHere hout)
  · exact hlight (Host.light_of_unchanged hsame)
  · rw [room, h.shared.hostMib] at hroom
    have hfits := fits_budget hroom
    have hmem : d.shared.memory r ≤ r.spec.memoryMib := by
      rw [Host.memory]
      split
      · exact le_refl _
      · exact Nat.zero_le _
    refine ⟨?_, fun j q r' hget hr => ?_⟩
    · rw [Host.used_upsert ht]
      omega
    · by_cases hid : r'.id = r.id
      · have hsame := Host.running_upsert_self ht
        rw [hid, hsame, ← hid]
        exact hkept j q r' hget hr
      · have hother := Host.running_upsert_ne ht hid
        have hreserved := reserved_le hget hr hid
        omega

theorem Fits.upsert (h : Fits host d) (hadmits : d.admits r = true) :
    Fits host (⟨d.shared.upsert r, d.pool⟩ : Daemon) := by
  obtain ⟨hused, hreserved⟩ := admits_write h hadmits (t := d.shared.upsert r) rfl
  refine h.change ⟨h.shared.hostMib, hused⟩ (fun j q hget hq => ⟨hq.gate, hq.unstarted, ?_⟩)
  exact fun r' hr => hreserved j q r' hget hr

theorem startCapacity_budget {disk : Answer} (hhost : s.hostMib = some host)
    (h : s.startCapacity r disk = true) :
    s.runningMib r.id + r.spec.memoryMib ≤ budgetMib host.toNat := by
  rw [Host.startCapacity, hhost, Bool.and_eq_true] at h
  exact fits_budget h.2

/-- What a step leaves in use, and beside the room that is kept by it or by another call. -/
theorem turn_memory (h : Fits host d) (hget : d.pool.get i = some p)
    (hadmits : p.rewrites.all d.admits = true) (e : Effect d.shared i p m) :
    m.shared.usedMib ≤ budgetMib host.toNat ∧ ∀ j q r, d.pool.get j = some q →
      q.reserved = some r → m.shared.runningMib r.id + r.spec.memoryMib ≤ budgetMib host.toNat := by
  have hused := h.shared.used
  have hkept : ∀ j q r, d.pool.get j = some q → q.reserved = some r →
      d.shared.runningMib r.id + r.spec.memoryMib ≤ budgetMib host.toNat :=
    fun j q r hj hr => (h.tasks j q hj).reserved r hr
  have hlight : ∀ r, d.shared.Light r → m.shared.node = d.shared.node.upsertVm r →
      m.shared.usedMib ≤ budgetMib host.toNat ∧ ∀ j q r, d.pool.get j = some q →
        q.reserved = some r → m.shared.runningMib r.id + r.spec.memoryMib ≤ budgetMib host.toNat := by
    intro r hl hnode
    refine ⟨le_trans (hl.used hnode) hused, fun j q r' hj hr => ?_⟩
    exact le_trans (Nat.add_le_add_right (hl.running hnode r'.id) _) (hkept j q r' hj hr)
  rcases e.node with hnode | ⟨r, hnode, hwrote⟩
  · rw [Host.usedMib_congr hnode]
    refine ⟨hused, fun j q r hj hr => ?_⟩
    rw [Host.runningMib_congr hnode]
    exact hkept j q r hj hr
  · cases hwrote with
    | back hr =>
      rw [hr, Option.all_some] at hadmits
      exact admits_write h hadmits hnode
    | ended hstate => exact hlight r (Host.light_of_state hstate) hnode
    | process r₀ c process =>
      refine hlight _ (Host.light_of_state ?_) hnode
      have hstate := (h.tasks i _ hget).unstarted r₀ rfl
      cases process <;> exact hstate
    | launched r c =>
      have hfits := hkept i _ r hget rfl
      have hmem : d.shared.memory r ≤ r.spec.memoryMib := by
        rw [Host.memory]
        split
        · exact le_refl _
        · exact Nat.zero_le _
      refine ⟨?_, fun j q r' hj hr => ?_⟩
      · rw [Host.used_upsert hnode]
        omega
      · -- The gate is held by this call, so what is kept is kept for its own guest.
        have hown := (h.tasks i _ hget).gate rfl
        have hother := (h.tasks j q hj).gate (gated_of_reserved hr)
        rw [hown] at hother
        cases hother
        rw [hget] at hj
        cases hj
        cases hr
        rw [Host.running_upsert_self hnode]
        exact hfits

theorem Fits.turn {a : Answer} (h : Fits host d)
    (hget : d.pool.get i = some p) (hadmits : p.rewrites.all d.admits = true)
    (hturn : d.shared.turn i a p = some m) : Fits host (d.take i m) := by
  have e := effect_turn hturn
  have hp := h.tasks i p hget
  obtain ⟨hused, hreserved⟩ := turn_memory h hget hadmits e
  refine h.take hget ⟨by rw [e.hostMib]; exact h.shared.hostMib, hused⟩ (fun q hq => ?_)
    (fun j q hq => ?_) (fun j q hji hj hold => ?_)
  · refine ⟨fun hg => ?_, fun r hr => ?_, fun r hr => ?_⟩
    · rcases e.gate with ⟨hsame, hback⟩ | ⟨-, htaken⟩ | ⟨-, hout⟩
      · rw [hsame]
        exact hp.gate (hback q hq hg)
      · exact htaken
      · exact absurd hg (hout q hq)
    · rcases e.unstarted q r hq hr with hstate | ⟨r₀, hr₀, hstate⟩
      · exact hstate
      · rw [hstate]
        exact hp.unstarted r₀ hr₀
    · rcases e.reserved q r hq hr with ⟨hnode, disk, hroom⟩ | ⟨r₀, hr₀, hid, hspec⟩
      · rw [Host.runningMib_congr hnode]
        exact startCapacity_budget h.shared.hostMib hroom
      · rw [hid, hspec]
        exact hreserved i p r₀ hget hr₀
  · obtain ⟨r, rfl⟩ := e.spawned q hq
    exact idle_kept rfl rfl rfl
  · refine ⟨fun hg => ?_, hold.unstarted, fun r hr => hreserved j q r hj hr⟩
    have hheld := hold.gate hg
    rcases e.gate with ⟨hsame, -⟩ | ⟨hfree, -⟩ | ⟨hown, -⟩
    · rw [hsame]
      exact hheld
    · rw [hheld] at hfree
      cases hfree
    · rw [hp.gate hown] at hheld
      cases hheld
      exact absurd rfl hji

/-- A request changes neither the inventory nor the gate; the task that it begins is not there yet. -/
theorem Fits.request (h : Fits host d) (hnode : t.node = d.shared.node)
    (hhost : t.hostMib = d.shared.hostMib) (hgate : t.gate = d.shared.gate) :
    Fits host (d.become t) := by
  refine h.change ⟨by rw [hhost]; exact h.shared.hostMib, ?_⟩ (fun j q _ hq => ⟨fun hg => ?_,
    hq.unstarted, fun r hr => ?_⟩)
  · rw [Host.usedMib_congr hnode]
    exact h.shared.used
  · rw [hgate]
    exact hq.gate hg
  · rw [Host.runningMib_congr hnode]
    exact hq.reserved r hr

theorem Fits.begin (h : Fits host (d.become t)) (hg : p.gated = false) :
    Fits host (d.spawn t p) := by
  have hnone : p.unstarted = none ∧ p.reserved = none := by
    cases p <;> first
      | exact ⟨rfl, rfl⟩
      | cases hg
  exact Crew.Holds.spawn h (idle_kept hg hnone.1 hnone.2)

theorem Fits.cooled (h : Fits host d) (hgate : d.shared.gate = .cooling) :
    Fits host (d.become { d.shared with gate := .free }) := by
  refine h.change ⟨h.shared.hostMib, h.shared.used⟩ (fun j q _ hq => ⟨fun hg => ?_, hq.unstarted,
    hq.reserved⟩)
  have hheld := hq.gate hg
  rw [hgate] at hheld
  cases hheld

theorem not_running_toRun (r : VmRecord) (n : NodeId) (runDir : String) :
    (r.toRun n runDir).state ≠ .running := by
  simp only [VmRecord.toRun]
  split
  · simp
  · assumption

/-- A record that is not running is written. -/
theorem Fits.quiet (h : Fits host d) (hstate : r.state ≠ .running) :
    Fits host (d.become (d.shared.upsert r)) := by
  refine Fits.upsert h ?_
  have hout : d.shared.runsHere r = false := by
    rw [Host.runsHere, Bool.and_eq_false_iff]
    exact .inl (by simpa using hstate)
  rw [admits, hout]
  rfl

theorem Fits.step {a : Action} {d' : Daemon} (h : Fits host d)
    (hadmits : Admitted d a) (hstep : d.step a = some d') : Fits host d' := by
  cases a with
  | start id =>
    cases hstep
    refine Fits.begin ?_ rfl
    exact h.request rfl rfl rfl
  | stop id hard =>
    simp only [Daemon.step] at hstep
    split at hstep
    · cases hstep
      exact h
    · cases hstep
      split
      · exact h
      · exact Fits.begin (t := d.shared) h rfl
  | restart id recreate =>
    simp only [Daemon.step] at hstep
    split at hstep
    · cases hstep
      exact h
    · cases hstep
      split
      · exact h
      · split
        · refine Fits.begin ?_ rfl
          exact h.request rfl rfl rfl
        · exact h.request rfl rfl rfl
  | update id req =>
    simp only [Daemon.step] at hstep
    split at hstep
    · cases hstep
      exact h
    · split at hstep
      · cases hstep
        exact h
      · cases hstep
        exact Fits.begin (t := d.shared) h rfl
  | create id spec runDir =>
    simp only [Daemon.step] at hstep
    split at hstep
    · cases hstep
      exact h
    · cases hstep
      have hquiet := h.quiet (r := Service.defined runDir id spec d.shared.self) (by simp [Service.defined])
      exact hquiet.request rfl rfl rfl
  | run record runDir pulled =>
    have hasked : Fits host (d.become (d.shared.asked record.id)) :=
      h.request rfl rfl rfl
    simp only [Daemon.step] at hstep
    split at hstep
    · cases hstep
      exact hasked.begin rfl
    · cases hstep
      have hquiet := hasked.quiet (not_running_toRun record (d.shared.asked record.id).self runDir)
      split
      · exact Fits.begin hquiet rfl
      · exact hquiet
  | apply record hard again =>
    have hwritten : Fits host (d.become (d.shared.upsert record)) :=
      Fits.upsert h hadmits
    cases hstep
    refine Fits.begin ?_ rfl
    cases again with
    | false => exact hwritten
    | true => exact hwritten.request rfl rfl rfl
  | listen record =>
    cases hstep
    exact h.request rfl rfl rfl
  | finish id answer =>
    simp only [Daemon.step] at hstep
    split at hstep
    · cases hstep
      exact h
    · split at hstep
      · cases hstep
        refine Fits.begin ?_ rfl
        exact h.request rfl rfl rfl
      · cases hstep
        exact h.request rfl rfl rfl
  | tick quorum =>
    cases hstep
    exact Fits.begin (t := d.shared) h rfl
  | reconcile =>
    cases hstep
    exact Fits.begin (t := d.shared) h rfl
  | shutdownAll =>
    cases hstep
    exact Fits.begin (t := d.shared) h rfl
  | turn i answer =>
    obtain ⟨p, hget, hstep⟩ := Option.bind_eq_some_iff.mp hstep
    obtain ⟨m, hturn, hstep⟩ := Option.bind_eq_some_iff.mp hstep
    cases hstep
    refine h.turn hget ?_ hturn
    rw [Admitted, hget] at hadmits
    exact hadmits
  | cooled =>
    simp only [Daemon.step] at hstep
    split at hstep
    · rename_i hgate
      cases hstep
      exact h.cooled hgate
    · cases hstep
  | wait seconds =>
    cases hstep
    exact h.request rfl rfl rfl
  | exits id =>
    simp only [Daemon.step] at hstep
    split at hstep
    · cases hstep
      exact h.request rfl rfl rfl
    · cases hstep
  | restartDaemon left =>
    cases hstep
    refine ⟨⟨h.shared.hostMib, h.shared.used⟩, fun i p hget => ?_⟩
    cases hget

/-- On a node with known memory, while every record that is written as running without the check
of a start is the recorded one or leaves room, the guests that are recorded as running fit. -/
theorem memory_within {d' : Daemon} {as : List Action} (hhost : d.shared.hostMib = some host)
    (hidle : d.pool.all = []) (hused : d.shared.usedMib ≤ budgetMib host.toNat)
    (hrun : Run (Guarded Admitted (Steps Daemon.step)) d as d') :
    d'.shared.usedMib ≤ budgetMib host.toNat := by
  have hstart : Fits host d := by
    refine ⟨⟨hhost, hused⟩, fun i p hget => ?_⟩
    have hmem := Pool.mem_all hget
    rw [hidle] at hmem
    cases hmem
  exact (hrun.invariant (fun _ _ _ hi hs => hi.step hs.1 hs.2) hstart).shared.used

end Daemon

/-- A start, a refused one, and one that fits after an update. -/
def startsInTurn : List Action :=
  [.start (.numeric 100)] ++ goesThrough 0 ++ [.cooled, .start (.numeric 101)] ++
  List.replicate 5 (.turn 2 (.ok none)) ++
  [.update (.numeric 101) { memoryMib := some 512 }, .turn 3 (.ok none), .start (.numeric 101)] ++
  goesThrough 4

theorem startsInTurn_within :
    (exec Daemon.step smallNode startsInTurn).shared.usedMib ≤ budgetMib (2048 : UInt64).toNat :=
  Daemon.memory_within rfl rfl (by decide +kernel)
    (Run.of_exec_guarded (by decide +kernel) :
      Run (Guarded Daemon.Admitted _) smallNode startsInTurn _)

/-- A live migration brings a guest to a node on which there is no room for it. -/
def migratesIn : List Action :=
  [.start (.numeric 100)] ++ goesThrough 0 ++
  [.listen (guest 102 "moved" 1024), .finish (.numeric 102) (.ok none), .turn 2 (.ok none)]

theorem migration_overcommits : ¬ ∀ (host : UInt64) (d d' : Daemon) (as : List Action),
    d.shared.hostMib = some host → d.pool.all = [] →
      d.shared.usedMib ≤ budgetMib host.toNat → Run (Steps Daemon.step) d as d' →
        d'.shared.usedMib ≤ budgetMib host.toNat := by
  intro h
  have hused := h 2048 smallNode _ migratesIn rfl rfl (by decide +kernel)
    (Run.of_exec (by decide +kernel))
  exact absurd hused (by decide +kernel)

end Pertisk.Tasks
