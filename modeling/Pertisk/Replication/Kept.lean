import Pertisk.Replication.Serial

namespace Pertisk.Replication
open Lib
namespace World

variable {w t u : World} {origin : Inventory} {a : Action} {as bs : List Action}

theorem record_log (w : World) (id : NodeId) (x : Write) :
    (w.record id x).log = w.log ++ [⟨x.key, x.value⟩] := rfl

theorem receive_log (w : World) (p : Packet) : (w.receive p).log = w.log := by
  rw [receive_eq]
  split <;> rfl

/-- The log only grows at its end. -/
theorem step_log (h : w.step a = some t) : ∃ cs, t.log = w.log ++ cs := by
  cases a with
  | advance | replicate | sendHeartbeats | lose =>
    cases h
    exact ⟨[], (List.append_nil _).symm⟩
  | begin id =>
    simp only [step, Option.ite_none_right_eq_some, Option.some.injEq] at h
    obtain ⟨-, rfl⟩ := h
    exact ⟨[], (List.append_nil _).symm⟩
  | write id x =>
    simp only [step, Option.ite_none_left_eq_some, Option.some.injEq] at h
    obtain ⟨-, rfl⟩ := h
    exact ⟨_, record_log _ id x⟩
  | finish id bumps =>
    simp only [step, Option.ite_none_left_eq_some, Option.some.injEq] at h
    obtain ⟨-, rfl⟩ := h
    exact ⟨[], (List.append_nil _).symm⟩
  | deliver i =>
    simp only [step] at h
    split at h
    · cases h
      rw [receive_log]
      exact ⟨[], (List.append_nil _).symm⟩
    · cases h

theorem run_log (r : Run (Steps step) w as t) : ∃ cs, t.log = w.log ++ cs := by
  induction r with
  | nil => exact ⟨[], (List.append_nil _).symm⟩
  | cons h _ ih =>
    obtain ⟨cs, hc⟩ := step_log h
    obtain ⟨ds, hd⟩ := ih
    exact ⟨cs ++ ds, by rw [hd, hc, List.append_assoc]⟩

/-- From `u` to `t` the node's record stays, or a later operation on it gave the new value. -/
def KeptFrom (u t : World) (id : NodeId) (k : Key) : Prop :=
  t.entry id k = u.entry id k ∨
    ∃ i c, u.stamp id k ≤ i ∧ t.log[i]? = some c ∧ c.key = k ∧ t.entry id k = c.value

theorem KeptFrom.of_stamp {id : NodeId} {k : Key} (hu : u.Traced origin) (ht : t.Traced origin)
    (hlog : ∃ cs, t.log = u.log ++ cs) (hle : u.stamp id k ≤ t.stamp id k) :
    KeptFrom u t id k := by
  obtain ⟨cs, hcs⟩ := hlog
  have hold := (hu.node id k).append cs
  have hnew := ht.node id k
  rw [← hcs] at hold
  rcases Nat.eq_or_lt_of_le hle with heq | hlt
  · left
    rw [heq] at hold
    cases hstamp : t.stamp id k with
    | zero =>
      rw [hstamp] at hold hnew
      exact hnew.trans hold.symm
    | succ i =>
      rw [hstamp] at hold hnew
      obtain ⟨c, hc, -, hvalue⟩ := hnew
      obtain ⟨d, hd, -, hvalue'⟩ := hold
      obtain rfl : c = d := Option.some.inj (hc.symm.trans hd)
      exact hvalue.trans hvalue'.symm
  · right
    cases hstamp : t.stamp id k with
    | zero => omega
    | succ i =>
      rw [hstamp] at hnew hlt
      obtain ⟨c, hc, hkey, hvalue⟩ := hnew
      exact ⟨i, c, by omega, hc, hkey, hvalue⟩

def freshWorld : World where
  now := 0
  node := Node.fresh
  pending _ := 0
  net := []
  log := []
  stamp _ _ := 0

theorem freshWorld_start : freshWorld.Start ⟨Table.empty, Table.empty⟩ :=
  ⟨fun _ => rfl, fun _ => rfl, rfl, rfl, fun _ _ => rfl⟩

/-- An operation that creates a guest. -/
def createVm (id : NodeId) (vm : Nat) : List Action :=
  [.begin id,
    .write id (.upsertVm { id := .numeric vm, spec := { name := "vm" }, state := .created }),
    .finish id true]

end World

end Pertisk.Replication

namespace Pertisk.Replication
open Lib
namespace World

variable {w t : World} {origin : Inventory} {as : List Action}

/-- Serial operations during which the node's snapshot stays home. -/
def SerialQuiet (w : World) (a : Action) : Prop := w.Serial a ∧ w.Quiet a

theorem Start.agreed (h : w.Start origin) : w.abs.Agreed := by
  have same : ∀ x, w.abs.Settled x → x.val = ⟨fun _ => 0, origin⟩ := by
    intro x hx
    obtain ⟨id, rfl⟩ := h.shown hx.shown
    have hstamp : w.stamp id = fun _ => 0 := funext (h.unstamped id)
    show Stamped.mk (w.stamp id) (w.inventory id) = _
    rw [hstamp, h.shared id]
  intro x y hx hy _
  rw [same x hx, same y hy]

/-- The operations of the run end in a bump. -/
def Bumps (_ : World) : Action → Prop
  | .finish _ bumps => bumps = true
  | _ => True

end World

end Pertisk.Replication
