import Pertisk.Replication.World

namespace Pertisk.Replication
open Lib

/-- The entry is the value that change number `stamp` gave the record; number zero is the value
that it had at the start. -/
def Names (log : List Change) (origin : Inventory) (k : Key) (stamp : Nat)
    (e : Option Entry) : Prop :=
  match stamp with
  | 0 => e = origin.entry k
  | i + 1 => ∃ c, log[i]? = some c ∧ c.key = k ∧ e = c.value

theorem Names.append {log : List Change} {origin : Inventory} {k : Key} {stamp : Nat}
    {e : Option Entry} (h : Names log origin k stamp e) (cs : List Change) :
    Names (log ++ cs) origin k stamp e := by
  cases stamp with
  | zero => exact h
  | succ i =>
    obtain ⟨c, hc, hk, he⟩ := h
    have hi := (List.getElem?_eq_some_iff.mp hc).1
    exact ⟨c, by rw [List.getElem?_append_left hi, hc], hk, he⟩

theorem Names.le_length {log : List Change} {origin : Inventory} {k : Key} {stamp : Nat}
    {e : Option Entry} (h : Names log origin k stamp e) : stamp ≤ log.length := by
  cases stamp with
  | zero => exact Nat.zero_le _
  | succ i =>
    obtain ⟨c, hc, -, -⟩ := h
    exact (List.getElem?_eq_some_iff.mp hc).1

namespace Body

variable {n : Node} {now : Nat} {dest : NodeId} {b : Body}

theorem receive_adopted (now : Nat) (dest : NodeId) (h : b.adopted n = true) :
    ∃ snap, b.snapshot = some snap ∧ n.cluster.generation < snap.generation ∧
      (b.receive n now dest).1.cluster.generation = snap.generation ∧
      ofNode (b.receive n now dest).1 = ofSnapshot snap := by
  have apply : ∀ (m : Node) (snap : ClusterSnapshot),
      m.cluster.generation < snap.generation →
      (m.applySnapshot now snap).cluster.generation = snap.generation ∧
      ofNode (m.applySnapshot now snap) = ofSnapshot snap := by
    intro m snap hlt
    rcases m.applySnapshot_cases now snap with ⟨_, hgen, hstore, hvolumes⟩ | ⟨hle, _⟩
    · exact ⟨hgen, by simp [ofNode, ofSnapshot, hstore, hvolumes]⟩
    · omega
  cases b with
  | push snap =>
    have hlt : n.cluster.generation < snap.generation := by simpa [adopted, snapshot] using h
    exact ⟨snap, rfl, hlt, apply n snap hlt⟩
  | heartbeat msg =>
    cases hm : msg.snapshot with
    | none => simp [adopted, snapshot, hm] at h
    | some snap =>
      have hlt : n.cluster.generation < snap.generation := by
        simpa [adopted, snapshot, hm] using h
      obtain ⟨hgen, hinv⟩ :=
        apply (n.touch now msg.sender (some msg.member)) snap (by simpa using hlt)
      refine ⟨snap, hm, hlt, ?_⟩
      simp only [receive, Node.onHeartbeat, hm, Node.touch_generation, gt_iff_lt, hlt, if_true]
      exact ⟨hgen, hinv⟩
  | reply peer reply =>
    cases reply with
    | none => simp [adopted, snapshot] at h
    | some snap =>
      have hlt : n.cluster.generation < snap.generation := by simpa [adopted, snapshot] using h
      obtain ⟨hgen, hinv⟩ := apply (n.touch now peer none) snap (by simpa using hlt)
      refine ⟨snap, rfl, hlt, ?_⟩
      simp only [receive, Node.onHeartbeatReply, Node.touch_generation]
      exact ⟨hgen, hinv⟩

theorem receive_kept (now : Nat) (dest : NodeId) (h : b.adopted n = false) :
    (b.receive n now dest).1.cluster.generation = n.cluster.generation ∧
      ofNode (b.receive n now dest).1 = ofNode n := by
  have apply : ∀ (m : Node) (snap : ClusterSnapshot),
      snap.generation ≤ m.cluster.generation →
      (m.applySnapshot now snap).cluster.generation = m.cluster.generation ∧
      ofNode (m.applySnapshot now snap) = ofNode m := by
    intro m snap hle
    rcases m.applySnapshot_cases now snap with ⟨hlt, _⟩ | ⟨_, hgen, hstore, hvolumes⟩
    · omega
    · exact ⟨hgen, by simp [ofNode, hstore, hvolumes]⟩
  cases b with
  | push snap => exact apply n snap (by simpa [adopted, snapshot] using h)
  | heartbeat msg =>
    cases hm : msg.snapshot with
    | none => simp [receive, Node.onHeartbeat, hm, ofNode]
    | some snap =>
      have hle : ¬ n.cluster.generation < snap.generation := by
        simpa [adopted, snapshot, hm] using h
      simp only [receive, Node.onHeartbeat, hm, Node.touch_generation, gt_iff_lt, hle, if_false]
      split
      · simp [ofNode]
      · simp [ofNode]
  | reply peer reply =>
    cases reply with
    | none => simp [receive, Node.onHeartbeatReply, ofNode]
    | some snap =>
      have hle : snap.generation ≤ n.cluster.generation := by simpa [adopted, snapshot] using h
      obtain ⟨hgen, hinv⟩ := apply (n.touch now peer none) snap (by simpa using hle)
      simp only [receive, Node.onHeartbeatReply, Node.touch_generation]
      exact ⟨hgen.trans (n.touch_generation now peer none), hinv⟩

/-- The snapshot sent back is the receiver's own, as it is after the message. -/
theorem answer_eq {snap : ClusterSnapshot} (h : b.answer n now dest = some snap) :
    snap = (b.receive n now dest).1.snapshot := by
  cases b with
  | push | reply => simp [answer, receive] at h
  | heartbeat msg =>
    simp only [answer, receive, Option.bind_some, snapshot, Node.onHeartbeat] at h ⊢
    cases hm : msg.snapshot with
    | none =>
      simp only [hm] at h ⊢
      split at h
      · exact (Option.some.inj h).symm
      · cases h
    | some s =>
      rcases Nat.lt_trichotomy n.cluster.generation s.generation with hlt | heq | hgt
      · simp only [hm, Node.touch_generation, gt_iff_lt, hlt, if_true] at h ⊢
        split at h
        · exact (Option.some.inj h).symm
        · cases h
      · simp only [hm, Node.touch_generation, gt_iff_lt, heq, lt_irrefl, if_false] at h ⊢
        split at h
        · exact (Option.some.inj h).symm
        · cases h
      · have hle : ¬ n.cluster.generation < s.generation := Nat.lt_asymm hgt
        simp only [hm, Node.touch_generation, gt_iff_lt, hle, hgt, if_false, if_true] at h ⊢
        exact (Option.some.inj h).symm

theorem receive_reply {d : NodeId} {r : Body} (h : (b.receive n now dest).2 = some (d, r)) :
    r.snapshot = b.answer n now dest := by
  simp [answer, h]

end Body

/-- Each record in a node or in a message is the value of the change that its stamp names. -/
structure World.Traced (w : World) (origin : Inventory) : Prop where
  node : ∀ id k, Names w.log origin k (w.stamp id k) (w.entry id k)
  flight : ∀ p ∈ w.net, ∀ snap, p.body.snapshot = some snap →
    ∀ k, Names w.log origin k (p.stamp k) ((ofSnapshot snap).entry k)

namespace World

variable {w t : World} {origin : Inventory} {a : Action} {id : NodeId}

theorem Start.traced (h : w.Start origin) : w.Traced origin := by
  refine ⟨?_, ?_⟩
  · intro id k
    rw [h.unstamped id k]
    show (w.inventory id).entry k = origin.entry k
    rw [h.shared id]
  · intro p hp
    simp [h.silent] at hp

/-- Sending a snapshot of what the sender has. -/
theorem Traced.send (ht : w.Traced origin) {dests : List NodeId} {body : Body}
    (hb : ∀ snap, body.snapshot = some snap → snap = (w.node id).snapshot) :
    (w.send id dests body).Traced origin := by
  refine ⟨ht.node, ?_⟩
  intro p hp snap hsnap k
  rcases List.mem_append.mp hp with hp | hp
  · exact ht.flight p hp snap hsnap k
  · obtain ⟨d, -, rfl⟩ := List.mem_map.mp hp
    rw [hb snap hsnap, ofSnapshot_snapshot]
    exact ht.node id k

theorem Traced.sub (ht : w.Traced origin) {net : List Packet} (h : ∀ p ∈ net, p ∈ w.net) :
    { w with net := net }.Traced origin :=
  ⟨ht.node, fun p hp => ht.flight p (h p hp)⟩

/-- The receiver's state and stamps before its answer is on the way. -/
def landed (w : World) (p : Packet) : World :=
  { w.setNode p.dest (p.body.receive (w.node p.dest) w.now p.dest).1 with
    stamp := if p.body.adopted (w.node p.dest) then Function.update w.stamp p.dest p.stamp
      else w.stamp }

theorem receive_eq (w : World) (p : Packet) :
    w.receive p = match (p.body.receive (w.node p.dest) w.now p.dest).2 with
      | some (dest, body) => (w.landed p).send p.dest [dest] body
      | none => w.landed p := rfl

theorem Traced.landed (ht : w.Traced origin) {p : Packet}
    (hp : ∀ snap, p.body.snapshot = some snap →
      ∀ k, Names w.log origin k (p.stamp k) ((ofSnapshot snap).entry k)) :
    (w.landed p).Traced origin := by
  refine ⟨?_, ht.flight⟩
  intro id k
  by_cases hid : id = p.dest
  · subst hid
    cases hadopt : p.body.adopted (w.node p.dest) with
    | true =>
      obtain ⟨snap, hsnap, -, -, hinv⟩ := Body.receive_adopted w.now p.dest hadopt
      simp only [World.landed, hadopt, if_true, setNode, entry, inventory, Function.update_self,
        hinv]
      exact hp snap hsnap k
    | false =>
      obtain ⟨-, hinv⟩ := Body.receive_kept w.now p.dest hadopt
      simp only [World.landed, hadopt, setNode, entry, inventory, Function.update_self, hinv]
      exact ht.node p.dest k
  · have hstamp : (w.landed p).stamp id = w.stamp id := by
      unfold World.landed
      dsimp only
      split
      · exact Function.update_of_ne hid _ _
      · rfl
    have hnode : (w.landed p).node id = w.node id := Function.update_of_ne hid _ _
    simp only [entry, inventory, hstamp, hnode]
    exact ht.node id k

theorem Traced.receive (ht : w.Traced origin) {p : Packet}
    (hp : ∀ snap, p.body.snapshot = some snap →
      ∀ k, Names w.log origin k (p.stamp k) ((ofSnapshot snap).entry k)) :
    (w.receive p).Traced origin := by
  rw [receive_eq]
  split
  · rename_i d r hr
    apply (ht.landed hp).send
    intro snap hsnap
    rw [Body.receive_reply hr] at hsnap
    rw [Body.answer_eq hsnap]
    simp [World.landed, setNode]
  · exact ht.landed hp

theorem Traced.write (ht : w.Traced origin) (x : Write) :
    ((w.setNode id (x.apply (w.node id))).record id x).Traced origin := by
  refine ⟨?_, fun p hp snap hsnap k => (ht.flight p hp snap hsnap k).append _⟩
  intro m k
  by_cases hm : m = id
  · subst hm
    simp only [record, setNode, entry, inventory, Function.update_self, Write.apply_entry]
    by_cases hk : k = x.key
    · subst hk
      simp only [Function.update_self, if_true]
      exact ⟨⟨x.key, x.value⟩, by simp, rfl, rfl⟩
    · rw [Function.update_of_ne hk, if_neg hk]
      exact (ht.node m k).append _
  · simp only [record, setNode, entry, inventory, Function.update_of_ne hm]
    exact (ht.node m k).append _

theorem Traced.finish (ht : w.Traced origin) (bumps : Bool) (k : Nat) :
    ((w.setNode id (if bumps then (w.node id).bump else w.node id)).setPending id k).Traced
      origin := by
  refine ⟨?_, ht.flight⟩
  intro m j
  by_cases hm : m = id
  · subst hm
    simp only [setPending, setNode, entry, inventory, Function.update_self]
    cases bumps with
    | true => exact ht.node m j
    | false => exact ht.node m j
  · simp only [setPending, setNode, entry, inventory, Function.update_of_ne hm]
    exact ht.node m j

theorem step_traced (ht : w.Traced origin) (h : w.step a = some t) : t.Traced origin := by
  cases a with
  | advance ms =>
    cases h
    exact ⟨ht.node, ht.flight⟩
  | begin id =>
    simp only [step, Option.ite_none_right_eq_some, Option.some.injEq] at h
    obtain ⟨-, rfl⟩ := h
    exact ⟨ht.node, ht.flight⟩
  | write id x =>
    simp only [step, Option.ite_none_left_eq_some, Option.some.injEq] at h
    obtain ⟨-, rfl⟩ := h
    exact ht.write x
  | finish id bumps =>
    simp only [step, Option.ite_none_left_eq_some, Option.some.injEq] at h
    obtain ⟨-, rfl⟩ := h
    exact ht.finish bumps _
  | replicate id =>
    cases h
    exact ht.send (fun snap hsnap => (Option.some.inj hsnap).symm)
  | sendHeartbeats id =>
    cases h
    exact ht.send (fun snap hsnap => (Option.some.inj hsnap).symm)
  | deliver i =>
    simp only [step] at h
    cases hp : w.net[i]? with
    | none => simp [hp] at h
    | some p =>
      simp only [hp, Option.some.injEq] at h
      subst h
      have hmem := List.mem_of_getElem? hp
      exact (ht.sub (fun q hq => List.mem_of_mem_eraseIdx hq)).receive (ht.flight p hmem)
  | lose i =>
    cases h
    exact ht.sub (fun q hq => List.mem_of_mem_eraseIdx hq)

end World

end Pertisk.Replication
