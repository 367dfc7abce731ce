import Pertisk.Lib.Generations
import Pertisk.Replication.Trace

namespace Pertisk.Replication
open Lib
open Lib.Generations (Image)

/-- An inventory with the changes its records are from, ordered by how recent those are. -/
structure Stamped where
  stamp : Key → Nat
  inventory : Inventory

instance : Preorder Stamped := Preorder.lift Stamped.stamp

def Packet.image (p : Packet) : Option (Image Stamped) :=
  p.body.snapshot.map (fun snap => ⟨snap.generation, ⟨p.stamp, ofSnapshot snap⟩⟩)

def imagesOf (net : List Packet) : Set (Image Stamped) := {x | ∃ p ∈ net, p.image = some x}

namespace World

variable {w t u : World} {origin : Inventory} {a : Action} {as bs : List Action} {id : NodeId}

/-- The world as nodes that hold and send generation-numbered inventories. -/
def abs (w : World) : Generations.State NodeId Stamped where
  node id := ⟨w.generation id, ⟨w.stamp id, w.inventory id⟩⟩
  pending := w.pending
  flight := imagesOf w.net

/-- Operations come one at a time, each at a node that no other node is ahead of, and bump. -/
def Serial (w : World) : Action → Prop
  | .begin id => (∀ m, w.pending m = 0) ∧ ∀ m, w.generation m ≤ w.generation id
  | .finish _ bumps => bumps = true
  | _ => True

/-- No snapshot leaves a node between an operation's quorum check and its bump. -/
def Quiet (w : World) : Action → Prop
  | .replicate id | .sendHeartbeats id => w.pending id = 0
  | .deliver i => ∀ p, w.net[i]? = some p →
      p.body.answer (w.node p.dest) w.now p.dest ≠ none → w.pending p.dest = 0
  | _ => True

/-- The abstract steps that match one of ours; quiet ones where ours is quiet. -/
def Matches (quiet : Prop) (w t : World) : Prop :=
  ∃ bs, Run (Guarded (fun s b => quiet → Generations.Quiet s b) Generations.Step) w.abs bs t.abs

variable {quiet : Prop}

theorem Matches.refl (h : t.abs = w.abs) : Matches quiet w t := ⟨[], h ▸ .nil _⟩

theorem Matches.trans (h : Matches quiet w t) (h' : Matches quiet t u) : Matches quiet w u := by
  obtain ⟨bs, hb⟩ := h
  obtain ⟨cs, hc⟩ := h'
  exact ⟨bs ++ cs, hb.append hc⟩

theorem Matches.one {b : Generations.Act NodeId Stamped}
    (hq : quiet → Generations.Quiet w.abs b) (h : Generations.Step w.abs b t.abs) :
    Matches quiet w t := ⟨[b], .one ⟨hq, h⟩⟩

theorem abs_send_none {dests : List NodeId} {body : Body} (h : body.snapshot = none) :
    (w.send id dests body).abs = w.abs := by
  have himages : imagesOf (w.send id dests body).net = imagesOf w.net := by
    ext x
    constructor
    · rintro ⟨p, hp, hx⟩
      rcases List.mem_append.mp hp with hp | hp
      · exact ⟨p, hp, hx⟩
      · obtain ⟨d, -, rfl⟩ := List.mem_map.mp hp
        simp [Packet.image, h] at hx
    · rintro ⟨p, hp, hx⟩
      exact ⟨p, List.mem_append_left _ hp, hx⟩
  unfold abs
  rw [himages]
  rfl

/-- However many peers a snapshot goes to, it puts one image in flight. -/
theorem Matches.send {dests : List NodeId} {body : Body}
    (hb : ∀ snap, body.snapshot = some snap → snap = (w.node id).snapshot)
    (hq : quiet → body.snapshot ≠ none → w.pending id = 0) :
    Matches quiet w (w.send id dests body) := by
  cases hsnap : body.snapshot with
  | none => exact .refl (abs_send_none hsnap)
  | some snap =>
    have hself := hb snap hsnap
    subst hself
    cases dests with
    | nil =>
      apply Matches.refl
      simp [abs, World.send, generation, inventory]
    | cons d ds =>
      have himages : imagesOf (w.send id (d :: ds) body).net =
          insert (w.abs.node id) (imagesOf w.net) := by
        have hnew : ∀ e, Packet.image ⟨e, body, w.stamp id⟩ = some (w.abs.node id) := by
          intro e
          simp only [Packet.image, hsnap, Option.map_some, ofSnapshot_snapshot]
          rfl
        ext x
        simp only [imagesOf, World.send, Set.mem_ofPred_eq, Set.mem_insert_iff]
        constructor
        · rintro ⟨p, hp, hx⟩
          rcases List.mem_append.mp hp with hp | hp
          · exact .inr ⟨p, hp, hx⟩
          · obtain ⟨e, -, rfl⟩ := List.mem_map.mp hp
            rw [hnew e] at hx
            exact .inl (Option.some.inj hx).symm
        · rintro (rfl | ⟨p, hp, hx⟩)
          · exact ⟨⟨d, body, w.stamp id⟩, by simp, hnew d⟩
          · exact ⟨p, List.mem_append_left _ hp, hx⟩
      have habs : (w.send id (d :: ds) body).abs =
          { w.abs with flight := insert (w.abs.node id) w.abs.flight } := by
        unfold abs
        rw [himages]
        rfl
      refine Matches.one (b := .send id) (fun h => hq h (by simp [hsnap])) ?_
      rw [habs]
      exact .send

theorem image_mem {p : Packet} {snap : ClusterSnapshot} {net : List Packet} (hp : p ∈ net)
    (h : p.body.snapshot = some snap) :
    ⟨snap.generation, ⟨p.stamp, ofSnapshot snap⟩⟩ ∈ imagesOf net :=
  ⟨p, hp, by simp [Packet.image, h]⟩

theorem Matches.sub {net : List Packet} (h : ∀ p ∈ net, p ∈ w.net) :
    Matches quiet w { w with net := net } := by
  refine Matches.one (b := .lose (imagesOf net)) (fun _ => trivial) (.lose ?_)
  rintro x ⟨p, hp, hx⟩
  exact ⟨p, h p hp, hx⟩

theorem abs_setNode_stamp (w : World) (id : NodeId) (n : Node) (stamp : NodeId → Key → Nat)
    (hs : ∀ m, m ≠ id → stamp m = w.stamp m) :
    ({ w.setNode id n with stamp := stamp } : World).abs =
      w.abs.set id ⟨n.cluster.generation, ⟨stamp id, ofNode n⟩⟩ := by
  have hnode : ({ w.setNode id n with stamp := stamp } : World).abs.node =
      Function.update w.abs.node id ⟨n.cluster.generation, ⟨stamp id, ofNode n⟩⟩ := by
    funext m
    by_cases hm : m = id
    · subst hm
      simp [abs, generation, inventory, setNode]
    · simp [abs, generation, inventory, setNode, hm, hs m hm]
  unfold Generations.State.set
  rw [← hnode]
  rfl

theorem abs_landed_adopted {p : Packet} {snap : ClusterSnapshot}
    (h : p.body.adopted (w.node p.dest) = true) (hsnap : p.body.snapshot = some snap) :
    (w.landed p).abs = w.abs.set p.dest ⟨snap.generation, ⟨p.stamp, ofSnapshot snap⟩⟩ := by
  obtain ⟨s, hs, -, hgen, hinv⟩ := Body.receive_adopted w.now p.dest h
  obtain rfl : s = snap := Option.some.inj (hs.symm.trans hsnap)
  have := abs_setNode_stamp w p.dest (p.body.receive (w.node p.dest) w.now p.dest).1
    (Function.update w.stamp p.dest p.stamp) (fun m hm => Function.update_of_ne hm _ _)
  simpa [World.landed, h, hgen, hinv] using this

theorem abs_landed_kept {p : Packet} (h : p.body.adopted (w.node p.dest) = false) :
    (w.landed p).abs = w.abs := by
  obtain ⟨hgen, hinv⟩ := Body.receive_kept w.now p.dest h
  have heq := abs_setNode_stamp w p.dest (p.body.receive (w.node p.dest) w.now p.dest).1
    w.stamp (fun m _ => rfl)
  rw [hgen, hinv] at heq
  have hland : (w.landed p).abs = w.abs.set p.dest (w.abs.node p.dest) := by
    unfold World.landed
    rw [if_neg (by simp [h])]
    exact heq
  rw [hland]
  simp [Generations.State.set]

theorem Matches.landed {p : Packet} (hp : p ∈ w.net) : Matches quiet w (w.landed p) := by
  cases h : p.body.adopted (w.node p.dest) with
  | false => exact .refl (abs_landed_kept h)
  | true =>
    obtain ⟨snap, hsnap, hlt, -⟩ := Body.receive_adopted w.now p.dest h
    refine Matches.one (b := .adopt p.dest ⟨snap.generation, ⟨p.stamp, ofSnapshot snap⟩⟩)
      (fun _ => trivial) ?_
    rw [abs_landed_adopted h hsnap]
    exact .adopt (image_mem hp hsnap) hlt

theorem Matches.receive {net : List Packet} {p : Packet} (hp : p ∈ w.net)
    (hsub : ∀ q ∈ net, q ∈ w.net)
    (hq : quiet → p.body.answer (w.node p.dest) w.now p.dest ≠ none → w.pending p.dest = 0) :
    Matches quiet w ({ w with net := net }.receive p) := by
  have hland : Matches quiet w ({ w with net := net }.landed p) :=
    (Matches.landed hp).trans (Matches.sub (w := w.landed p) hsub)
  rw [receive_eq]
  split
  · rename_i d r hr
    have hanswer := Body.receive_reply hr
    refine hland.trans (Matches.send ?_ ?_)
    · intro snap hsnap
      rw [hanswer] at hsnap
      rw [Body.answer_eq hsnap]
      simp [World.landed, setNode]
    · intro h hne
      rw [hanswer] at hne
      exact hq h hne
  · exact hland

theorem Matches.write (ht : w.Traced origin) (x : Write) (hbusy : w.pending id ≠ 0) :
    Matches quiet w ((w.setNode id (x.apply (w.node id))).record id x) := by
  let stamp := Function.update (w.stamp id) x.key (w.log.length + 1)
  have habs : ((w.setNode id (x.apply (w.node id))).record id x).abs =
      w.abs.set id ⟨(w.abs.node id).gen, ⟨stamp, ofNode (x.apply (w.node id))⟩⟩ := by
    have := abs_setNode_stamp w id (x.apply (w.node id)) (Function.update w.stamp id stamp)
      (fun m hm => Function.update_of_ne hm _ _)
    rw [Function.update_self, Write.apply_cluster] at this
    exact this
  have hle : ∀ k, w.stamp id k ≤ stamp k := by
    intro k
    have hbound := (ht.node id k).le_length
    by_cases hk : k = x.key
    · subst hk
      simp only [stamp, Function.update_self]
      omega
    · simp only [stamp, Function.update_of_ne hk]
      exact le_refl _
  refine Matches.one (b := .write id ⟨stamp, ofNode (x.apply (w.node id))⟩) (fun _ => trivial) ?_
  rw [habs]
  exact .write hbusy hle

theorem Matches.finish (hbusy : w.pending id ≠ 0) :
    Matches quiet w ((w.setNode id (w.node id).bump).setPending id (w.pending id - 1)) := by
  have habs : ((w.setNode id (w.node id).bump).setPending id (w.pending id - 1)).abs =
      (w.abs.set id ⟨(w.abs.node id).gen + 1, (w.abs.node id).val⟩).setPending id
        (w.abs.pending id - 1) := by
    have := abs_setNode_stamp w id (w.node id).bump w.stamp (fun m _ => rfl)
    have hset : (w.setNode id (w.node id).bump).abs =
        w.abs.set id ⟨(w.abs.node id).gen + 1, (w.abs.node id).val⟩ := this
    unfold Generations.State.setPending
    rw [← hset]
    rfl
  refine Matches.one (b := .finish id) (fun _ => trivial) ?_
  rw [habs]
  exact .finish hbusy

/-- One step of the nodes is a few steps of the abstract system, or none. -/
theorem step_matches (quiet : Prop) (ht : w.Traced origin) (hs : w.Serial a) (hq : quiet → w.Quiet a)
    (h : w.step a = some t) : Matches quiet w t := by
  cases a with
  | advance ms =>
    cases h
    exact .refl rfl
  | begin id =>
    simp only [step, Option.ite_none_right_eq_some, Option.some.injEq] at h
    obtain ⟨-, rfl⟩ := h
    obtain ⟨hidle, htop⟩ := hs
    rw [hidle id]
    exact .one (b := .begin id) (fun _ => trivial) (.begin hidle htop)
  | write id x =>
    simp only [step, Option.ite_none_left_eq_some, Option.some.injEq] at h
    obtain ⟨hbusy, rfl⟩ := h
    exact .write ht x hbusy
  | finish id bumps =>
    simp only [step, Option.ite_none_left_eq_some, Option.some.injEq] at h
    obtain ⟨hbusy, rfl⟩ := h
    have hbumps : bumps = true := hs
    subst hbumps
    exact .finish hbusy
  | replicate id =>
    cases h
    exact .send (fun snap hsnap => (Option.some.inj hsnap).symm) (fun h _ => hq h)
  | sendHeartbeats id =>
    cases h
    exact .send (fun snap hsnap => (Option.some.inj hsnap).symm) (fun h _ => hq h)
  | deliver i =>
    simp only [step] at h
    cases hp : w.net[i]? with
    | none => simp [hp] at h
    | some p =>
      simp only [hp, Option.some.injEq] at h
      subst h
      exact .receive (List.mem_of_getElem? hp) (fun q hq => List.mem_of_mem_eraseIdx hq)
        (fun h => hq h p hp)
  | lose i =>
    cases h
    exact .sub (fun q hq => List.mem_of_mem_eraseIdx hq)

theorem Start.serial (h : w.Start origin) : w.abs.Serial := by
  refine ⟨fun p hp => absurd (h.idle p) hp, ?_, fun p hp => absurd (h.idle p) hp⟩
  rintro x ⟨p, hp, -⟩
  simp [h.silent] at hp

theorem Start.shown (h : w.Start origin) {x : Image Stamped} (hx : w.abs.Shown x) :
    ∃ id, x = w.abs.node id := by
  rcases hx with ⟨p, hp, -⟩ | hx
  · simp [h.silent] at hp
  · exact hx

theorem Start.ordered (h : w.Start origin) : w.abs.Ordered := by
  have zero : ∀ x, w.abs.Shown x → ∀ y, w.abs.Shown y → x.val ≤ y.val := by
    intro x hx y hy
    obtain ⟨m, rfl⟩ := h.shown hx
    obtain ⟨n, rfl⟩ := h.shown hy
    intro k
    show w.stamp m k ≤ w.stamp n k
    rw [h.unstamped m k, h.unstamped n k]
  refine ⟨fun x y hx hy _ => zero x hx y hy, fun x hx y hy => ?_⟩
  rcases hx with ⟨p, hp, -⟩ | ⟨_, hx, _⟩
  · exact absurd (h.idle p) hp
  · exact zero y hy x hx

end World

end Pertisk.Replication
