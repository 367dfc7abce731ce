import Pertisk.Replication.World

namespace Pertisk
open Lib

/-- Whether the files that a snapshot changes can be written: `cluster.json`, the guests and the
volume records. -/
structure Writes where
  cluster : Except String Unit := .ok ()
  store : Except String Unit := .ok ()
  volumes : Except String Unit := .ok ()

/-- Every file can be written. -/
def Writes.Work (w : Writes) : Prop :=
  w.cluster = .ok () ∧ w.store = .ok () ∧ w.volumes = .ok ()

instance (w : Writes) : Decidable w.Work := inferInstanceAs (Decidable (_ ∧ _ ∧ _))

/-- What fails is the replacement of the guests or of the volume records. -/
def Writes.ReplaceFails (w : Writes) : Prop :=
  w.cluster = .ok () ∧ ¬ (w.store = .ok () ∧ w.volumes = .ok ())

instance (w : Writes) : Decidable w.ReplaceFails := inferInstanceAs (Decidable (_ ∧ _))

namespace Node

variable (w : Writes) (n : Node) (now : Nat)

/-- Each part is changed in memory first, and then its file is written. -/
def applySnapshotOn (snap : ClusterSnapshot) : Node × Except String Unit :=
  if snap.generation < n.cluster.generation then (n, .ok ())
  else
    let replaceInventory := snap.generation > n.cluster.generation
    let n := { n with cluster := n.cluster.applyMembership now snap }
    match w.cluster with
    | .error text => (n, .error text)
    | .ok () =>
      if replaceInventory then
        let n := n.replaceAll snap.vms
        match w.store with
        | .error text => (n, .error text)
        | .ok () => (n.replaceRecords snap.volumes, w.volumes)
      else (n, .ok ())

def onHeartbeatOn (msg : HeartbeatMessage) : Node × Except String (Option ClusterSnapshot) :=
  let n := n.touch now msg.sender (some msg.member)
  let replyIfNewer (n : Node) : Option ClusterSnapshot :=
    if msg.generation < n.cluster.generation then some n.snapshot else none
  match msg.snapshot with
  | some snap =>
    if snap.generation > n.cluster.generation then
      match n.applySnapshotOn w now snap with
      | (n, .error text) => (n, .error text)
      | (n, .ok ()) =>
        let n := n.touch now msg.sender none
        (n, .ok (replyIfNewer n))
    else if snap.generation < n.cluster.generation then (n, .ok (some n.snapshot))
    else (n, .ok (replyIfNewer n))
  | none => (n, .ok (replyIfNewer n))

/-- The result is dropped here. -/
def onHeartbeatReplyOn (peer : NodeId) (reply : Option ClusterSnapshot) : Node :=
  let n := n.touch now peer none
  match reply with
  | some snap => (n.applySnapshotOn w now snap).1.touch now peer none
  | none => n

end Node

namespace Replication

def Body.receiveOn (w : Writes) (n : Node) (now : Nat) : Body → Node
  | push snap => (n.applySnapshotOn w now snap).1
  | heartbeat msg => (n.onHeartbeatOn w now msg).1
  | reply peer snap => n.onHeartbeatReplyOn w now peer snap

/-- A message that comes in, when it does, and which files can be written then. -/
structure Receipt where
  now : Nat
  body : Body
  writes : Writes := {}

def Receipt.apply (n : Node) (r : Receipt) : Node := r.body.receiveOn r.writes n r.now

section
variable {w : Writes} {n m k : Node} {now : Nat} {snap : ClusterSnapshot} {b : Body} {r : Receipt}
  {peer : NodeId} {record : Option NodeRecord}

/-- Where nothing fails this is what a receive does. -/
theorem applySnapshotOn_work (h : w.Work) :
    n.applySnapshotOn w now snap = (n.applySnapshot now snap, .ok ()) := by
  obtain ⟨hcluster, hstore, hvolumes⟩ := h
  unfold Node.applySnapshotOn Node.applySnapshot
  rw [hcluster, hstore, hvolumes]
  split
  · rfl
  · by_cases hgt : snap.generation > n.cluster.generation <;> simp [hgt]

theorem receiveOn_work (h : w.Work) {dest : NodeId} :
    b.receiveOn w n now = (b.receive n now dest).1 := by
  cases b with
  | push snap => exact congrArg Prod.fst (applySnapshotOn_work h)
  | heartbeat msg =>
    unfold Body.receiveOn Body.receive Node.onHeartbeatOn Node.onHeartbeat
    dsimp only
    cases msg.snapshot with
    | none => rfl
    | some snap =>
      dsimp only
      rw [applySnapshotOn_work h]
      split
      · rfl
      · split <;> rfl
  | reply peer snap =>
    unfold Body.receiveOn Body.receive Node.onHeartbeatReplyOn Node.onHeartbeatReply
    cases snap with
    | none => rfl
    | some snap =>
      dsimp only
      rw [applySnapshotOn_work h]

/-- The parts of the membership that a snapshot of the node's own generation may change. -/
structure Refreshed (n m : Node) : Prop where
  offlineAfterMs : m.cluster.offlineAfterMs = n.cluster.offlineAfterMs
  selfId : m.cluster.selfId = n.cluster.selfId
  generation : m.cluster.generation = n.cluster.generation
  witnessHolder : m.cluster.witnessHolder = n.cluster.witnessHolder
  witnessUntilMs : m.cluster.witnessUntilMs = n.cluster.witnessUntilMs
  inventory : ofNode m = ofNode n

theorem Refreshed.refl : Refreshed n n := ⟨rfl, rfl, rfl, rfl, rfl, rfl⟩

theorem Refreshed.trans (h : Refreshed n m) (g : Refreshed m k) : Refreshed n k where
  offlineAfterMs := g.offlineAfterMs.trans h.offlineAfterMs
  selfId := g.selfId.trans h.selfId
  generation := g.generation.trans h.generation
  witnessHolder := g.witnessHolder.trans h.witnessHolder
  witnessUntilMs := g.witnessUntilMs.trans h.witnessUntilMs
  inventory := g.inventory.trans h.inventory

theorem refreshed_touch : Refreshed n (n.touch now peer record) := by
  unfold Node.touch Cluster.touch
  cases record with
  | some record => exact ⟨rfl, rfl, rfl, rfl, rfl, rfl⟩
  | none =>
    cases n.cluster.members.get peer with
    | some member => exact ⟨rfl, rfl, rfl, rfl, rfl, rfl⟩
    | none => exact .refl

/-- What a receive does to a node: nothing but the membership changes, or the snapshot is newer and
its generation is taken before its inventory. -/
inductive Received (w : Writes) (n m : Node) (snap : Option ClusterSnapshot) : Prop
  | refreshed (h : Refreshed n m) (stale : ∀ s ∈ snap, s.generation ≤ n.cluster.generation)
  | taken (s : ClusterSnapshot) (hs : snap = some s)
      (newer : n.cluster.generation < s.generation)
      (generation : m.cluster.generation = s.generation)
      (inventory : ofNode m = match w.cluster, w.store with
        | .error _, _ => ofNode n
        | .ok (), .error _ => ⟨Table.ofList s.vms, n.volumes⟩
        | .ok (), .ok () => ofSnapshot s)

theorem Received.trans_refreshed {snap : Option ClusterSnapshot} (h : Received w n m snap)
    (g : Refreshed m k) : Received w n k snap := by
  cases h with
  | refreshed h stale => exact .refreshed (h.trans g) stale
  | taken s hs newer generation inventory =>
    exact .taken s hs newer (g.generation.trans generation) (g.inventory.trans inventory)

theorem Received.of_refreshed {snap : Option ClusterSnapshot} (g : Refreshed n m)
    (h : Received w m k snap) : Received w n k snap := by
  cases h with
  | refreshed h stale => exact .refreshed (g.trans h) (fun s hs => g.generation ▸ stale s hs)
  | taken s hs newer generation inventory =>
    have hvolumes : m.volumes = n.volumes := congrArg Inventory.volumes g.inventory
    rw [g.inventory, hvolumes] at inventory
    rw [g.generation] at newer
    exact .taken s hs newer generation inventory

theorem received_applySnapshotOn :
    Received w n (n.applySnapshotOn w now snap).1 (some snap) := by
  unfold Node.applySnapshotOn
  split
  · rename_i hlt
    refine .refreshed .refl (fun s hs => ?_)
    cases hs
    exact hlt.le
  · rename_i hlt
    have hgen := n.cluster.applyMembership_generation now snap (Nat.not_lt.mp hlt)
    by_cases hnewer : snap.generation > n.cluster.generation
    · refine .taken snap rfl hnewer ?_ ?_
      · cases w.cluster <;> cases w.store <;>
          simp [hnewer, hgen, Node.replaceAll, Node.replaceRecords]
      · cases w.cluster with
        | error text => rfl
        | ok =>
          cases w.store with
          | error text => simp [hnewer, ofNode, Node.replaceAll]
          | ok => simp [hnewer, ofNode, Node.replaceAll, Node.replaceRecords, ofSnapshot]
    · have hsame : n.cluster.generation = snap.generation := by omega
      have hrefreshed : Refreshed n { n with cluster := n.cluster.applyMembership now snap } := by
        refine ⟨?_, ?_, hgen.trans hsame.symm, ?_, ?_, rfl⟩ <;>
          simp [Cluster.applyMembership, Cluster.applyMembershipInner, hlt]
      refine .refreshed ?_ (fun s hs => ?_)
      · cases w.cluster <;> simpa [hnewer] using hrefreshed
      · cases hs
        exact hsame.ge

theorem received_receiveOn : Received w n (b.receiveOn w n now) b.snapshot := by
  cases b with
  | push snap => exact received_applySnapshotOn
  | heartbeat msg =>
    refine .of_refreshed (m := n.touch now msg.sender (some msg.member)) refreshed_touch ?_
    unfold Body.receiveOn Node.onHeartbeatOn Body.snapshot
    dsimp only
    cases msg.snapshot with
    | none => exact .refreshed .refl nofun
    | some snap =>
      dsimp only
      split
      · have happly : Received w (n.touch now msg.sender (some msg.member))
            ((n.touch now msg.sender (some msg.member)).applySnapshotOn w now snap).1 (some snap) :=
          received_applySnapshotOn
        split
        · rename_i heq
          rw [heq] at happly
          exact happly
        · rename_i heq
          rw [heq] at happly
          exact happly.trans_refreshed refreshed_touch
      · rename_i hle
        have hstale : ∀ s ∈ some snap,
            s.generation ≤ (n.touch now msg.sender (some msg.member)).cluster.generation := by
          intro s hs
          cases hs
          exact Nat.not_lt.mp hle
        split <;> exact .refreshed .refl hstale
  | reply peer snap =>
    refine .of_refreshed (m := n.touch now peer none) refreshed_touch ?_
    unfold Body.receiveOn Node.onHeartbeatReplyOn Body.snapshot
    cases snap with
    | none => exact .refreshed .refl nofun
    | some snap => exact received_applySnapshotOn.trans_refreshed refreshed_touch

/-- What holds of a node before and after a receive. -/
structure Forward (n m : Node) (r : Receipt) : Prop where
  generation : n.cluster.generation ≤ m.cluster.generation
  /-- The inventory changes only with the generation, -/
  kept : m.cluster.generation = n.cluster.generation → ofNode m = ofNode n
  /-- and then it is the snapshot's. -/
  taken : n.cluster.generation < m.cluster.generation → ∃ snap, r.body.snapshot = some snap ∧
    m.cluster.generation = snap.generation ∧ (r.writes.Work → ofNode m = ofSnapshot snap)
  refreshed : ∀ snap, r.body.snapshot = some snap →
    snap.generation = n.cluster.generation → Refreshed n m

theorem Received.forward (h : Received r.writes n m r.body.snapshot) : Forward n m r := by
  cases h with
  | refreshed h _ =>
    exact {
      generation := h.generation.ge
      kept := fun _ => h.inventory
      taken := fun hlt => absurd h.generation.symm hlt.ne
      refreshed := fun _ _ _ => h }
  | taken s hs newer generation inventory =>
    refine {
      generation := (newer.trans_eq generation.symm).le
      kept := fun hsame => absurd (hsame.symm.trans generation) newer.ne
      taken := fun _ => ⟨s, hs, generation, fun hwork => ?_⟩
      refreshed := fun snap hsnap hsame => ?_ }
    · obtain ⟨hcluster, hstore, -⟩ := hwork
      rw [inventory, hcluster, hstore]
    · cases hs.symm.trans hsnap
      exact absurd hsame newer.ne'

end

/-- Over any sequence of receives the generation only grows, and each receive changes the inventory
only with it. -/
theorem generations_move_forward (n : Node) (receipts : List Receipt) :
    n.cluster.generation ≤ (receipts.foldl Receipt.apply n).cluster.generation ∧
      ∀ before r after, receipts = before ++ r :: after →
        Forward (before.foldl Receipt.apply n) ((before ++ [r]).foldl Receipt.apply n) r := by
  have hforward : ∀ (n : Node) (r : Receipt), Forward n (r.apply n) r :=
    fun n r => received_receiveOn.forward
  constructor
  · induction receipts generalizing n with
    | nil => exact Nat.le_refl _
    | cons r receipts ih => exact (hforward n r).generation.trans (ih (r.apply n))
  · rintro before r after -
    rw [List.foldl_append]
    exact hforward _ r

/-- A volume whose bytes its sender keeps under a directory of its own. -/
def foreignVolume : VolumeRecord where
  id := 7
  name := "db"
  format := .raw
  sizeBytes := 1024
  path := .text "/srv/pertisk/disks/db.raw"

def foreignSnapshot : ClusterSnapshot :=
  { (Node.fresh 2).bump.snapshot with volumes := [foreignVolume] }

theorem path_is_rewritten :
    ¬ ∀ (n : Node) (r : Receipt) (snap : ClusterSnapshot), r.body.snapshot = some snap →
      n.cluster.generation < (r.apply n).cluster.generation → r.writes.Work →
        (snap.volumes.map VolumeRecord.id).Nodup →
          ∀ v ∈ snap.volumes, (r.apply n).getVolume v.id = some v := by
  intro h
  have hv := h (Node.fresh 1) { now := 0, body := .push foreignSnapshot } foreignSnapshot rfl
    (by decide) (by decide) (by decide) foreignVolume List.mem_cons_self
  revert hv
  decide

end Replication

end Pertisk

namespace Pertisk.Replication
open Lib

/-- A node with the inventory that its generation stands for, and whether a receive has failed to
replace the inventory after it took the generation; the node reads neither. -/
structure Replica where
  node : Node
  due : Inventory
  skips : Bool

namespace Replica

variable (s : Replica) (r : Receipt)

def ofNode (n : Node) : Replica := ⟨n, Replication.ofNode n, false⟩

/-- The receive took the snapshot's generation. -/
def advances : Bool := decide (s.node.cluster.generation < (r.apply s.node).cluster.generation)

def step : Option Replica :=
  some
    { node := r.apply s.node
      due := if s.advances r then (r.body.snapshot.map ofSnapshot).getD s.due else s.due
      skips := s.skips || (s.advances r && decide (r.writes.ReplaceFails)) }

/-- The inventory is the one of the generation, and a later delivery of a snapshot that failed is
not skipped. -/
def Retried : Prop := Replication.ofNode s.node = s.due ∧ s.skips = false

/-- A newer snapshot is replaced as a whole, or changes nothing but the generation. -/
def Lands : Prop := ∀ snap ∈ r.body.snapshot, s.node.cluster.generation < snap.generation →
  match r.writes.cluster with
  | .ok () => r.writes.store = .ok () ∧ r.writes.volumes = .ok ()
  | .error _ => ofSnapshot snap = Replication.ofNode s.node

variable {s t : Replica} {r : Receipt}

theorem step_refreshed (h : Refreshed s.node (r.apply s.node)) (hstep : s.step r = some t) :
    t.Retried ↔ s.Retried := by
  have hadvances : s.advances r = false := by
    unfold advances
    rw [h.generation]
    simp
  unfold step at hstep
  cases hstep
  simp only [Retried, hadvances, h.inventory, Bool.false_eq_true, if_false, Bool.false_and,
    Bool.or_false]

theorem step_taken {snap : ClusterSnapshot} (hs : s.Retried) (hsnap : r.body.snapshot = some snap)
    (newer : s.node.cluster.generation < snap.generation)
    (generation : (r.apply s.node).cluster.generation = snap.generation)
    (hstep : s.step r = some t) :
    t.Retried ↔
      Replication.ofNode (r.apply s.node) = ofSnapshot snap ∧ ¬ r.writes.ReplaceFails := by
  have hadvances : s.advances r = true := by
    unfold advances
    rw [generation]
    exact decide_eq_true newer
  unfold step at hstep
  cases hstep
  simp [Retried, hadvances, hsnap, hs.2]

theorem step_retried (hs : s.Retried) (hstep : s.step r = some t) : t.Retried ↔ s.Lands r := by
  have hreceived : Received r.writes s.node (r.apply s.node) r.body.snapshot := received_receiveOn
  cases hreceived with
  | refreshed h stale =>
    exact iff_of_true ((step_refreshed h hstep).mpr hs)
      (fun snap hsnap newer => absurd newer (stale snap hsnap).not_gt)
  | taken snap hsnap newer generation inventory =>
    rw [step_taken hs hsnap newer generation hstep, inventory]
    have hlands : s.Lands r ↔ match r.writes.cluster with
        | .ok () => r.writes.store = .ok () ∧ r.writes.volumes = .ok ()
        | .error _ => ofSnapshot snap = Replication.ofNode s.node :=
      ⟨fun h => h snap hsnap newer, fun h other hother _ => by
        cases hsnap.symm.trans hother
        exact h⟩
    rw [hlands]
    unfold Writes.ReplaceFails
    cases r.writes.cluster with
    | error text => simp [eq_comm]
    | ok =>
      cases r.writes.store with
      | error text => simp
      | ok => simp

/-- A node pairs each generation with its inventory, and retries what fails, exactly when each newer
snapshot it is given is replaced as a whole. -/
theorem retried_iff {n : Node} {receipts : List Receipt}
    (run : Run (Steps step) (ofNode n) receipts t) :
    (∀ before u, before <+: receipts → Run (Steps step) (ofNode n) before u → u.Retried) ↔
      Run (Guarded Lands (Steps step)) (ofNode n) receipts t :=
  run.always_iff (fun _ _ _ _ => Run.steps_det) (fun _ _ _ hs h => step_retried hs h) ⟨rfl, rfl⟩

/-- A newer snapshot with a guest and a volume that the node does not have. -/
def guestSnapshot : ClusterSnapshot :=
  { foreignSnapshot with
    vms := [{ id := .numeric 100, spec := { name := "db" }, state := .stopped }] }

def delivery (writes : Writes) : Receipt where
  now := 0
  body := .push guestSnapshot
  writes := writes

theorem delivered_whole : (exec step (ofNode (Node.fresh 1)) [delivery {}]).Retried :=
  have hlands : Lands (ofNode (Node.fresh 1)) (delivery {}) := fun _ _ _ => ⟨rfl, rfl⟩
  (retried_iff (.of_exec rfl)).mpr (.one_exec hlands rfl) [delivery {}] _ (List.prefix_refl _)
    (.of_exec rfl)

/-- The guests cannot be written, and when the snapshot comes again, it is of the node's own
generation: the volume stays out. -/
theorem skipped_on_redelivery :
    ¬ ∀ (n : Node) (receipts : List Receipt) (t : Replica),
      Run (Steps step) (ofNode n) receipts t → t.Retried := by
  intro h
  have hretried := h (Node.fresh 1)
    [delivery { store := .error "No space left on device" }, delivery {}] _ (.of_exec rfl)
  have hvolume := congrArg (fun v => (v.entry (.volume foreignVolume.id)).isSome) hretried.1
  exact absurd hvolume (by decide)

end Replica

end Pertisk.Replication
