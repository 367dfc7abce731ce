import Pertisk.Migrate.Call
import Pertisk.Storage.Copies
import Pertisk.Vmm.Stop
import Pertisk.Volume.Users

namespace Pertisk.Migrate
open Lib Storage

/-- The node that handles the call, with its inventory and its files, and every node's hypervisor. -/
structure Nodes (β : Type) [Contents β] where
  now : Nat
  home : Host β
  host : NodeId → Vmm.Host

/-- What becomes of a request: it gets lost, or its answer does. -/
inductive Delivery
  | lost (text : String)
  | unanswered (text : String)
  | answered
  deriving DecidableEq

def Delivery.arrives : Delivery → Bool
  | lost _ => false
  | _ => true

/-- What a drop of the guest meets on its node, and on the way there. -/
structure Drop where
  reaction : Vmm.Reaction
  way : Delivery
  /-- What `is_running` says after a local drop that failed. -/
  running : Bool
  /-- The disks whose removal does not fail. -/
  removes : VolumeId → Bool

/-- How `apply_run` goes on this node. -/
inductive LocalRun
  | already
  | noDisks (text : String)
  | start (outcome : Outcome)

/-- What a migration meets: the copy of the disks, the destination's answer and its hypervisor
afterwards, or a start on this node, and the drop at the source. -/
structure Journey where
  runDir : String
  disks : Except String Unit
  landed : Except String VmRecord
  arrived : Vmm.Host
  run : LocalRun
  drop : Drop

namespace Nodes

variable {β : Type} [Contents β] (w : Nodes β)

def node : Node := w.home.node

def self : NodeId := w.node.cluster.selfId

def setNode (node : Node) : Nodes β := { w with home := { w.home with node := node } }

def setHost (n : NodeId) (h : Vmm.Host) : Nodes β :=
  { w with host := fun m => if m = n then h else w.host m }

def applyDrop (e : Vmm.Reaction) (n : NodeId) (record : VmRecord) : Nodes β × Except String Unit :=
  let dropped := (w.host n).destroy e record
  (w.setHost n dropped.1,
    match dropped.2 with
    | .ok () | .error (.notFound _) => .ok ()
    | .error err => .error err.text)

def peerDrop (f : Drop) (dest : NodeId) (record : VmRecord) : Nodes β × Except String Unit :=
  match w.node.cluster.memberUrl dest with
  | none => (w, .error s!"unknown node {uuidText dest}")
  | some _ =>
    match f.way with
    | .lost text => (w, .error text)
    | .unanswered text => ((w.applyDrop f.reaction dest record).1, .error text)
    | .answered => w.applyDrop f.reaction dest record

/-- Whatever became of the guest's process, its record goes, and with it the disks that no other
guest uses. -/
def forget (f : Drop) (record : VmRecord) : Nodes β :=
  let dropDisk (n : Node) (id : VolumeId) : Node :=
    if n.volumeUsers id = [] ∧ !n.volumeIsBacking id ∧ f.removes id then n.removeVolume id else n
  w.setNode ((record.spec.disks.filterMap DiskSpec.volumeId).foldl dropDisk
    (w.node.removeVm record.id)).bump

def destroy (f : Drop) (id : VmId) : Nodes β × Except String Unit :=
  match w.node.cluster.quorumError w.now with
  | some text => (w, .error text)
  | none =>
    match w.node.store.get id with
    | none => (w, .ok ())
    | some record =>
      let owner := record.nodeId.getD w.self
      if owner ≠ w.self then (((w.peerDrop f owner record).1).forget f record, .ok ())
      else
        let dropped := (w.host w.self).destroy f.reaction record
        let w := w.setHost w.self dropped.1
        match dropped.2 with
        | .ok () | .error (.notFound _) => (w.forget f record, .ok ())
        | .error err => if f.running then (w, .error err.text) else (w.forget f record, .ok ())

/-- `apply_run` on this node, down to what it writes. -/
def applyRun (j : Journey) (record : VmRecord) : Nodes β × Except String VmRecord :=
  match j.run with
  | .already =>
    let record := { record with nodeId := some w.self, state := .running }
    (w.setNode (w.node.upsertVm record), .ok record)
  | .noDisks text => (w.setNode (w.node.upsertVm (record.toRun w.self j.runDir)), .error text)
  | .start outcome =>
    let record := record.toRun w.self j.runDir
    match outcome with
    | .started created pid =>
      (w.setNode (w.node.upsertVm (record.started w.self created pid)),
        .ok (record.started w.self created pid))
    | .refused text => (w.setNode (w.node.upsertVm record), .error text)
    | .failed created text =>
      (w.setNode (w.node.upsertVm ((record.withCreated created).failed text)), .error text)

/-- `live_migrate` up to where the guest goes on, or a start from the copied disks. -/
def arrive (j : Journey) (c : Call) : Nodes β × Except String VmRecord :=
  let live := canLiveMigrate (w.host w.self).kind w.home c.record
  let w := w.setHost c.dest j.arrived
  if !live && c.dest = w.self then w.applyRun j c.record
  else (w, j.landed.map (fun started => if live then { started with state := .running } else started))

/-- Nobody looks at how the drop at the source ends. -/
def dropSource (f : Drop) (c : Call) : Nodes β :=
  if c.src = w.self then (w.applyDrop f.reaction c.src c.record).1
  else (w.peerDrop f c.src c.record).1

def migrate (j : Journey) (id : VmId) (target : Option NodeId) : Nodes β × Except String VmRecord :=
  match plan w.node w.now w.self id target with
  | .refuse text => (w, .error text)
  | .stay record => (w, .ok record)
  | .move c =>
    match j.disks with
    | .error text => (w, .error text)
    | .ok () =>
      match w.arrive j c with
      | (w, .error text) => (w, .error text)
      | (w, .ok started) =>
        let moved := { started with nodeId := some c.dest }
        let w := w.dropSource j.drop c
        (w.setNode (w.node.upsertVm moved).bump, .ok moved)

/-- The drop gets to the guest's node. -/
def Reaches (f : Drop) (n : NodeId) : Prop :=
  n = w.self ∨ (w.node.cluster.memberUrl n).isSome = true ∧ f.way.arrives = true

/-- The drop gets to the guest's node, and ends every process that the guest has there. -/
def Drops (f : Drop) (n : NodeId) (record : VmRecord) : Prop :=
  ∀ pid p, (w.host n).driver.proc pid = some p → p.guest = some record.id →
    w.Reaches f n ∧ (w.host n).ends f.reaction record pid = true

/-- The hypervisor of this node fails, and the guest is found running. -/
def Refuses (f : Drop) (record : VmRecord) : Prop :=
  record.nodeId.getD w.self = w.self ∧ f.running = true ∧
    ∃ err, ((w.host w.self).destroy f.reaction record).2 = .error (.io err)

variable {w} {f : Drop} {n m : NodeId} {record : VmRecord} {id : VmId} {e : Vmm.Reaction} {j : Journey}

@[simp] theorem setNode_host (node : Node) : (w.setNode node).host = w.host := rfl

@[simp] theorem forget_host : (w.forget f record).host = w.host := rfl

theorem setHost_host (h : Vmm.Host) : (w.setHost n h).host m = if m = n then h else w.host m := rfl

/-- What is left of a guest on the other nodes does not change. -/
theorem applyDrop_gone_iff : ((w.applyDrop e n record).1.host m).Gone record.id ↔
    ∀ pid p, (w.host m).driver.proc pid = some p → p.guest = some record.id →
      m = n ∧ (w.host n).ends e record pid = true := by
  show ((w.setHost n ((w.host n).destroy e record).1).host m).Gone record.id ↔ _
  rw [setHost_host]
  by_cases hm : m = n
  · rw [if_pos hm, Vmm.Host.destroy_gone_iff, hm]
    constructor
    · intro h pid p hp hguest
      exact ⟨rfl, h pid p hp hguest⟩
    · intro h pid p hp hguest
      exact (h pid p hp hguest).2
  · rw [if_neg hm]
    constructor
    · intro h pid p hp hguest
      exact absurd hguest (h pid p hp)
    · intro h pid p hp hguest
      exact hm (h pid p hp hguest).1

theorem peerDrop_gone_iff (hn : n ≠ w.self) : ((w.peerDrop f n record).1.host m).Gone record.id ↔
    ∀ pid p, (w.host m).driver.proc pid = some p → p.guest = some record.id →
      m = n ∧ w.Reaches f n ∧ (w.host n).ends f.reaction record pid = true := by
  by_cases hreach : w.Reaches f n
  · have hsame : (w.peerDrop f n record).1 = (w.applyDrop f.reaction n record).1 := by
      obtain ⟨hurl, harrives⟩ := hreach.resolve_left hn
      obtain ⟨url, hurl⟩ := Option.isSome_iff_exists.mp hurl
      unfold peerDrop
      rw [hurl]
      cases hway : f.way with
      | lost text =>
        rw [hway] at harrives
        cases harrives
      | unanswered text => rfl
      | answered => rfl
    rw [hsame, applyDrop_gone_iff]
    simp only [hreach, true_and]
  · have hsame : (w.peerDrop f n record).1 = w := by
      unfold peerDrop
      cases hurl : w.node.cluster.memberUrl n with
      | none => rfl
      | some url =>
        cases hway : f.way with
        | lost text => rfl
        | unanswered text =>
          exact absurd (.inr ⟨by rw [hurl]; rfl, by rw [hway]; rfl⟩) hreach
        | answered => exact absurd (.inr ⟨by rw [hurl]; rfl, by rw [hway]; rfl⟩) hreach
    rw [hsame]
    constructor
    · intro h pid p hp hguest
      exact absurd hguest (h pid p hp)
    · intro h pid p hp hguest
      exact hreach (h pid p hp hguest).2.1

/-- No process of the guest is left when its destruction succeeds, and its record when it fails. -/
def NoOrphan (w : Nodes β) (id : VmId) (r : Nodes β × Except String Unit) : Prop :=
  (r.2 = .ok () → ∀ n, (r.1.host n).Gone id) ∧
    ∀ text, r.2 = .error text → r.1.node.store.get id = w.node.store.get id

/-- A guest without a record has no process; one with a record is refused, or has processes on its
node alone, where the drop arrives and ends them. -/
def Clears (w : Nodes β) (f : Drop) (id : VmId) : Prop :=
  w.node.cluster.quorumError w.now = none →
    match w.node.store.get id with
    | none => ∀ n, (w.host n).Gone id
    | some record => w.Refuses f record ∨
        ∀ n pid p, (w.host n).driver.proc pid = some p → p.guest = some id →
          n = record.nodeId.getD w.self ∧ w.Reaches f n ∧
            (w.host n).ends f.reaction record pid = true

theorem destroyed_iff (record : VmRecord) {w' : Nodes β} (h : ∀ m, (w'.host m).Gone id ↔
    ∀ pid p, (w.host m).driver.proc pid = some p → p.guest = some id →
      m = n ∧ w.Reaches f n ∧ (w.host n).ends f.reaction record pid = true) :
    (NoOrphan w id (w'.forget f record, .ok ())) ↔
      ∀ m pid p, (w.host m).driver.proc pid = some p → p.guest = some id →
        m = n ∧ w.Reaches f m ∧ (w.host m).ends f.reaction record pid = true := by
  constructor
  · intro hclean m pid p hp hguest
    obtain ⟨rfl, hreach, hends⟩ := (h m).mp (hclean.1 rfl m) pid p hp hguest
    exact ⟨rfl, hreach, hends⟩
  · intro hall
    refine ⟨fun _ m => (h m).mpr (fun pid p hp hguest => ?_), fun text herr => by cases herr⟩
    obtain ⟨rfl, hreach, hends⟩ := hall m pid p hp hguest
    exact ⟨rfl, hreach, hends⟩

/-- A local drop leaves what its hypervisor leaves. -/
theorem local_gone_iff (hid : record.id = id) :
    ((w.setHost w.self ((w.host w.self).destroy f.reaction record).1).host m).Gone id ↔
      ∀ pid p, (w.host m).driver.proc pid = some p → p.guest = some id →
        m = w.self ∧ w.Reaches f w.self ∧ (w.host w.self).ends f.reaction record pid = true := by
  have hreach : w.Reaches f w.self := .inl rfl
  subst hid
  refine (applyDrop_gone_iff (e := f.reaction) (n := w.self)).trans ?_
  simp only [hreach, true_and]

theorem destroy_iff (w : Nodes β) (f : Drop) (id : VmId) :
    NoOrphan w id (w.destroy f id) ↔ w.Clears f id := by
  unfold destroy Clears
  cases hquorum : w.node.cluster.quorumError w.now with
  | some text =>
    refine iff_of_true ⟨fun h => ?_, fun _ _ => rfl⟩ (fun h => ?_) <;> cases h
  | none =>
    cases hget : w.node.store.get id with
    | none =>
      constructor
      · intro h _
        exact h.1 rfl
      · intro h
        refine ⟨fun _ => h rfl, fun text herr => by cases herr⟩
    | some record =>
      have hid : record.id = id := Table.key_of_get hget
      simp only [forall_const]
      by_cases howner : record.nodeId.getD w.self = w.self
      · rw [if_neg (not_not.mpr howner), howner]
        have hforgets := destroyed_iff (f := f) record
          (fun m => local_gone_iff (w := w) (m := m) hid)
        cases hend : ((w.host w.self).destroy f.reaction record).2 with
        | ok done =>
          refine hforgets.trans (or_iff_right ?_).symm
          rintro ⟨-, -, err, herr⟩
          rw [hend] at herr
          cases herr
        | error err =>
          cases err with
          | notFound gone =>
            refine hforgets.trans (or_iff_right ?_).symm
            rintro ⟨-, -, err, herr⟩
            rw [hend] at herr
            cases herr
          | io err =>
            dsimp only
            cases hrunning : f.running with
            | true =>
              rw [if_pos rfl]
              refine iff_of_true ⟨fun h => ?_, fun _ _ => rfl⟩ (.inl ⟨howner, hrunning, err, hend⟩)
              cases h
            | false =>
              rw [if_neg Bool.false_ne_true]
              refine hforgets.trans (or_iff_right ?_).symm
              rintro ⟨-, htrue, -⟩
              rw [hrunning] at htrue
              cases htrue
      · rw [if_pos howner]
        refine (destroyed_iff record (fun m => ?_)).trans (or_iff_right (fun h => howner h.1)).symm
        rw [← hid]
        exact peerDrop_gone_iff howner

/-- A guest that was moved is gone from where it was, and its record is kept when it was not. -/
def SourceLeft (w : Nodes β) (id : VmId) (target : Option NodeId)
    (r : Nodes β × Except String VmRecord) : Prop :=
  (∀ moved, r.2 = .ok moved → ∀ c, plan w.node w.now w.self id target = .move c →
      (r.1.host c.src).Gone id) ∧
    ∀ text, r.2 = .error text → (w.node.store.get id).isSome = true →
      (r.1.node.store.get id).isSome = true

/-- The guest comes to the destination. -/
def Arrives (w : Nodes β) (j : Journey) (c : Call) : Prop :=
  j.disks = .ok () ∧ ∃ started, (w.arrive j c).2 = .ok started

theorem arrive_host {c : Call} (hm : m ≠ c.dest) : (w.arrive j c).1.host m = w.host m := by
  have hset : (w.setHost c.dest j.arrived).host m = w.host m := by
    rw [setHost_host, if_neg hm]
  unfold arrive
  dsimp only
  split
  · unfold applyRun
    split
    · exact hset
    · exact hset
    · dsimp only
      split <;> exact hset
  · exact hset

theorem arrive_cluster {c : Call} : (w.arrive j c).1.node.cluster = w.node.cluster := by
  unfold arrive
  dsimp only
  split
  · unfold applyRun
    split
    · rfl
    · rfl
    · dsimp only
      split <;> rfl
  · rfl

/-- The record of a guest that is to move stays in the inventory. -/
theorem upsert_kept {node : Node} (h : (node.store.get id).isSome = true) :
    ((node.upsertVm record).store.get id).isSome = true := by
  have hget : (node.upsertVm record).store.get id = _ := Table.get_insert node.store record id
  rw [hget]
  split
  · rfl
  · exact h

theorem arrive_kept {c : Call} (h : (w.node.store.get id).isSome = true) :
    ((w.arrive j c).1.node.store.get id).isSome = true := by
  unfold arrive
  dsimp only
  split
  · unfold applyRun
    split
    · exact upsert_kept h
    · exact upsert_kept h
    · dsimp only
      split <;> exact upsert_kept h
  · exact h

theorem dropSource_gone_iff {c : Call} (hid : c.record.id = id) :
    ((w.dropSource f c).host c.src).Gone id ↔ w.Drops f c.src c.record := by
  subst hid
  unfold dropSource Drops
  by_cases hsrc : c.src = w.self
  · have hreach : w.Reaches f c.src := .inl hsrc
    rw [if_pos hsrc, applyDrop_gone_iff]
    simp only [hreach, true_and]
  · rw [if_neg hsrc, peerDrop_gone_iff hsrc]
    simp only [true_and]

/-- The drop at the source finds what the migration found. -/
theorem drops_arrive {c : Call} (hne : c.src ≠ c.dest) :
    (w.arrive j c).1.Drops f c.src c.record ↔ w.Drops f c.src c.record := by
  have hcluster := arrive_cluster (w := w) (j := j) (c := c)
  have hself : (w.arrive j c).1.self = w.self := congrArg Cluster.selfId hcluster
  have hreach : (w.arrive j c).1.Reaches f c.src ↔ w.Reaches f c.src := by
    rw [Reaches, Reaches, hself, hcluster]
  rw [Drops, Drops, arrive_host hne, hreach]

theorem migrate_iff (w : Nodes β) (j : Journey) (id : VmId) (target : Option NodeId) :
    SourceLeft w id target (w.migrate j id target) ↔
      ∀ c, plan w.node w.now w.self id target = .move c → w.Arrives j c →
        w.Drops j.drop c.src c.record := by
  unfold migrate SourceLeft
  cases hplan : plan w.node w.now w.self id target with
  | refuse text =>
    refine iff_of_true ⟨fun moved h => ?_, fun _ _ hget => hget⟩ (fun c h => ?_)
    · cases h
    · cases h
  | stay record =>
    refine iff_of_true ⟨fun _ _ c h => ?_, fun text h => ?_⟩ (fun c h => ?_) <;> cases h
  | move c =>
    obtain ⟨-, hget, -, hne⟩ := plan_move hplan
    have hid : c.record.id = id := Table.key_of_get hget
    have hkept : (w.node.store.get id).isSome = true := by rw [hget]; rfl
    have hone : ∀ c', Decision.move c = .move c' → c' = c := by
      intro c' hc'
      cases hc'
      rfl
    dsimp only
    cases hdisks : j.disks with
    | error text =>
      refine iff_of_true ⟨fun moved h => ?_, fun _ _ _ => hkept⟩ (fun c' hc' harrives => ?_)
      · cases h
      · rw [Arrives, hdisks] at harrives
        cases harrives.1
    | ok done =>
      have hdrop := drops_arrive (w := w) (j := j) (f := j.drop) (Ne.symm hne)
      have hstill := arrive_kept (j := j) (c := c) hkept
      have hresult : ∀ started, (w.arrive j c).2 = .ok started → w.Arrives j c :=
        fun started h => ⟨hdisks, started, h⟩
      have hfails : ∀ text, (w.arrive j c).2 = .error text → ¬ w.Arrives j c := by
        rintro text herr ⟨-, started, hok⟩
        rw [herr] at hok
        cases hok
      rcases hend : w.arrive j c with ⟨w₁, text | started⟩ <;>
        rw [hend] at hdrop hstill hresult hfails
      · refine iff_of_true ⟨fun moved h => ?_, fun _ _ _ => hstill⟩ (fun c' hc' harrives => ?_)
        · cases h
        · rw [hone c' hc'] at harrives
          exact absurd harrives (hfails text rfl)
      · constructor
        · intro h c' hc' _
          rw [hone c' hc']
          exact hdrop.mp ((dropSource_gone_iff hid).mp (h.1 _ rfl c rfl))
        · intro h
          refine ⟨fun moved _ c' hc' => ?_, fun text herr => by cases herr⟩
          rw [hone c' hc']
          exact (dropSource_gone_iff hid).mpr (hdrop.mpr (h c rfl (hresult started rfl)))

/-- A destroyed guest leaves no process exactly when the drop arrives at its node and ends all of
them, no other node having any; and a migrated one leaves its source exactly when the drop does so
there. -/
theorem no_orphan_iff (w : Nodes β) (f : Drop) (j : Journey) (id : VmId) (target : Option NodeId) :
    (NoOrphan w id (w.destroy f id) ↔ w.Clears f id) ∧
      (SourceLeft w id target (w.migrate j id target) ↔
        ∀ c, plan w.node w.now w.self id target = .move c → w.Arrives j c →
          w.Drops j.drop c.src c.record) :=
  ⟨destroy_iff w f id, migrate_iff w j id target⟩

end Nodes

/-- Guest 100 runs on node 2, and node 1 handles the call. -/
def onSecond : Nodes Bytes where
  now := 0
  home :=
    { node := (Node.fresh 1).upsertVm { Vmm.QemuDriver.recordOf4242 with nodeId := some 2 }
      files := fun _ => none
      isos := Table.empty }
  host n :=
    { kind := .qemu
      driver := if n = 2 then Vmm.QemuDriver.withProcess (some (.numeric 100)) true (fun _ => rfl)
        else Vmm.QemuDriver.withProcess none false (by decide) }

/-- The request to node 2 gets lost. -/
def lostDrop : Drop where
  reaction := Vmm.QemuDriver.stubborn
  way := .lost "connection refused"
  running := false
  removes _ := true

/-- The guest is destroyed, and its process stays without a record. -/
theorem destroyed_and_runs : ¬ ∀ (w : Nodes Bytes) (f : Drop) (j : Journey) (id : VmId)
    (target : Option NodeId), Nodes.NoOrphan w id (w.destroy f id) ∧
      Nodes.SourceLeft w id target (w.migrate j id target) := by
  intro h
  have hclean := (h onSecond lostDrop
    { runDir := "/run/pertisk", disks := .ok (), landed := .error "unreachable"
      arrived := onSecond.host 3, run := .already, drop := lostDrop } (.numeric 100) none).1
  have hgone := hclean.1 rfl 2
  exact hgone 4242 ⟨some (.numeric 100), some (.text "/run/pertisk/100.qmp.sock")⟩ rfl rfl

end Pertisk.Migrate
