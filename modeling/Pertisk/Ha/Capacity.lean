import Mathlib.Algebra.Order.BigOperators.Group.List
import Pertisk.Ha.World

namespace Pertisk.Ha
open Lib

/-- What comes of moving a lost guest: its disks are not on the new node, the run request fails, or
the guest runs there. -/
inductive Restart
  | unprepared (text : String)
  | refused (text : String)
  | started (record : VmRecord)

/-- One pass of `recover_ha`. It reads the loads and the inventory once; `placed` are the guests
that it has got started. -/
structure Recovering where
  node : Node
  loads : List NodeLoad
  rest : List VmRecord
  placed : List (NodeId × VmSpec) := []

/-- A turn of the loop, and whatever else changes the daemon's inventory meanwhile. -/
inductive Turn
  | next (restart : Restart)
  | meanwhile (node : Node)

/-- The node with the guests counted in its load. -/
def counting (n : NodeLoad) (guests : List VmSpec) : NodeLoad :=
  { n with
    usedVcpus := n.usedVcpus + (guests.map VmSpec.vcpus).sum
    usedMemoryMib := n.usedMemoryMib + (guests.map VmSpec.memoryMib).sum }

section
variable (n : NodeLoad) (guests : List VmSpec)

@[simp] theorem counting_cpuCapacity : (counting n guests).cpuCapacity = n.cpuCapacity := rfl

@[simp] theorem counting_guestMemoryCapacity :
    (counting n guests).guestMemoryCapacity = n.guestMemoryCapacity := rfl

@[simp] theorem counting_usedVcpus :
    (counting n guests).usedVcpus = n.usedVcpus + (guests.map VmSpec.vcpus).sum := rfl

@[simp] theorem counting_usedMemoryMib :
    (counting n guests).usedMemoryMib = n.usedMemoryMib + (guests.map VmSpec.memoryMib).sum := rfl

end

/-- The guest's share of what the node has left. -/
def HasRoom (n : NodeLoad) (spec : VmSpec) : Prop :=
  spec.vcpus ≤ n.cpuCapacity - n.usedVcpus ∧
    spec.memoryMib ≤ n.guestMemoryCapacity - n.usedMemoryMib

instance (n : NodeLoad) (spec : VmSpec) : Decidable (HasRoom n spec) :=
  inferInstanceAs (Decidable (_ ∧ _))

/-- All of the guests together fit what the node has left. -/
def HoldsAll (n : NodeLoad) (guests : List VmSpec) : Prop :=
  (guests.map VmSpec.vcpus).sum ≤ n.cpuCapacity - n.usedVcpus ∧
    (guests.map VmSpec.memoryMib).sum ≤ n.guestMemoryCapacity - n.usedMemoryMib

instance (n : NodeLoad) (guests : List VmSpec) : Decidable (HoldsAll n guests) :=
  inferInstanceAs (Decidable (_ ∧ _))

namespace Recovering

variable (s : Recovering)

def start (node : Node) (now : Nat) : Option Recovering :=
  if node.cluster.haArmed then
    some { node := node, loads := node.loads now, rest := node.store.rows }
  else none

def afterTurn (node : Node) : Recovering := { s with node := node, rest := s.rest.tail }

def step : Turn → Option Recovering
  | .meanwhile node => some { s with node := node }
  | .next restart =>
    match s.rest with
    | [] => none
    | vm :: _ =>
      match recovery s.node s.loads vm with
      | .skip => some (s.afterTurn s.node)
      | .fail failed => some (s.afterTurn (s.node.upsertVm failed).bump)
      | .run _ dest moving =>
        match restart with
        | .unprepared text => some (s.afterTurn (s.node.upsertVm (vm.failed text)))
        | .refused text => some (s.afterTurn (s.node.upsertVm (vm.failed text)).bump)
        | .started record =>
          some { s.afterTurn (s.node.upsertVm record).bump with
            placed := (dest, moving.spec) :: s.placed }

/-- The guests that the pass has started on the node. -/
def placedOn (id : NodeId) : List VmSpec :=
  (s.placed.filter (fun p => p.1 == id)).map Prod.snd

/-- The guest that a turn starts, and where. -/
def picks : Turn → Option (NodeId × VmSpec)
  | .meanwhile _ | .next (.unprepared _) | .next (.refused _) => none
  | .next (.started _) =>
    match s.rest with
    | [] => none
    | vm :: _ =>
      match recovery s.node s.loads vm with
      | .run _ dest moving => some (dest, moving.spec)
      | _ => none

/-- No node has more guests from the pass than it had room for when the pass began. -/
def Respects : Prop := ∀ n ∈ s.loads, HoldsAll n (s.placedOn n.id)

instance : Decidable s.Respects :=
  inferInstanceAs (Decidable (∀ n ∈ s.loads, _))

/-- The guest still fits the node when those that the pass started there before are counted. -/
def Carries (turn : Turn) : Prop :=
  ∀ p ∈ s.picks turn, ∀ n ∈ s.loads, n.id = p.1 → HasRoom (counting n (s.placedOn n.id)) p.2

instance (turn : Turn) : Decidable (s.Carries turn) :=
  inferInstanceAs (Decidable (∀ p ∈ s.picks turn, _))

variable {s t : Recovering} {turn : Turn}

/-- A turn adds the guest that it picks, and leaves the loads as they were read. -/
theorem step_placed (h : s.step turn = some t) :
    t.loads = s.loads ∧ t.placed = (s.picks turn).toList ++ s.placed := by
  cases turn with
  | meanwhile node =>
    cases h
    exact ⟨rfl, rfl⟩
  | next restart =>
    unfold step at h
    cases hrest : s.rest with
    | nil =>
      simp only [hrest] at h
      cases h
    | cons vm rest =>
      simp only [hrest] at h
      cases hrec : recovery s.node s.loads vm with
      | skip =>
        simp only [hrec] at h
        cases h
        cases restart <;> simp [picks, afterTurn, hrest, hrec]
      | fail failed =>
        simp only [hrec] at h
        cases h
        cases restart <;> simp [picks, afterTurn, hrest, hrec]
      | run owner dest moving =>
        simp only [hrec] at h
        cases restart <;> cases h <;> simp [picks, afterTurn, hrest, hrec]

theorem placedOn_cons {p : NodeId × VmSpec} {id : NodeId} (h : t.placed = p :: s.placed) :
    t.placedOn id = if p.1 = id then p.2 :: s.placedOn id else s.placedOn id := by
  unfold placedOn
  rw [h, List.filter_cons]
  by_cases hid : p.1 = id
  · simp [hid]
  · simp [hid]

theorem room_beside {share others used capacity : ℕ} (h : others ≤ capacity - used) :
    share + others ≤ capacity - used ↔ share ≤ capacity - (used + others) := by
  omega

/-- One guest more fits exactly when it has room beside the others. -/
theorem holdsAll_cons {n : NodeLoad} {guests : List VmSpec} {spec : VmSpec}
    (h : HoldsAll n guests) :
    HoldsAll n (spec :: guests) ↔ HasRoom (counting n guests) spec := by
  simp only [HoldsAll, HasRoom, List.map_cons, List.sum_cons, counting_cpuCapacity,
    counting_guestMemoryCapacity, counting_usedVcpus, counting_usedMemoryMib]
  exact and_congr (room_beside h.1) (room_beside h.2)

theorem step_respects (hs : s.Respects) (h : s.step turn = some t) :
    t.Respects ↔ s.Carries turn := by
  obtain ⟨hloads, hplaced⟩ := step_placed h
  unfold Respects Carries
  rw [hloads]
  cases hpick : s.picks turn with
  | none =>
    rw [hpick] at hplaced
    have hsame : ∀ id, t.placedOn id = s.placedOn id := fun id => by
      unfold placedOn
      rw [hplaced]
      rfl
    simp only [hsame]
    exact iff_of_true hs (fun _ hp => absurd hp (Option.not_mem_none _))
  | some p =>
    rw [hpick] at hplaced
    have hcons : ∀ id, t.placedOn id = if p.1 = id then p.2 :: s.placedOn id else s.placedOn id :=
      fun id => placedOn_cons hplaced
    constructor
    · rintro ht q hq n hn hid
      obtain rfl := Option.some.inj hq
      have hall := ht n hn
      rw [hcons, if_pos hid.symm] at hall
      exact (holdsAll_cons (hs n hn)).mp hall
    · intro hroom n hn
      rw [hcons]
      split
      · rename_i hid
        exact (holdsAll_cons (hs n hn)).mpr (hroom p rfl n hn hid.symm)
      · exact hs n hn

/-- The guests on a node are among those that it has after the turn. -/
theorem step_back (h : s.step turn = some t) (ht : t.Respects) : s.Respects := by
  obtain ⟨hloads, hplaced⟩ := step_placed h
  intro n hn
  obtain ⟨hcpu, hmem⟩ := ht n (hloads ▸ hn)
  have hsub : (s.placedOn n.id).Sublist (t.placedOn n.id) := by
    unfold placedOn
    rw [hplaced]
    exact ((List.sublist_append_right _ _).filter _).map _
  exact ⟨(List.Sublist.sum_le_sum (hsub.map _) (fun _ _ => Nat.zero_le _)).trans hcpu,
    (List.Sublist.sum_le_sum (hsub.map _) (fun _ _ => Nat.zero_le _)).trans hmem⟩

def lostGuest (n : Nat) (name : String) : VmRecord where
  id := .numeric n
  spec := { name := name, memoryMib := 10240, ha := true }
  state := .running
  nodeId := some 2

/-- Two guests without disks on node 2. -/
def lostGuests : List VmRecord := [lostGuest 100 "db", lostGuest 101 "web"]

/-- Node 1 has heard nothing of node 2 for 20 s; it has 16 GiB. -/
def survivor : Node :=
  { (Node.fresh 1).replaceAll lostGuests with
    cluster := { (Node.fresh 1).cluster with
      members := Table.ofList ([1, 2].map (fun m => ⟨m,
        { id := m, name := "node", peerUrl := "", cpus := 4, memoryMib := 16384 }, 0⟩)) } }

def survivorPass : Recovering :=
  { node := survivor, loads := survivor.loads 20000, rest := survivor.store.rows }

/-- Each guest runs on node 1 at once. -/
def restarts : List Turn :=
  lostGuests.map (fun vm => .next (.started { vm with nodeId := some 1 }))

/-- Only the first of the two can be started. -/
def restartsOne : List Turn :=
  [.next (.started { lostGuest 100 "db" with nodeId := some 1 }), .next (.refused "no memory")]

end Recovering

end Pertisk.Ha
