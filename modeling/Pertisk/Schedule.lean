import Mathlib.Data.List.MinMax
import Pertisk.Node

namespace Pertisk

structure NodeLoad where
  id : NodeId
  online : Bool
  cpus : Nat
  memoryMib : Nat
  usedVcpus : Nat
  usedMemoryMib : Nat
  deriving DecidableEq, Repr

/-- Largest `u32`. -/
def u32Max : Nat := 2 ^ 32 - 1

def saturatingMul32 (a b : Nat) : Nat := min (a * b) u32Max

/-- The sum of `u32`s in a release build. -/
def wrappingSum32 (xs : List Nat) : Nat := xs.sum % 2 ^ 32

/-- vCPU overcommit; memory stays a hard cap. -/
def cpuOvercommit : Nat := 8

def hostMemoryReserveMib (hostMib : Nat) : Nat := min (max (hostMib / 20) 64) 1536

def guestMemoryBudgetMib (hostMib : Nat) : Nat := hostMib - hostMemoryReserveMib hostMib

namespace NodeLoad

variable (n : NodeLoad)

def cpuCapacity : Nat := max (saturatingMul32 n.cpus cpuOvercommit) n.cpus

def guestMemoryCapacity : Nat := guestMemoryBudgetMib n.memoryMib

/-- Least loaded first, and then by id. -/
def loadScore : ℕ ×ₗ NodeId :=
  let cpu := saturatingMul32 n.usedVcpus 1000 / max n.cpus 1
  let mem := saturatingMul32 n.usedMemoryMib 1000 / max n.guestMemoryCapacity 1
  toLex (wrappingSum32 [cpu, mem], n.id)

end NodeLoad

def nodeFits (n : NodeLoad) (spec : VmSpec) : Bool :=
  n.online && decide (spec.vcpus ≤ n.cpuCapacity - n.usedVcpus) &&
    decide (spec.memoryMib ≤ n.guestMemoryCapacity - n.usedMemoryMib)

def schedule (nodes : List NodeLoad) (spec : VmSpec) (prefer : Option NodeId) : Option NodeId :=
  let least := ((nodes.filter (fun n => nodeFits n spec)).argmin NodeLoad.loadScore).map NodeLoad.id
  match prefer with
  | some id => if nodes.any (fun n => n.id == id && nodeFits n spec) then some id else least
  | none => least

/-- Prefer nodes that already hold volume replicas; fall back to least-loaded. -/
def scheduleStorage (nodes : List NodeLoad) (spec : VmSpec) (prefer : Option NodeId)
    (affinity : List NodeId) : Option NodeId :=
  let near := nodes.filter (fun n => nodeFits n spec && affinity.contains n.id)
  let other := if near.isEmpty then schedule nodes spec prefer else schedule near spec prefer
  match schedule nodes spec prefer with
  | some id => if affinity.isEmpty || affinity.contains id then some id else other
  | none => other

/-- Least-loaded node that fits, skipping `avoid` when some other node can take the guest. -/
def scheduleSpread (nodes : List NodeLoad) (spec : VmSpec) (prefer : Option NodeId)
    (affinity avoid : List NodeId) : Option NodeId :=
  let free := nodes.filter (fun n => !avoid.contains n.id)
  match if avoid.isEmpty then none else scheduleStorage free spec prefer affinity with
  | some id => some id
  | none => scheduleStorage nodes spec prefer affinity

/-- Place a defined (not running) guest: any online node, prefer replica holders. -/
def scheduleDefine (nodes : List NodeLoad) (prefer : Option NodeId) (affinity : List NodeId) :
    Option NodeId :=
  let online := nodes.filter NodeLoad.online
  let preferOk (id : NodeId) : Bool := online.any (fun n => n.id == id)
  match (prefer.filter preferOk).or (affinity.find? preferOk) with
  | some id => some id
  | none =>
    (online.argmin (fun n => toLex (n.usedMemoryMib, toLex (n.usedVcpus, n.id)))).map NodeLoad.id

/-- Defined guests ignore RAM. -/
def scheduleDefineSpread (nodes : List NodeLoad) (prefer : Option NodeId)
    (affinity avoid : List NodeId) : Option NodeId :=
  let free := nodes.filter (fun n => !avoid.contains n.id)
  match if avoid.isEmpty then none else scheduleDefine free prefer affinity with
  | some id => some id
  | none => scheduleDefine nodes prefer affinity

section
variable {nodes : List NodeLoad} {spec : VmSpec} {prefer : Option NodeId}
variable {affinity avoid : List NodeId} {id : NodeId}

/-- Whatever is preferred, the guest goes to a node that is online and has room for it. -/
theorem schedule_fits (h : schedule nodes spec prefer = some id) :
    ∃ n ∈ nodes, n.id = id ∧ nodeFits n spec = true := by
  have hleast : ((nodes.filter (fun n => nodeFits n spec)).argmin NodeLoad.loadScore).map
      NodeLoad.id = some id → ∃ n ∈ nodes, n.id = id ∧ nodeFits n spec = true := by
    intro h
    obtain ⟨n, hn, hid⟩ := Option.map_eq_some_iff.mp h
    obtain ⟨hmem, hfits⟩ := List.mem_filter.mp (List.argmin_mem hn)
    exact ⟨n, hmem, hid, hfits⟩
  unfold schedule at h
  cases prefer with
  | none => exact hleast h
  | some p =>
    dsimp only at h
    split at h
    · rename_i hany
      obtain ⟨n, hmem, hn⟩ := List.any_eq_true.mp hany
      simp only [Bool.and_eq_true, beq_iff_eq] at hn
      cases h
      exact ⟨n, hmem, hn.1, hn.2⟩
    · exact hleast h

theorem scheduleStorage_fits (h : scheduleStorage nodes spec prefer affinity = some id) :
    ∃ n ∈ nodes, n.id = id ∧ nodeFits n spec = true := by
  have hother : (if (nodes.filter (fun n => nodeFits n spec && affinity.contains n.id)).isEmpty
      then schedule nodes spec prefer
      else schedule (nodes.filter (fun n => nodeFits n spec && affinity.contains n.id)) spec
        prefer) = some id → ∃ n ∈ nodes, n.id = id ∧ nodeFits n spec = true := by
    intro h
    split at h
    · exact schedule_fits h
    · obtain ⟨n, hmem, hn⟩ := schedule_fits h
      exact ⟨n, (List.mem_filter.mp hmem).1, hn⟩
  unfold scheduleStorage at h
  dsimp only at h
  split at h
  · rename_i p hp
    split at h
    · cases h
      exact schedule_fits hp
    · exact hother h
  · exact hother h

theorem scheduleSpread_fits (h : scheduleSpread nodes spec prefer affinity avoid = some id) :
    ∃ n ∈ nodes, n.id = id ∧ nodeFits n spec = true := by
  unfold scheduleSpread at h
  dsimp only at h
  split at h
  · rename_i p hp
    cases h
    split at hp
    · cases hp
    · obtain ⟨n, hmem, hn⟩ := scheduleStorage_fits hp
      exact ⟨n, (List.mem_filter.mp hmem).1, hn⟩
  · exact scheduleStorage_fits h

end

/-- Diskless guests can move. A guest with disks can move only when every disk is Ceph RBD. -/
def disksAreHaDurable (disks : List DiskSpec) (lookup : VolumeId → Option StorageBackend) : Bool :=
  disks.isEmpty || disks.all (fun disk =>
    match disk.volumeId.bind lookup with
    | some backend => backend.haDurable
    | none => false)

/-- The group's name without blanks around it. -/
def placementGroup (raw : Option String) : Option String :=
  match raw with
  | none => none
  | some text =>
    let trimmed := PeerUrl.trim text.toList
    if trimmed.isEmpty then none else some (String.ofList trimmed)

namespace Node

variable (n : Node)

def loads (now : Nat) : List NodeLoad :=
  n.cluster.members.rows.map (fun m =>
    let placed := n.store.rows.filter
      (fun vm => vm.nodeId == some m.record.id && vm.state == .running)
    { id := m.record.id
      online := memberIsOnline m n.cluster.selfId now n.cluster.offlineAfterMs
      cpus := m.record.cpus
      memoryMib := m.record.memoryMib
      usedVcpus := wrappingSum32 (placed.map (fun vm => vm.spec.vcpus))
      usedMemoryMib := wrappingSum32 (placed.map (fun vm => vm.spec.memoryMib)) })

/-- Nodes that already hold another guest in this placement group. -/
def groupNodes (spec : VmSpec) (except : Option VmId) : List NodeId :=
  match placementGroup spec.group with
  | none => []
  | some group =>
    (n.store.rows.filter (fun vm => !vm.template && some vm.id != except &&
      placementGroup vm.spec.group == some group)).filterMap (fun vm => vm.nodeId)

/-- Nodes that hold a replica of every disk. -/
def volumeAffinity (spec : VmSpec) : List NodeId :=
  let sets := spec.disks.filterMap (fun disk =>
    match disk.volumeId.bind n.getVolume with
    | none => none
    | some vol => if vol.backend == .rbd || vol.replicas.isEmpty then none else some vol.replicas)
  match sets with
  | [] => []
  | first :: rest => rest.foldl (fun acc set => acc.filter (fun id => set.contains id)) first

def guestCanHaRestart (vm : VmRecord) : Bool :=
  disksAreHaDurable vm.spec.disks (fun id => (n.getVolume id).map (fun vol => vol.backend))

end Node

end Pertisk
