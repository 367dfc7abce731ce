import Pertisk.Schedule

namespace Pertisk

namespace NodeLoad

variable (n : NodeLoad)

/-- The two shares of a node's load, in thousandths. -/
def cpuShare : Nat := saturatingMul32 n.usedVcpus 1000 / max n.cpus 1

def memShare : Nat := saturatingMul32 n.usedMemoryMib 1000 / max n.guestMemoryCapacity 1

def load : Nat := n.cpuShare + n.memShare

end NodeLoad

namespace Placement

variable {n : NodeLoad} {nodes pool : List NodeLoad} {spec : VmSpec} {prefer : Option NodeId}
  {affinity avoid : List NodeId} {r : Option NodeId}

/-- The nodes that are online and have room for the guest. -/
def fitting (nodes : List NodeLoad) (spec : VmSpec) : List NodeLoad :=
  nodes.filter (fun n => nodeFits n spec)

/-- The nodes that are wanted, when there are any, and else all. -/
def narrowed (wanted : NodeId → Bool) (pool : List NodeLoad) : List NodeLoad :=
  if (pool.filter (fun n => wanted n.id)).isEmpty then pool
  else pool.filter (fun n => wanted n.id)

/-- The preferred node of the pool, and else one of the least load, unless the pool is empty. -/
def Picks (pool : List NodeLoad) (prefer r : Option NodeId) : Prop :=
  (r = none ↔ pool = []) ∧ ∀ id, r = some id → ∃ n ∈ pool, n.id = id ∧
    (prefer = some id ∨ (∀ m ∈ pool, prefer ≠ some m.id) ∧ ∀ m ∈ pool, n.load ≤ m.load)

/-- A node with a guest's room left is loaded at most eightfold. -/
theorem share_bounds (hvcpus : 1 ≤ spec.vcpus) (hmem : 64 ≤ spec.memoryMib)
    (h : nodeFits n spec = true) : n.cpuShare ≤ 8000 ∧ n.memShare ≤ 1000 := by
  unfold nodeFits at h
  simp only [Bool.and_eq_true, decide_eq_true_eq] at h
  obtain ⟨⟨-, hcpu⟩, hroom⟩ := h
  have hused : n.usedVcpus < n.cpuCapacity := by omega
  have hcap : n.cpuCapacity ≤ 8 * n.cpus := by
    unfold NodeLoad.cpuCapacity saturatingMul32 cpuOvercommit
    have hmin := Nat.min_le_left (n.cpus * 8) u32Max
    omega
  have hmemory : n.usedMemoryMib ≤ n.guestMemoryCapacity := by omega
  constructor
  · unfold NodeLoad.cpuShare saturatingMul32
    refine Nat.div_le_of_le_mul ((Nat.min_le_left _ _).trans ?_)
    have hmax := Nat.le_max_left n.cpus 1
    omega
  · unfold NodeLoad.memShare saturatingMul32
    refine Nat.div_le_of_le_mul ((Nat.min_le_left _ _).trans ?_)
    have hmax := Nat.le_max_left n.guestMemoryCapacity 1
    omega

theorem load_le (hvcpus : 1 ≤ spec.vcpus) (hmem : 64 ≤ spec.memoryMib)
    (h : nodeFits n spec = true) : n.load ≤ 9000 := by
  obtain ⟨hcpu, hshare⟩ := share_bounds hvcpus hmem h
  unfold NodeLoad.load
  omega

/-- Where a guest fits, the score has the load as it is. -/
theorem loadScore_eq (hvcpus : 1 ≤ spec.vcpus) (hmem : 64 ≤ spec.memoryMib)
    (h : nodeFits n spec = true) : n.loadScore = toLex (n.load, n.id) := by
  have hle := load_le hvcpus hmem h
  have hsum : wrappingSum32 [n.cpuShare, n.memShare] = n.load := by
    unfold wrappingSum32
    rw [List.sum_cons, List.sum_singleton]
    exact Nat.mod_eq_of_lt (lt_of_le_of_lt hle (by decide))
  unfold NodeLoad.loadScore
  exact congrArg (fun sum => toLex (sum, n.id)) hsum

theorem mem_fitting : n ∈ fitting nodes spec ↔ n ∈ nodes ∧ nodeFits n spec = true :=
  List.mem_filter

theorem mem_of_mem_narrowed {wanted : NodeId → Bool} (h : n ∈ narrowed wanted pool) :
    n ∈ pool := by
  unfold narrowed at h
  split at h
  · exact h
  · exact (List.mem_filter.mp h).1

theorem narrowed_eq_nil {wanted : NodeId → Bool} : narrowed wanted pool = [] ↔ pool = [] := by
  unfold narrowed
  split
  · rfl
  · rename_i hsome
    refine iff_of_false (fun hnil => hsome (by simp [hnil])) ?_
    rintro rfl
    exact hsome rfl

theorem schedule_picks (hvcpus : 1 ≤ spec.vcpus) (hmem : 64 ≤ spec.memoryMib) :
    Picks (fitting nodes spec) prefer (schedule nodes spec prefer) := by
  have hleast : ∀ id, ((fitting nodes spec).argmin NodeLoad.loadScore).map NodeLoad.id =
      some id → ∃ n ∈ fitting nodes spec, n.id = id ∧
        ∀ m ∈ fitting nodes spec, n.load ≤ m.load := by
    intro id hid
    obtain ⟨n, hn, rfl⟩ := Option.map_eq_some_iff.mp hid
    have hmem' := List.argmin_mem hn
    refine ⟨n, hmem', rfl, fun m hm => ?_⟩
    have hle := List.le_of_mem_argmin hm hn
    rw [loadScore_eq hvcpus hmem (mem_fitting.mp hmem').2,
      loadScore_eq hvcpus hmem (mem_fitting.mp hm).2, Prod.Lex.toLex_le_toLex] at hle
    rcases hle with hlt | ⟨heq, -⟩
    · exact le_of_lt hlt
    · exact le_of_eq heq
  have hnone : ((fitting nodes spec).argmin NodeLoad.loadScore).map NodeLoad.id = none ↔
      fitting nodes spec = [] := by
    rw [Option.map_eq_none_iff, List.argmin_eq_none]
  unfold schedule
  cases prefer with
  | none =>
    refine ⟨hnone, fun id hid => ?_⟩
    obtain ⟨n, hn, hnid, hmin⟩ := hleast id hid
    refine ⟨n, hn, hnid, .inr ⟨fun m _ heq => ?_, hmin⟩⟩
    cases heq
  | some p =>
    dsimp only
    split
    · rename_i hany
      obtain ⟨n, hn, hfits⟩ := List.any_eq_true.mp hany
      rw [Bool.and_eq_true, beq_iff_eq] at hfits
      have hin := mem_fitting.mpr ⟨hn, hfits.2⟩
      refine ⟨iff_of_false (Option.some_ne_none p) (List.ne_nil_of_mem hin), ?_⟩
      rintro id hid
      cases hid
      exact ⟨n, hin, hfits.1, .inl rfl⟩
    · rename_i hany
      refine ⟨hnone, fun id hid => ?_⟩
      obtain ⟨n, hn, hnid, hmin⟩ := hleast id hid
      refine ⟨n, hn, hnid, .inr ⟨?_, hmin⟩⟩
      rintro m hm heq
      cases heq
      obtain ⟨hin, hfits⟩ := mem_fitting.mp hm
      exact hany (List.any_eq_true.mpr ⟨m, hin, by simp [hfits]⟩)

/-- What is picked from the pool is picked from the narrowed pool that it is in. -/
theorem Picks.narrowed {wanted : NodeId → Bool} {id : NodeId} (h : Picks pool prefer (some id))
    (hwanted : wanted id = true) : Picks (narrowed wanted pool) prefer (some id) := by
  obtain ⟨n, hn, hid, hchoice⟩ := h.2 id rfl
  have hin : n ∈ Placement.narrowed wanted pool := by
    have hfilter : n ∈ pool.filter (fun n => wanted n.id) :=
      List.mem_filter.mpr ⟨hn, by rw [hid, hwanted]⟩
    unfold Placement.narrowed
    split
    · exact hn
    · exact hfilter
  refine ⟨iff_of_false nofun (List.ne_nil_of_mem hin), ?_⟩
  rintro _ hid'
  cases hid'
  refine ⟨n, hin, hid, hchoice.imp_right fun hleast => ?_⟩
  exact ⟨fun m hm => hleast.1 m (mem_of_mem_narrowed hm),
    fun m hm => hleast.2 m (mem_of_mem_narrowed hm)⟩

theorem scheduleStorage_picks (hvcpus : 1 ≤ spec.vcpus) (hmem : 64 ≤ spec.memoryMib) :
    Picks (narrowed (fun id => affinity.contains id) (fitting nodes spec)) prefer
      (scheduleStorage nodes spec prefer affinity) := by
  have hall : Picks (fitting nodes spec) prefer (schedule nodes spec prefer) :=
    schedule_picks hvcpus hmem
  have hnear : nodes.filter (fun n => nodeFits n spec && affinity.contains n.id) =
      (fitting nodes spec).filter (fun n => affinity.contains n.id) := by
    unfold fitting
    rw [List.filter_filter]
    exact List.filter_congr (fun n _ => Bool.and_comm _ _)
  unfold scheduleStorage
  dsimp only
  rw [hnear]
  have hother : Picks (narrowed (fun id => affinity.contains id) (fitting nodes spec)) prefer
      (if ((fitting nodes spec).filter (fun n => affinity.contains n.id)).isEmpty then
        schedule nodes spec prefer
      else schedule ((fitting nodes spec).filter (fun n => affinity.contains n.id)) spec
        prefer) := by
    unfold narrowed
    split
    · exact hall
    · have hsub : fitting ((fitting nodes spec).filter (fun n => affinity.contains n.id)) spec =
          (fitting nodes spec).filter (fun n => affinity.contains n.id) :=
        List.filter_eq_self.mpr fun n hn => (mem_fitting.mp (List.mem_filter.mp hn).1).2
      have hpicks : Picks
          (fitting ((fitting nodes spec).filter (fun n => affinity.contains n.id)) spec) prefer
          (schedule ((fitting nodes spec).filter (fun n => affinity.contains n.id)) spec prefer) :=
        schedule_picks hvcpus hmem
      rw [hsub] at hpicks
      exact hpicks
  split
  · rename_i id hid
    split
    · rename_i hwanted
      rw [hid] at hall
      rcases Bool.or_eq_true_iff.mp hwanted with hempty | hin
      · rw [List.isEmpty_iff.mp hempty] at hother ⊢
        have hnarrowed : narrowed (fun id => ([] : List NodeId).contains id)
            (fitting nodes spec) = fitting nodes spec := by
          unfold narrowed
          rw [if_pos (by simp)]
        rw [hnarrowed]
        exact hall
      · exact hall.narrowed hin
    · exact hother
  · exact hother

theorem scheduleSpread_picks (hvcpus : 1 ≤ spec.vcpus) (hmem : 64 ≤ spec.memoryMib) :
    Picks (narrowed (fun id => affinity.contains id)
        (narrowed (fun id => !avoid.contains id) (fitting nodes spec))) prefer
      (scheduleSpread nodes spec prefer affinity avoid) := by
  have hall : Picks (narrowed (fun id => affinity.contains id) (fitting nodes spec)) prefer
      (scheduleStorage nodes spec prefer affinity) := scheduleStorage_picks hvcpus hmem
  have hfree : Picks (narrowed (fun id => affinity.contains id)
      (fitting (nodes.filter (fun n => !avoid.contains n.id)) spec)) prefer
        (scheduleStorage (nodes.filter (fun n => !avoid.contains n.id)) spec prefer affinity) :=
    scheduleStorage_picks hvcpus hmem
  have hcomm : fitting (nodes.filter (fun n => !avoid.contains n.id)) spec =
      (fitting nodes spec).filter (fun n => !avoid.contains n.id) := by
    unfold fitting
    rw [List.filter_filter, List.filter_filter]
    exact List.filter_congr (fun n _ => Bool.and_comm _ _)
  rw [hcomm] at hfree
  unfold scheduleSpread
  dsimp only
  by_cases havoid : avoid.isEmpty = true
  · rw [if_pos havoid]
    rw [List.isEmpty_iff.mp havoid]
    have hnarrowed : narrowed (fun id => !([] : List NodeId).contains id)
        (fitting nodes spec) = fitting nodes spec := by
      unfold narrowed
      split <;> simp
    rw [hnarrowed]
    exact hall
  · rw [if_neg havoid]
    cases hpick : scheduleStorage (nodes.filter (fun n => !avoid.contains n.id)) spec prefer
        affinity with
    | none =>
      have hnil := narrowed_eq_nil.mp (hfree.1.mp hpick)
      have hnarrowed : narrowed (fun id => !avoid.contains id) (fitting nodes spec) =
          fitting nodes spec := by
        unfold narrowed
        rw [if_pos (by rw [hnil]; rfl)]
      rw [hnarrowed]
      exact hall
    | some id =>
      have hne : (fitting nodes spec).filter (fun n => !avoid.contains n.id) ≠ [] := by
        intro hnil
        have hnone := hfree.1.mpr (narrowed_eq_nil.mpr hnil)
        rw [hpick] at hnone
        cases hnone
      have hnarrowed : narrowed (fun id => !avoid.contains id) (fitting nodes spec) =
          (fitting nodes spec).filter (fun n => !avoid.contains n.id) := by
        unfold narrowed
        rw [if_neg (by simpa using hne)]
      rw [hpick] at hfree
      rw [hnarrowed]
      exact hfree

/-- Both nodes are near the guest's disks, and the preferred one is the busier. -/
def idleAndBusy : List NodeLoad :=
  [{ id := 1, online := true, cpus := 8, memoryMib := 16384, usedVcpus := 0, usedMemoryMib := 0 },
    { id := 2, online := true, cpus := 8, memoryMib := 16384, usedVcpus := 4,
      usedMemoryMib := 4096 }]

end Placement

end Pertisk
