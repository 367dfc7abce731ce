import Pertisk.Service.Scheduled

namespace Pertisk.Service
open Lib Op Volume Storage

/-- The snapshots of a volume are those that it had, and others that are called `t`. -/
def Grown (n₀ : Node) (t : String) (record : VolumeRecord) : Prop :=
  ∀ snap ∈ record.snapshots, snap.name = t ∨
    ∃ old, n₀.getVolume record.id = some old ∧ ∃ snap₀ ∈ old.snapshots, snap₀.name = snap.name

/-- The guest keeps its disks while snapshots of them are taken. -/
structure Grows (n₀ : Node) (t : String) (id : VmId) (ids : List VolumeId) (b : Book) : Prop where
  disks : ∀ vm, b.node.store.get id = some vm → diskVolumes vm = ids
  volumes : ∀ v record, b.node.getVolume v = some record → Grown n₀ t record

section
variable {env : Env} {n₀ : Node} {t : String} {id : VmId} {ids : List VolumeId}
  {b b' : Noted Book.generation}

theorem Grows.start {book : Book} {vm : VmRecord} (h : book.node.store.get id = some vm) :
    Grows book.node t id (diskVolumes vm) book := by
  refine ⟨fun other hget => ?_, fun v record hvol snap hsnap => .inr ?_⟩
  · rw [h] at hget
    cases hget
    rfl
  · exact ⟨record, (Node.getVolume_id book.node hvol).symm ▸ hvol, snap, hsnap, rfl⟩

theorem Grown.localize {record : VolumeRecord} (h : Grown n₀ t record) :
    Grown n₀ t record.localize := by
  have hsnaps : record.localize.snapshots = record.snapshots := by
    unfold VolumeRecord.localize
    split <;> rfl
  intro snap hsnap
  rw [VolumeRecord.localize_id]
  exact h snap (hsnaps ▸ hsnap)

theorem Grown.snapshot {tools : Tools} {record : VolumeRecord} {name : String}
    {notes : Option String} {now : Nat} {live : Bool} (h : Grown n₀ (trimmed name) record) :
    Grown n₀ (trimmed name) ((Edit.snapshot name notes now live).write tools record) := by
  intro snap hsnap
  rcases List.mem_append.mp hsnap with hold | hnew
  · exact h snap hold
  · rw [List.mem_singleton.mp hnew]
    exact .inl rfl

theorem upholds_ask : Proc.Upholds (Grows n₀ t id ids) (ask env) :=
  .look (fun _ h => ⟨h.disks, h.volumes⟩)

theorem upholds_node : Proc.Upholds (Grows n₀ t id ids) node := .look (fun _ h => h)

theorem upholds_getVm (other : VmId) : Proc.Upholds (Grows n₀ t id ids) (getVm other) := by
  refine upholds_node.bind (fun n => ?_)
  split
  · exact .pure _
  · exact .check _

theorem upholds_getVolume (v : VolumeId) : Proc.Upholds (Grows n₀ t id ids) (getVolume v) := by
  refine upholds_node.bind (fun n => ?_)
  split
  · exact .pure _
  · exact .check _

theorem upholds_run (word : String → String) : Proc.Upholds (Grows n₀ t id ids) (run env word) :=
  upholds_ask.bind (fun _ => .check _)

theorem upholds_onlyIf {c : Bool} {p : Op Unit} (h : Proc.Upholds (Grows n₀ t id ids) p) :
    Proc.Upholds (Grows n₀ t id ids) (onlyIf c p) := by
  unfold onlyIf
  split
  · exact h
  · exact .pure _

theorem upholds_sync (record : VolumeRecord) :
    Proc.Upholds (Grows n₀ t id ids) (syncVolumeReplicas env record) :=
  upholds_onlyIf ((upholds_run _).attempt.bind (fun _ => .pure _))

theorem upholds_bump : Proc.Upholds (Grows n₀ t id ids) bump :=
  .advance (fun _ h => ⟨h.disks, h.volumes⟩)

theorem upholds_putRecord {record : VolumeRecord} (hgrown : Grown n₀ t record) :
    Proc.Upholds (Grows n₀ t id ids) (putRecord record) := by
  refine Proc.Upholds.bind (.alter (fun book h => ⟨h.disks, fun v found hvol => ?_⟩)) (fun _ => .pure _)
  rw [Node.getVolume_putRecord] at hvol
  split at hvol
  · cases hvol
    exact hgrown.localize
  · exact h.volumes v found hvol

theorem upholds_edit {command live : Bool} {name : String} {notes : Option String} {now : Nat}
    (v : VolumeId) : Proc.Upholds (Grows n₀ (trimmed name) id ids)
      (edit env command (.snapshot name notes now live) v) := by
  refine (upholds_getVolume v).bind_of (fun m record m' hm h => hm.volumes v _ (getVolume_ok h).2) ?_
  intro record hgrown
  refine Proc.Upholds.bind (.check _) (fun _ => upholds_ask.bind (fun o => ?_))
  refine upholds_node.bind (fun n => ?_)
  exact (upholds_onlyIf (upholds_run _)).bind (fun _ => upholds_putRecord hgrown.snapshot)

theorem upholds_bump_pure {α : Type} (a : α) :
    Proc.Upholds (Grows n₀ t id ids) (bump >>= fun _ => (pure a : Op α)) :=
  upholds_bump.bind (fun _ => .pure _)

theorem upholds_poolSnapshot (v : VolumeId) (name : String) (notes : Option String) :
    Proc.Upholds (Grows n₀ (trimmed name) id ids) (poolSnapshot env v name notes) :=
  upholds_ask.bind (fun _ => upholds_edit v)

theorem upholds_snapshotLive (vm : VmRecord) (v : VolumeId) (name : String)
    (notes : Option String) :
    Proc.Upholds (Grows n₀ (trimmed name) id ids) (snapshotLive env vm v name notes) := by
  refine (upholds_getVolume v).bind (fun vol => Proc.Upholds.bind (.check _) (fun _ => ?_))
  refine Proc.Upholds.bind (.check _) (fun _ => ?_)
  split
  · exact (upholds_poolSnapshot v name notes).bind (fun _ => upholds_bump_pure _)
  · refine (upholds_run _).bind (fun _ => Proc.Upholds.bind ?_ (fun _ => upholds_bump_pure _))
    exact upholds_ask.bind (fun _ => upholds_edit v)
  · exact .check _

theorem upholds_snapshotVolume (v : VolumeId) (name : String) (notes : Option String) :
    Proc.Upholds (Grows n₀ (trimmed name) id ids) (snapshotVolume env v name notes) := by
  refine upholds_node.bind (fun n => ?_)
  split
  · refine (upholds_poolSnapshot v name notes).bind (fun record => ?_)
    exact (upholds_sync record).bind (fun _ => upholds_bump_pure _)
  · refine (upholds_getVm _).bind (fun vm => ?_)
    split
    · exact upholds_snapshotLive vm v name notes
    · exact Proc.Upholds.bind (.check _) (fun _ => upholds_ask.bind (fun _ => .check _))
  · exact .check _

theorem upholds_get (hquiet : env.Quiet) (other : VmId) :
    Proc.Upholds (Grows n₀ t id ids) (get env other) := by
  refine (upholds_getVm other).bind (fun vm => upholds_ask.bind_of
    (q := fun o => o.seen = none) (fun m o m' _ h => ask_ok h ▸ hquiet _) (fun o ho => ?_))
  rw [ho]
  exact .pure _

theorem upholds_snapshotOnce (v : VolumeId) (name : String) :
    Proc.Upholds (Grows n₀ (trimmed name) id ids) (snapshotOnce env name v) := by
  refine (upholds_getVolume v).bind (fun record => ?_)
  split
  · exact .pure _
  · exact (upholds_snapshotVolume v name none).bind (fun _ => .pure _)

/-- Noting the run leaves the guest its disks. -/
theorem upholds_noteRun (hquiet : env.Quiet) (now : Nat) :
    Proc.Upholds (Grows n₀ t id ids)
      (noteRun env now (fun spec f => { spec with snapshot := spec.snapshot.map f }) id) := by
  refine (upholds_get hquiet id).attempt.bind_of
    (q := fun vm => ∀ found, vm = .ok found → found.id = id ∧ diskVolumes found = ids) ?_ ?_
  · intro m vm m' hm h found hfound
    cases h
    have hget := get_ok hquiet (Prod.ext hfound rfl)
    exact ⟨Table.key_of_get hget, hm.disks found hget⟩
  · intro vm hvm
    cases vm with
    | error e => exact .pure _
    | ok vm =>
      obtain ⟨hid, hdisks⟩ := hvm vm rfl
      refine Proc.Upholds.bind (.alter (fun book h => ⟨fun found hget => ?_, h.volumes⟩))
        (fun _ => upholds_bump)
      subst hid
      have hself := hget.symm.trans (Table.get_insert_self ..)
      cases hself
      exact hdisks

theorem diskRecords_ok {vs : List VolumeId} {records : List VolumeRecord}
    (h : diskRecords vs b = (.ok records, b')) :
    ∀ record ∈ records, ∃ v ∈ vs, b.state.node.getVolume v = some record := by
  induction vs generalizing records b' with
  | nil =>
    cases h
    intro record hrecord
    cases hrecord
  | cons v vs ih =>
    obtain ⟨found, m, hget, h⟩ := Proc.bind_ok h
    obtain ⟨others, m', hothers, hpure⟩ := Proc.bind_ok h
    obtain ⟨rfl, hstored⟩ := getVolume_ok hget
    cases hpure
    intro record hrecord
    rcases List.mem_cons.mp hrecord with rfl | hrest
    · exact ⟨v, List.mem_cons_self, hstored⟩
    · obtain ⟨w, hw, hrecord⟩ := ih hothers record hrest
      exact ⟨w, List.mem_cons_of_mem _ hw, hrecord⟩

/-- The names after a run are those before it and the name of the run. -/
theorem scheduledNames_length_le (hgrows : Grows n₀ t id ids b.state)
    {records : List VolumeRecord}
    (hrecords : ∀ record ∈ records, ∃ v ∈ ids, b.state.node.getVolume v = some record) :
    (scheduledNames records).length ≤
      ((scheduledNames (ids.filterMap n₀.getVolume)).insert t).length := by
  refine (scheduledNames_nodup records).length_le_of_subset (fun name hname => ?_)
  obtain ⟨hsched, record, hrecord, snap, hsnap, rfl⟩ := mem_scheduledNames.mp hname
  obtain ⟨v, hv, hvol⟩ := hrecords record hrecord
  rcases hgrows.volumes v record hvol snap hsnap with hnew | ⟨old, hold, snap₀, hsnap₀, hname₀⟩
  · exact hnew ▸ List.mem_insert_self
  · rw [Node.getVolume_id b.state.node hvol] at hold
    have hmem : old ∈ ids.filterMap n₀.getVolume := List.mem_filterMap.mpr ⟨v, hv, hold⟩
    exact List.mem_insert_of_mem
      (mem_scheduledNames.mpr ⟨hsched, old, hmem, snap₀, hsnap₀, hname₀⟩)

/-- Where no more snapshots are there than are kept, none is deleted. -/
theorem prune_clean (hquiet : env.Quiet) {keep : Nat} (hgrows : Grows n₀ t id ids b.state)
    (hfew : keep ≠ 0 → ((scheduledNames (ids.filterMap n₀.getVolume)).insert t).length ≤ keep)
    (hb : b.Clean) : (pruneScheduledSnapshots env id keep b).2.Clean := by
  have hget := (still_get hquiet id).steady b hb
  unfold pruneScheduledSnapshots
  split
  · exact hb
  · rename_i hkeep
    rw [Proc.bind_run]
    rcases hvm : get env id b with ⟨r, m⟩
    rw [hvm] at hget
    cases r with
    | error e => exact hget
    | ok vm =>
      have hdisks := hgrows.disks vm (get_ok hquiet hvm)
      have hm := (upholds_get hquiet id).run hgrows hvm
      have hread := (still_diskRecords (diskVolumes vm)).steady m hget
      dsimp only
      rw [Proc.bind_run]
      rcases hrecords : diskRecords (diskVolumes vm) m with ⟨r, m'⟩
      rw [hrecords] at hread
      cases r with
      | error e => exact hread
      | ok records =>
        have hlen := scheduledNames_length_le hm (hdisks ▸ diskRecords_ok hrecords)
        dsimp only
        rw [List.drop_eq_nil_of_le (hlen.trans (hfew hkeep))]
        exact hread

/-- A run that leaves nothing to prune is announced. -/
theorem snapshotGuestScheduled_clean (hquiet : env.Quiet) {now : Nat} {u : Unit}
    (hkeep : ∀ vm, b.state.node.store.get id = some vm → keepsAll b.state.node vm now = true)
    (hb : b.Clean) (h : snapshotGuestScheduled env id now b = (.ok u, b')) : b'.Clean := by
  obtain ⟨vm, m, hget, h⟩ := Proc.bind_ok h
  obtain ⟨_, m₁, hdemand, h⟩ := Proc.bind_ok h
  obtain ⟨_, m₂, htaken, h⟩ := Proc.bind_ok h
  obtain ⟨_, m₃, hnoted, hprune⟩ := Proc.bind_ok h
  have hstored := get_ok hquiet hget
  obtain ⟨-, rfl⟩ := demand_ok hdemand
  have hclean : m₃.Clean := by
    have hm := (still_get hquiet id).keeps b vm m₁ hb hget
    have htaken' := Proc.Keeps.each (fun v _ => keeps_snapshotOnce _ v) m₁ _ m₂ hm htaken
    exact keeps_noteRun hquiet now _ id m₂ _ m₃ htaken' hnoted
  have hgrows : Grows b.state.node (trimmed s!"sched-{now}") id (diskVolumes vm) m₃.state := by
    have hstart := Grows.start (t := trimmed s!"sched-{now}") hstored
    have hm := (upholds_get hquiet id).run hstart hget
    have htaken' := (Proc.Upholds.each (fun v _ => upholds_snapshotOnce v _)).run hm htaken
    exact (upholds_noteRun hquiet now).run htaken' hnoted
  have hkept := hkeep vm hstored
  simp only [keepsAll, Bool.or_eq_true, beq_iff_eq, decide_eq_true_eq] at hkept
  rw [ignore_ok hprune]
  exact prune_clean hquiet hgrows (fun hne => hkept.resolve_left hne) hclean

end

end Pertisk.Service
