import Mathlib.Data.List.Dedup
import Pertisk.Lib.Text
import Pertisk.Service.Scheduled

namespace Pertisk

def Node.snapshotsOf (n : Node) (v : VolumeId) : List VolumeSnapshot :=
  ((n.getVolume v).map VolumeRecord.snapshots).getD []

/-- The volumes of a guest that is in the store. -/
def Node.disksOf (n : Node) (id : VmId) : List VolumeId :=
  ((n.store.get id).map Service.diskVolumes).getD []

namespace Service
open Lib Op Volume

/-- When a snapshot of this name was taken last. -/
def lastTaken (snaps : List VolumeSnapshot) (name : String) : Nat :=
  ((snaps.filter (fun snap => snap.name == name)).map VolumeSnapshot.createdUnix).foldl max 0

/-- The newest of the points, as many as are kept: none that is left out is newer than they are. -/
structure Newest (points : List VolumeSnapshot) (keep : Nat) (kept : List String) : Prop where
  nodup : kept.Nodup
  among : ∀ name ∈ kept, ∃ snap ∈ points, snap.name = name
  many : kept.length = min keep (points.map VolumeSnapshot.name).dedup.length
  newest : ∀ name ∈ kept, ∀ snap ∈ points, snap.name ∉ kept →
    snap.createdUnix ≤ lastTaken points name

section order

theorem lastTaken_concat (snaps : List VolumeSnapshot) (snap : VolumeSnapshot) (name : String) :
    lastTaken (snaps ++ [snap]) name =
      if snap.name = name then max (lastTaken snaps name) snap.createdUnix
      else lastTaken snaps name := by
  unfold lastTaken
  rw [List.filter_append]
  by_cases h : snap.name = name
  · rw [if_pos h, List.filter_cons_of_pos (by rw [beq_iff_eq]; exact h)]
    simp only [List.filter_nil, List.map_append, List.map_cons, List.map_nil, List.foldl_append,
      List.foldl_cons, List.foldl_nil]
  · rw [if_neg h, List.filter_cons_of_neg (by rw [beq_iff_eq]; exact h)]
    simp only [List.filter_nil, List.append_nil]

theorem le_lastTaken {snaps : List VolumeSnapshot} {snap : VolumeSnapshot} (h : snap ∈ snaps) :
    snap.createdUnix ≤ lastTaken snaps snap.name := by
  induction snaps using List.reverseRecOn with
  | nil => cases h
  | append_singleton snaps last ih =>
    rw [lastTaken_concat]
    rcases List.mem_append.mp h with hold | hnew
    · have hle := ih hold
      split
      · exact hle.trans (Nat.le_max_left _ _)
      · exact hle
    · cases List.mem_singleton.mp hnew
      rw [if_pos rfl]
      exact Nat.le_max_right _ _

theorem lastTaken_eq_zero {snaps : List VolumeSnapshot} {name : String}
    (h : ∀ snap ∈ snaps, snap.name ≠ name) : lastTaken snaps name = 0 := by
  unfold lastTaken
  rw [List.filter_eq_nil_iff.mpr (fun snap hsnap => by rw [beq_iff_eq]; exact h snap hsnap)]
  rfl

/-- Each name is collected with its last time. -/
theorem addName_time (snaps : List VolumeSnapshot) :
    ∀ e ∈ snaps.foldl addName [], e.2 = lastTaken snaps e.1 := by
  induction snaps using List.reverseRecOn with
  | nil =>
    intro e he
    cases he
  | append_singleton snaps snap ih =>
    intro e he
    rw [List.foldl_append, List.foldl_cons, List.foldl_nil] at he
    rw [lastTaken_concat]
    unfold addName at he
    split at he
    · obtain ⟨old, hold, rfl⟩ := List.mem_map.mp he
      have htime := ih old hold
      by_cases hname : old.1 = snap.name
      · simp only [if_pos hname, if_pos hname.symm, htime]
      · simp only [if_neg hname, if_neg (Ne.symm hname), htime]
    · rename_i hnew
      rcases List.mem_append.mp he with hold | hsnap
      · have hne : snap.name ≠ e.1 := by
          intro hname
          exact hnew (List.any_eq_true.mpr ⟨e, hold, beq_iff_eq.mpr hname.symm⟩)
        rw [if_neg hne, ih e hold]
      · cases List.mem_singleton.mp hsnap
        have hnone : ∀ other ∈ snaps, other.name ≠ snap.name := by
          intro other hother hname
          have hmem : snap.name ∈ (snaps.foldl addName []).map Prod.fst :=
            (mem_foldl_addName snaps []).mpr (.inr ⟨other, hother, hname⟩)
          obtain ⟨e, he, hfst⟩ := List.mem_map.mp hmem
          exact hnew (List.any_eq_true.mpr ⟨e, he, beq_iff_eq.mpr hfst⟩)
        rw [if_pos rfl, lastTaken_eq_zero hnone, Nat.zero_max]

/-- The later time comes first, and of one time the greater name. -/
def later (a b : String × Nat) : Bool :=
  decide (b.2 < a.2) || (a.2 == b.2 && decide (b.1 ≤ a.1))

theorem later_iff {a b : String × Nat} : later a b = true ↔ b.2 < a.2 ∨ a.2 = b.2 ∧ b.1 ≤ a.1 := by
  simp only [later, Bool.or_eq_true, decide_eq_true_eq, Bool.and_eq_true, beq_iff_eq]

theorem later_trans (a b c : String × Nat) (hab : later a b = true) (hbc : later b c = true) :
    later a c = true := by
  rw [later_iff] at *
  rcases hab with hab | ⟨hab, hname⟩
  · refine .inl ?_
    rcases hbc with hbc | ⟨hbc, -⟩
    · exact hbc.trans hab
    · exact hbc ▸ hab
  · rcases hbc with hbc | ⟨hbc, hname'⟩
    · exact .inl (hab ▸ hbc)
    · exact .inr ⟨hab.trans hbc, String.le_trans hname' hname⟩

theorem later_total (a b : String × Nat) : (later a b || later b a) = true := by
  rw [Bool.or_eq_true, later_iff, later_iff]
  rcases Nat.lt_trichotomy a.2 b.2 with hlt | heq | hlt
  · exact .inr (.inl hlt)
  · rcases String.le_total b.1 a.1 with hname | hname
    · exact .inl (.inr ⟨heq, hname⟩)
    · exact .inr (.inr ⟨heq.symm, hname⟩)
  · exact .inl (.inl hlt)

/-- The snapshots that pruning takes for the scheduler's. -/
def scheduledOf (records : List VolumeRecord) : List VolumeSnapshot :=
  (records.flatMap VolumeRecord.snapshots).filter (fun snap => snap.name.startsWith "sched-")

variable {records : List VolumeRecord} {name other : String} {keep : Nat}

theorem mem_scheduledNames_iff :
    name ∈ scheduledNames records ↔ ∃ snap ∈ scheduledOf records, snap.name = name := by
  rw [scheduledNames, ((List.mergeSort_perm _ _).map _).mem_iff, mem_foldl_addName]
  simp only [List.map_nil, List.not_mem_nil, false_or, scheduledOf]

/-- No name behind another one has a later time. -/
theorem lastTaken_le_of_drop (hname : name ∈ (scheduledNames records).take keep)
    (hother : other ∈ (scheduledNames records).drop keep) :
    lastTaken (scheduledOf records) other ≤ lastTaken (scheduledOf records) name := by
  have htime : ∀ e ∈ ((scheduledOf records).foldl addName []).mergeSort later,
      e.2 = lastTaken (scheduledOf records) e.1 := fun e he =>
    addName_time _ e (List.mem_mergeSort.mp he)
  have hsorted := List.pairwise_mergeSort later_trans later_total
    ((scheduledOf records).foldl addName [])
  rw [← List.take_append_drop keep (((scheduledOf records).foldl addName []).mergeSort later)]
    at hsorted
  have hnames : scheduledNames records =
      (((scheduledOf records).foldl addName []).mergeSort later).map Prod.fst := rfl
  rw [hnames, ← List.map_take] at hname
  rw [hnames, ← List.map_drop] at hother
  obtain ⟨e, he, rfl⟩ := List.mem_map.mp hname
  obtain ⟨e', he', rfl⟩ := List.mem_map.mp hother
  have hle := later_iff.mp ((List.pairwise_append.mp hsorted).2.2 e he e' he')
  rw [← htime e (List.mem_of_mem_take he), ← htime e' (List.mem_of_mem_drop he')]
  omega

theorem length_scheduledNames : (scheduledNames records).length =
    ((scheduledOf records).map VolumeSnapshot.name).dedup.length := by
  refine ((List.perm_ext_iff_of_nodup (scheduledNames_nodup _) (List.nodup_dedup _)).mpr
    (fun name => ?_)).length_eq
  rw [mem_scheduledNames_iff, List.mem_dedup, List.mem_map]

theorem newest_take (records : List VolumeRecord) (keep : Nat) :
    Newest (scheduledOf records) keep ((scheduledNames records).take keep) where
  nodup := (scheduledNames_nodup records).sublist (List.take_sublist _ _)
  among name hname := mem_scheduledNames_iff.mp (List.mem_of_mem_take hname)
  many := by rw [List.length_take, length_scheduledNames]
  newest name hname snap hsnap hleft := by
    refine (le_lastTaken hsnap).trans (lastTaken_le_of_drop hname ?_)
    have hmem : snap.name ∈ scheduledNames records := mem_scheduledNames_iff.mpr ⟨snap, hsnap, rfl⟩
    rw [← List.take_append_drop keep (scheduledNames records)] at hmem
    exact (List.mem_append.mp hmem).resolve_left hleft

end order

section deletes

/-- Every volume's snapshots are as `Q` has them. -/
def Snapshots (Q : VolumeId → List VolumeSnapshot → Prop) (book : Book) : Prop :=
  ∀ v, Q v (book.node.snapshotsOf v)

/-- QEMU takes out all snapshots of a name, the pool the first one. -/
def less (done : Bool) (name : String) (snaps : List VolumeSnapshot) : List VolumeSnapshot :=
  if done then snaps.filter (fun snap => snap.name != name)
  else snaps.eraseP (fun snap => snap.name == name)

variable {env : Env} {Q : VolumeId → List VolumeSnapshot → Prop} {b b' : Noted Book.generation}
  {v : VolumeId} {id : VmId} {name : String} {snaps : List VolumeSnapshot} {done : Bool}

theorem less_sublist : (less done name snaps).Sublist snaps := by
  unfold less
  split
  · exact List.filter_sublist
  · exact List.eraseP_sublist

theorem mem_less_of_ne {snap : VolumeSnapshot} (hsnap : snap ∈ snaps) (hname : snap.name ≠ name) :
    snap ∈ less done name snaps := by
  unfold less
  split
  · exact List.mem_filter.mpr ⟨hsnap, bne_iff_ne.mpr hname⟩
  · exact (List.mem_eraseP_of_neg (by rw [beq_iff_eq]; exact hname)).mpr hsnap

/-- Where a volume has each name once, none of this name is left. -/
theorem name_ne_of_mem_less (hnodup : (snaps.map VolumeSnapshot.name).Nodup) :
    ∀ snap ∈ less done name snaps, snap.name ≠ name := by
  unfold less
  split
  · exact fun snap hsnap => bne_iff_ne.mp (List.mem_filter.mp hsnap).2
  · intro snap hsnap
    induction snaps with
    | nil => cases hsnap
    | cons first rest ih =>
      obtain ⟨hfirst, hrest⟩ := List.nodup_cons.mp hnodup
      by_cases hname : first.name = name
      · rw [List.eraseP_cons_of_pos (by rw [beq_iff_eq]; exact hname)] at hsnap
        rintro rfl
        exact hfirst (hname ▸ List.mem_map_of_mem hsnap)
      · rw [List.eraseP_cons_of_neg (by rw [beq_iff_eq]; exact hname)] at hsnap
        rcases List.mem_cons.mp hsnap with rfl | hsnap
        · exact hname
        · exact ih hrest hsnap

theorem snapshotsOf_of_get {n : Node} {record : VolumeRecord} (h : n.getVolume v = some record) :
    n.snapshotsOf v = record.snapshots := by
  unfold Node.snapshotsOf
  rw [h]
  rfl

theorem snapshotsOf_putRecord (n : Node) (record : VolumeRecord) (w : VolumeId) :
    (n.putRecord record).snapshotsOf w =
      if record.id = w then record.snapshots else n.snapshotsOf w := by
  unfold Node.snapshotsOf
  rw [Node.getVolume_putRecord]
  split
  · rw [Option.map_some, Option.getD_some]
    unfold VolumeRecord.localize
    split <;> rfl
  · rfl

theorem snapshots_putRecord {record : VolumeRecord} (h : Q record.id record.snapshots) :
    Proc.Upholds (Snapshots Q) (putRecord record) := by
  refine Proc.Upholds.bind (.alter (fun book hbook w => ?_)) (fun _ => .pure _)
  rw [snapshotsOf_putRecord]
  split
  · rename_i hid
    exact hid ▸ h
  · exact hbook w

theorem snapshots_getVolume (w : VolumeId) : Proc.Upholds (Snapshots Q) (getVolume w) := by
  refine Proc.Upholds.bind (.look (fun _ h => h)) (fun n => ?_)
  split
  · exact .pure _
  · exact .check _

theorem snapshots_ask : Proc.Upholds (Snapshots Q) (ask env) := .look (fun _ h => h)

theorem gives_getVolume (w : VolumeId) : Proc.Gives (Snapshots Q)
    (fun record => record.id = w ∧ Q w record.snapshots) (getVolume w) := by
  intro m record m' hm h
  obtain ⟨-, hget⟩ := getVolume_ok h
  exact ⟨Node.getVolume_id m.state.node hget, snapshotsOf_of_get hget ▸ hm w⟩

/-- What losing the name leaves to a volume goes on to hold when the snapshot is dropped. -/
theorem snapshots_dropSnapshot {live : Bool}
    (hless : ∀ done snaps, Q v snaps → Q v (less done (trimmed name) snaps)) :
    Proc.Upholds (Snapshots Q) (dropSnapshot env live v name) := by
  refine snapshots_ask.bind (fun o => ?_)
  refine (snapshots_getVolume v).bind_of (gives_getVolume v) (fun record hrecord => ?_)
  obtain ⟨rfl, hsnaps⟩ := hrecord
  refine Proc.Upholds.bind (.check _) (fun _ => snapshots_ask.bind (fun o' => ?_))
  refine Proc.Upholds.bind (.look (fun _ h => h)) (fun n => ?_)
  refine Proc.Upholds.bind ?_ (fun _ => snapshots_putRecord (hless _ _ hsnaps))
  unfold onlyIf
  split
  · exact snapshots_ask.bind (fun _ => .check _)
  · exact .pure _

theorem dropSnapshot_ok {live : Bool} {record : VolumeRecord}
    (h : dropSnapshot env live v name b = (.ok record, b')) :
    ∃ done, b'.state.node.snapshotsOf v =
      less done (trimmed name) (b.state.node.snapshotsOf v) := by
  obtain ⟨o, m, hask, h⟩ := Proc.bind_ok h
  cases hask
  obtain ⟨found, m, hget, h⟩ := Proc.bind_ok h
  obtain ⟨rfl, hstored⟩ := getVolume_ok hget
  obtain ⟨u, m, hcheck, h⟩ := Proc.bind_ok h
  obtain ⟨-, rfl⟩ := check_ok hcheck
  obtain ⟨o', m, hask, h⟩ := Proc.bind_ok h
  cases hask
  obtain ⟨n, m, hnode, h⟩ := Proc.bind_ok h
  cases hnode
  obtain ⟨u, m, hrun, h⟩ := Proc.bind_ok h
  have hkept : m.state.node = b.state.node := by
    unfold onlyIf at hrun
    split at hrun
    · obtain ⟨o, m, hask, hrun⟩ := Proc.bind_ok hrun
      cases hask
      obtain ⟨-, rfl⟩ := check_ok hrun
      rfl
    · cases hrun
      rfl
  obtain ⟨u, m', hput, h⟩ := Proc.bind_ok h
  cases hput
  cases h
  have hid : found.id = v := Node.getVolume_id b.state.node hstored
  refine ⟨live && (env.answers b.state.asked).ran.toOption.isSome, ?_⟩
  rw [snapshotsOf_of_get (n := b.state.node) hstored]
  exact (snapshotsOf_putRecord m.state.node _ v).trans (if_pos hid)

theorem snapshots_deleteNamedSnapshot {vm : VmRecord}
    (hless : ∀ v ∈ diskVolumes vm, ∀ done snaps, Q v snaps → Q v (less done (trimmed name) snaps)) :
    Proc.Upholds (Snapshots Q) (deleteNamedSnapshot env vm name) := by
  refine .each (fun v hv => (snapshots_getVolume v).bind (fun record => ?_))
  split
  · exact (snapshots_dropSnapshot (hless v hv)).bind (fun _ => .pure _)
  · exact .pure _

/-- No volume has a name twice. -/
def Apart (_ : VolumeId) (snaps : List VolumeSnapshot) : Prop :=
  (snaps.map VolumeSnapshot.name).Nodup

theorem Apart.less (h : Apart v snaps) : Apart v (less done name snaps) :=
  List.Nodup.sublist (less_sublist.map _) h

/-- Every edit that passed its check leaves a volume so. -/
theorem apart_write {e : Edit} {tools : Tools} {record : VolumeRecord}
    (hcheck : e.check record = .ok ()) (h : Apart v record.snapshots) :
    Apart v (e.write tools record).snapshots := by
  cases e with
  | snapshot name notes now live =>
    have hnew : record.hasSnapshot (trimmed name) = false := by
      simp only [Edit.check] at hcheck
      split at hcheck
      · cases hcheck
      · split at hcheck
        · cases hcheck
        · rename_i hnew
          exact Bool.eq_false_iff.mpr hnew
    simp only [Apart, Edit.write, List.map_append, List.map_cons, List.map_nil]
    refine List.nodup_append.mpr ⟨h, List.pairwise_singleton _ _, fun old hold new hmem heq => ?_⟩
    obtain ⟨snap, hsnap, rfl⟩ := List.mem_map.mp hold
    rw [List.mem_singleton] at hmem
    have hany : record.hasSnapshot (trimmed name) = true :=
      List.any_eq_true.mpr ⟨snap, hsnap, beq_iff_eq.mpr (heq.trans hmem)⟩
    rw [hnew] at hany
    cases hany
  | setSnapshotNotes name notes =>
    have hnames : ∀ snaps : List VolumeSnapshot,
        (noteSnapshot (trimmed name) (cleaned (some notes)) snaps).map VolumeSnapshot.name =
          snaps.map VolumeSnapshot.name := by
      intro snaps
      induction snaps with
      | nil => rfl
      | cons snap snaps ih =>
        unfold noteSnapshot
        split
        · rfl
        · rw [List.map_cons, List.map_cons, ih]
    simp only [Apart, Edit.write, hnames]
    exact h
  | deleteSnapshot name live => exact Apart.less h
  | ensureOn dest =>
    simp only [Edit.write, joined]
    split
    · exact h
    · exact h
  | pullMissing =>
    simp only [Edit.write, joined]
    split
    · exact h
    · exact h
  | resize sizeBytes => exact h
  | rename name => exact h
  | setNotes notes => exact h
  | rebuild online => exact h
  | ensureLocal => exact h
  | writeBlob len => exact h

/-- A volume does not have the snapshot. -/
def Without (v : VolumeId) (name : String) (w : VolumeId) (snaps : List VolumeSnapshot) : Prop :=
  w = v → ∀ snap ∈ snaps, snap.name ≠ name

theorem Without.less {w : VolumeId} {other : String} (h : Without v name w snaps) :
    Without v name w (less done other snaps) :=
  fun hw snap hsnap => h hw snap (less_sublist.mem hsnap)

theorem deleteNamedSnapshot_ok {vm : VmRecord} (hname : trimmed name = name)
    (hapart : Snapshots Apart b.state)
    (h : deleteNamedSnapshot env vm name b = (.ok (), b')) :
    ∀ v ∈ diskVolumes vm, ∀ snap ∈ b'.state.node.snapshotsOf v, snap.name ≠ name := by
  have hupholds : ∀ {Q : VolumeId → List VolumeSnapshot → Prop} (v : VolumeId),
      (∀ w done snaps, Q w snaps → Q w (less done (trimmed name) snaps)) →
      Proc.Upholds (Snapshots Q) (getVolume v >>= fun record =>
        if record.hasSnapshot name then do
          let live := vm.state == .running && liveQcow record name && hasDevice vm v
          let _ ← dropSnapshot env live v name
          pure ()
        else (pure () : Op Unit)) := by
    intro Q v hless
    refine (snapshots_getVolume v).bind (fun record => ?_)
    split
    · exact (snapshots_dropSnapshot (hless v)).bind (fun _ => .pure _)
    · exact .pure _
  refine fun v hv => Proc.each_ok (I := Snapshots Apart) (J := fun v => Snapshots (Without v name))
    (fun v _ => hupholds v (fun _ _ _ => Apart.less))
    (fun v _ w => hupholds v (fun _ _ _ => Without.less)) ?_ hapart h v hv v rfl
  intro v _ m m' hm hrun w hw
  subst hw
  dsimp only at hrun
  obtain ⟨record, m₁, hget, hrest⟩ := Proc.bind_ok hrun
  obtain ⟨rfl, hstored⟩ := getVolume_ok hget
  split at hrest
  · obtain ⟨record', m₂, hdrop, hend⟩ := Proc.bind_ok hrest
    cases hend
    obtain ⟨done, hless⟩ := dropSnapshot_ok hdrop
    rw [hless, hname]
    exact name_ne_of_mem_less (hm w)
  · rename_i hhas
    cases hrest
    rw [snapshotsOf_of_get hstored]
    intro snap hsnap heq
    exact hhas (List.any_eq_true.mpr ⟨snap, hsnap, beq_iff_eq.mpr heq⟩)

end deletes

section reads
variable {env : Env} {Q : VolumeId → List VolumeSnapshot → Prop} {b b' : Noted Book.generation}
  {id : VmId}

theorem snapshots_getVm : Proc.Upholds (Snapshots Q) (getVm id) := by
  refine Proc.Upholds.bind (.look (fun _ h => h)) (fun n => ?_)
  split
  · exact .pure _
  · exact .check _

theorem snapshots_get : Proc.Upholds (Snapshots Q) (get env id) := by
  refine snapshots_getVm.bind (fun vm => snapshots_ask.bind (fun o => ?_))
  split
  · exact .pure _
  · have hpersist (nets : List NetSpec) :
        Proc.Upholds (Snapshots Q) (persistObservedNicAddrs id nets) :=
      snapshots_getVm.bind (fun vm => Proc.Upholds.bind (.alter (fun _ h => h)) (fun _ => .pure _))
    refine (hpersist _).attempt.bind (fun latest => ?_)
    split
    · exact .pure _
    · exact .pure _

/-- Addresses that are seen leave the disks as they are. -/
theorem get_disks {vm : VmRecord} (h : get env id b = (.ok vm, b')) :
    diskVolumes vm = b.state.node.disksOf id := by
  obtain ⟨found, m, hfound, hrest⟩ := Proc.bind_ok h
  obtain ⟨rfl, hstored⟩ := getVm_ok hfound
  have hdisks : m.state.node.disksOf id = diskVolumes found := by
    unfold Node.disksOf
    rw [hstored]
    rfl
  obtain ⟨o, m₁, hask, hseen⟩ := Proc.bind_ok hrest
  have hnode : m₁.state.node = m.state.node := by
    cases hask
    rfl
  rw [hdisks]
  cases hnets : o.seen with
  | none =>
    simp only [hnets] at hseen
    cases hseen
    rfl
  | some nets =>
    simp only [hnets] at hseen
    obtain ⟨latest, m₂, hpersist, hend⟩ := Proc.bind_ok hseen
    have hrun : persistObservedNicAddrs id nets m₁ = (latest, m₂) := by
      cases hpersist
      rfl
    cases latest with
    | error e =>
      cases hend
      rfl
    | ok latest =>
      cases hend
      obtain ⟨again, m₃, hagain, hwrite⟩ := Proc.bind_ok hrun
      obtain ⟨-, hsame⟩ := getVm_ok hagain
      obtain ⟨u, m₄, hupsert, hpure⟩ := Proc.bind_ok hwrite
      cases hpure
      rw [hnode, hstored] at hsame
      cases hsame
      rfl

theorem snapshots_diskRecords (ids : List VolumeId) :
    Proc.Upholds (Snapshots Q) (diskRecords ids) := by
  induction ids with
  | nil => exact .pure _
  | cons v ids ih => exact (snapshots_getVolume v).bind (fun _ => ih.bind (fun _ => .pure _))

theorem diskRecords_eq {ids : List VolumeId} {records : List VolumeRecord}
    (h : diskRecords ids b = (.ok records, b')) :
    b' = b ∧ records = ids.filterMap b.state.node.getVolume := by
  induction ids generalizing records b' with
  | nil =>
    cases h
    exact ⟨rfl, rfl⟩
  | cons v ids ih =>
    obtain ⟨found, m, hget, hrest⟩ := Proc.bind_ok h
    obtain ⟨rfl, hstored⟩ := getVolume_ok hget
    obtain ⟨others, m', hothers, hpure⟩ := Proc.bind_ok hrest
    obtain ⟨rfl, rfl⟩ := ih hothers
    cases hpure
    rw [List.filterMap_cons_some hstored]
    exact ⟨rfl, rfl⟩

theorem flatMap_snapshots (n : Node) (ids : List VolumeId) :
    (ids.filterMap n.getVolume).flatMap VolumeRecord.snapshots = ids.flatMap n.snapshotsOf := by
  induction ids with
  | nil => rfl
  | cons v ids ih =>
    rw [List.flatMap_cons, List.filterMap_cons, ← ih]
    unfold Node.snapshotsOf
    cases n.getVolume v <;> rfl

end reads

/-- The scheduler names what it takes after the time, and no other snapshot's name begins so. -/
structure Told (taken : VolumeId → VolumeSnapshot → Bool) (n : Node) : Prop where
  named : ∀ v, ∀ snap ∈ n.snapshotsOf v, taken v snap = true → ∃ now : ℕ, snap.name = s!"sched-{now}"
  others : ∀ v, ∀ snap ∈ n.snapshotsOf v, taken v snap = false →
    snap.name.startsWith "sched-" = false

/-- The snapshots that the scheduler took of these volumes. -/
def pointsOf (taken : VolumeId → VolumeSnapshot → Bool) (n : Node) (ids : List VolumeId) :
    List VolumeSnapshot :=
  ids.flatMap (fun v => (n.snapshotsOf v).filter (taken v))

/-- Only points beyond those that are kept are lost. -/
structure Retains (taken : VolumeId → VolumeSnapshot → Bool) (ids : List VolumeId)
    (kept : List String) (n n' : Node) : Prop where
  fewer : ∀ v, (n'.snapshotsOf v).Sublist (n.snapshotsOf v)
  lost : ∀ v, ∀ snap ∈ n.snapshotsOf v, snap ∉ n'.snapshotsOf v →
    v ∈ ids ∧ taken v snap = true ∧ snap.name ∉ kept

/-- A volume lost nothing but snapshots of these names. -/
def Lost (n : Node) (ids : List VolumeId) (gone : List String) (v : VolumeId)
    (snaps : List VolumeSnapshot) : Prop :=
  snaps.Sublist (n.snapshotsOf v) ∧
    ∀ snap ∈ n.snapshotsOf v, snap ∉ snaps → v ∈ ids ∧ snap.name ∈ gone

section retained
variable {env : Env} {b b' : Noted Book.generation} {id : VmId} {keep : ℕ} {n : Node}
  {taken : VolumeId → VolumeSnapshot → Bool} {ids : List VolumeId} {gone : List String}
  {v : VolumeId} {name : String} {snaps : List VolumeSnapshot} {done : Bool}

theorem toList_sched (now : ℕ) :
    s!"sched-{now}".toList = "sched-".toList ++ (toString now).toList := by
  simp [toString, String.toList_append]

theorem trimmed_sched (now : ℕ) : trimmed s!"sched-{now}" = s!"sched-{now}" := by
  unfold trimmed
  rw [PeerUrl.trim_eq_self, String.ofList_toList]
  · rw [toList_sched]
    intro c hc
    cases hc
    rfl
  · rw [toList_sched, List.getLast?_append_of_ne_nil _ (toString_ne_nil now)]
    intro c hc
    exact PeerUrl.not_whiteSpace_of_isDigit
      (isDigit_of_mem_toString (List.mem_of_getLast? hc))

theorem Told.starts_iff (htold : Told taken n) {snap : VolumeSnapshot}
    (hsnap : snap ∈ n.snapshotsOf v) :
    snap.name.startsWith "sched-" = true ↔ taken v snap = true := by
  constructor
  · intro hstarts
    cases htaken : taken v snap with
    | true => rfl
    | false => exact absurd hstarts (by rw [htold.others v snap hsnap htaken]; exact nofun)
  · intro htaken
    obtain ⟨now, hname⟩ := htold.named v snap hsnap htaken
    rw [String.startsWith_string_iff, hname, toList_sched]
    exact List.prefix_append _ _

theorem Told.scheduledOf_eq (htold : Told taken n) {records : List VolumeRecord}
    (hrecords : records.flatMap VolumeRecord.snapshots = ids.flatMap n.snapshotsOf) :
    scheduledOf records = pointsOf taken n ids := by
  unfold scheduledOf pointsOf
  rw [hrecords, List.filter_flatMap]
  refine congrArg List.flatten (List.map_congr_left (fun v _ => List.filter_congr ?_))
  intro snap hsnap
  rw [Bool.eq_iff_iff]
  exact htold.starts_iff hsnap

theorem Told.trimmed_eq (htold : Told taken n) {snap : VolumeSnapshot}
    (hsnap : snap ∈ pointsOf taken n ids) : trimmed snap.name = snap.name := by
  obtain ⟨v, -, hmem⟩ := List.mem_flatMap.mp hsnap
  obtain ⟨hsnap, htaken⟩ := List.mem_filter.mp hmem
  obtain ⟨now, hname⟩ := htold.named v snap hsnap htaken
  rw [hname, trimmed_sched]

theorem Lost.less (h : Lost n ids gone v snaps) (hv : v ∈ ids) (hname : name ∈ gone) :
    Lost n ids gone v (less done name snaps) := by
  refine ⟨less_sublist.trans h.1, fun snap hsnap hleft => ?_⟩
  by_cases hin : snap ∈ snaps
  · by_cases heq : snap.name = name
    · exact ⟨hv, heq ▸ hname⟩
    · exact absurd (mem_less_of_ne hin heq) hleft
  · exact h.2 snap hsnap hin

/-- What the deletions of a run of names leave. -/
theorem deleteNames_lost {vm : VmRecord} {r : Except DaemonError Unit}
    (htrimmed : ∀ name ∈ gone, trimmed name = name)
    (h : each gone (deleteNamedSnapshot env vm) b = (r, b')) :
    Snapshots (Lost b.state.node (diskVolumes vm) gone) b'.state := by
  have hstart : Snapshots (Lost b.state.node (diskVolumes vm) gone) b.state :=
    fun v => ⟨.refl _, fun snap hsnap hleft => absurd hsnap hleft⟩
  refine Proc.Upholds.run (.each (fun name hname => ?_)) hstart h
  refine snapshots_deleteNamedSnapshot (fun v hv done snaps hsnaps => ?_)
  rw [htrimmed name hname]
  exact hsnaps.less hv hname

theorem deleteNames_ok {vm : VmRecord} (htrimmed : ∀ name ∈ gone, trimmed name = name)
    (hapart : Snapshots Apart b.state)
    (h : each gone (deleteNamedSnapshot env vm) b = (.ok (), b')) :
    ∀ name ∈ gone, ∀ v ∈ diskVolumes vm, ∀ snap ∈ b'.state.node.snapshotsOf v,
      snap.name ≠ name := by
  have hrun := Proc.each_ok (I := Snapshots Apart)
    (J := fun name => Snapshots (fun v snaps => v ∈ diskVolumes vm →
      ∀ snap ∈ snaps, snap.name ≠ name))
    (fun _ _ => snapshots_deleteNamedSnapshot (fun _ _ _ _ => Apart.less))
    (fun _ _ _ => snapshots_deleteNamedSnapshot
      (fun _ _ _ _ hsnaps hv snap hsnap => hsnaps hv snap (less_sublist.mem hsnap)))
    (fun name hname _ _ hm hdelete v hv =>
      deleteNamedSnapshot_ok (htrimmed name hname) hm hdelete v hv) hapart h
  exact fun name hname v hv => hrun name hname v hv

/-- The names that pruning keeps are the newest points; only others are lost, and where it ends
well no other is left. -/
theorem pruneScheduledSnapshots_retains {r : Except DaemonError Unit}
    (htold : Told taken b.state.node) (hapart : Snapshots Apart b.state)
    (h : pruneScheduledSnapshots env id keep b = (r, b')) :
    (keep = 0 → ∀ v, b'.state.node.snapshotsOf v = b.state.node.snapshotsOf v) ∧
    (keep ≠ 0 → ∃ kept,
      Newest (pointsOf taken b.state.node (b.state.node.disksOf id)) keep kept ∧
      Retains taken (b.state.node.disksOf id) kept b.state.node b'.state.node ∧
      (r = .ok () → ∀ v ∈ b.state.node.disksOf id, ∀ snap ∈ b'.state.node.snapshotsOf v,
        taken v snap = true → snap.name ∈ kept)) := by
  unfold pruneScheduledSnapshots at h
  refine ⟨fun hkeep v => ?_, fun hkeep => ?_⟩
  · rw [if_pos hkeep] at h
    cases h
    rfl
  rw [if_neg hkeep, Proc.bind_run] at h
  let ids := b.state.node.disksOf id
  let records := ids.filterMap b.state.node.getVolume
  have hpoints : scheduledOf records = pointsOf taken b.state.node ids :=
    htold.scheduledOf_eq (flatMap_snapshots _ _)
  have hnewest := newest_take records keep
  rw [hpoints] at hnewest
  refine ⟨_, hnewest, ?_⟩
  -- Up to the first deletion every volume has its snapshots.
  have hstart : Snapshots (fun v snaps => snaps = b.state.node.snapshotsOf v) b.state := fun _ => rfl
  have hnone : ∀ m : Noted Book.generation,
      Snapshots (fun v snaps => snaps = b.state.node.snapshotsOf v) m.state →
      Retains taken ids ((scheduledNames records).take keep) b.state.node m.state.node :=
    fun m hm => ⟨fun v => (hm v).symm ▸ .refl _, fun v snap hsnap hleft =>
      absurd ((hm v).symm ▸ hsnap) hleft⟩
  rcases hvm : get env id b with ⟨vm, m⟩
  have hm := snapshots_get.run hstart hvm
  rw [hvm] at h
  cases vm with
  | error e =>
    cases h
    exact ⟨hnone _ hm, nofun⟩
  | ok vm =>
    have hdisks := get_disks hvm
    dsimp only at h
    rw [Proc.bind_run] at h
    rcases hread : diskRecords (diskVolumes vm) m with ⟨found, m'⟩
    have hm' := (snapshots_diskRecords _).run hm hread
    rw [hread] at h
    cases found with
    | error e =>
      cases h
      exact ⟨hnone _ hm', nofun⟩
    | ok found =>
      obtain ⟨rfl, rfl⟩ := diskRecords_eq hread
      have hsame : m'.state.node.snapshotsOf = b.state.node.snapshotsOf := funext hm
      have hnames : scheduledNames ((diskVolumes vm).filterMap m'.state.node.getVolume) =
          scheduledNames records := by
        unfold scheduledNames
        rw [flatMap_snapshots, flatMap_snapshots, hsame, hdisks]
      dsimp only at h
      rw [hnames] at h
      have hmem : ∀ name ∈ (scheduledNames records).drop keep,
          ∃ snap ∈ pointsOf taken b.state.node ids, snap.name = name := fun name hname =>
        hpoints ▸ mem_scheduledNames_iff.mp (List.mem_of_mem_drop hname)
      have htrimmed : ∀ name ∈ (scheduledNames records).drop keep, trimmed name = name := by
        intro name hname
        obtain ⟨snap, hsnap, rfl⟩ := hmem name hname
        exact htold.trimmed_eq hsnap
      have hlost := deleteNames_lost htrimmed h
      have hfewer : ∀ v, (b'.state.node.snapshotsOf v).Sublist (b.state.node.snapshotsOf v) :=
        fun v => hsame ▸ (hlost v).1
      refine ⟨⟨hfewer, fun v snap hsnap hleft => ?_⟩, fun hr v hv snap hsnap htaken => ?_⟩
      · obtain ⟨hv, hname⟩ := (hlost v).2 snap (hsame ▸ hsnap) hleft
        refine ⟨hdisks ▸ hv, ?_, fun hkept => ?_⟩
        · obtain ⟨point, hpoint, hname'⟩ := hmem _ hname
          obtain ⟨w, -, hpoint⟩ := List.mem_flatMap.mp hpoint
          obtain ⟨hpoint, htaken⟩ := List.mem_filter.mp hpoint
          rw [← htold.starts_iff hsnap, ← hname']
          exact (htold.starts_iff hpoint).mpr htaken
        · exact List.disjoint_take_drop (scheduledNames_nodup records) (Nat.le_refl keep) hkept hname
      · subst hr
        have hall := deleteNames_ok htrimmed (fun w => by rw [hsame]; exact hapart w) h
        have hpoint : snap ∈ pointsOf taken b.state.node ids :=
          List.mem_flatMap.mpr ⟨v, hv, List.mem_filter.mpr ⟨(hfewer v).mem hsnap, htaken⟩⟩
        have hin : snap.name ∈ scheduledNames records :=
          mem_scheduledNames_iff.mpr ⟨snap, hpoints ▸ hpoint, rfl⟩
        rw [← List.take_append_drop keep (scheduledNames records)] at hin
        refine (List.mem_append.mp hin).resolve_right (fun hdrop => ?_)
        exact hall _ hdrop v (hdisks.symm ▸ hv) snap hsnap rfl

end retained

section runs

/-- The scheduler's snapshots of two turns, and one that the operator took and named. -/
def snapshotted (operators : String) : VolumeRecord where
  id := 7
  name := "root"
  format := .raw
  sizeBytes := 1
  path := .text "root"
  snapshots := [{ name := "sched-200", createdUnix := 200 },
    { name := "sched-100", createdUnix := 100 }, { name := operators, createdUnix := 50 }]

def snapshottedGuest : VmRecord where
  id := .numeric 100
  spec := { name := "vm", disks := [{ path := .text "root", volumeId := some 7 }] }
  state := .stopped
  nodeId := some 1

def snapshottedBook (operators : String) : Noted Book.generation :=
  .ofState { node := ((Node.fresh 1).putRecord (snapshotted operators)).upsertVm snapshottedGuest }

def takenAt (_ : VolumeId) (snap : VolumeSnapshot) : Bool :=
  snap.name == s!"sched-{snap.createdUnix}"

def plainEnv : Env where
  answers _ := {}

theorem snapshotsOf_book (operators : String) (v : VolumeId) :
    (snapshottedBook operators).state.node.snapshotsOf v =
      if 7 = v then (snapshotted operators).snapshots else [] :=
  snapshotsOf_putRecord (Node.fresh 1) (snapshotted operators) v

theorem apart_book {operators : String} (h : operators ≠ "sched-200" ∧ operators ≠ "sched-100") :
    Snapshots Apart (snapshottedBook operators).state := by
  intro v
  rw [snapshotsOf_book]
  split
  · simp [Apart, snapshotted, h.1.symm, h.2.symm]
  · exact List.nodup_nil

theorem told_book : Told takenAt (snapshottedBook "upgrade").state.node where
  named v snap hsnap htaken := ⟨snap.createdUnix, beq_iff_eq.mp htaken⟩
  others v snap hsnap htaken := by
    rw [snapshotsOf_book] at hsnap
    split at hsnap
    · simp only [snapshotted, List.mem_cons, List.not_mem_nil, or_false] at hsnap
      rcases hsnap with rfl | rfl | rfl
      · exact absurd (show takenAt 7 _ = false from htaken) (by decide)
      · exact absurd (show takenAt 7 _ = false from htaken) (by decide)
      · rw [String.startsWith_string_eq_false_iff]
        decide
    · cases hsnap

/-- One point is kept of the two, and the operator's snapshot stays. -/
theorem prune_upgrade : ∃ kept,
    Newest (pointsOf takenAt (snapshottedBook "upgrade").state.node
      ((snapshottedBook "upgrade").state.node.disksOf (.numeric 100))) 1 kept ∧
    Retains takenAt ((snapshottedBook "upgrade").state.node.disksOf (.numeric 100)) kept
      (snapshottedBook "upgrade").state.node
      (pruneScheduledSnapshots plainEnv (.numeric 100) 1 (snapshottedBook "upgrade")).2.state.node :=
  have hpruned := (pruneScheduledSnapshots_retains told_book (apart_book (by decide)) rfl).2
    Nat.one_ne_zero
  ⟨_, hpruned.choose_spec.1, hpruned.choose_spec.2.1⟩

theorem scheduledNames_book : scheduledNames [snapshotted "sched-before-upgrade"] =
    ["sched-200", "sched-100", "sched-before-upgrade"] := by
  have hstarts : ([snapshotted "sched-before-upgrade"].flatMap VolumeRecord.snapshots).filter
      (fun snap => snap.name.startsWith "sched-") =
        (snapshotted "sched-before-upgrade").snapshots := by
    rw [List.flatMap_singleton]
    refine List.filter_eq_self.mpr (fun snap hsnap => String.startsWith_string_iff.mpr ?_)
    simp only [snapshotted, List.mem_cons, List.not_mem_nil, or_false] at hsnap
    rcases hsnap with rfl | rfl | rfl <;> decide
  have hsorted : [("sched-200", 200), ("sched-100", 100), ("sched-before-upgrade", 50)].Pairwise
      (fun a b => later a b) := by
    simp [later]
  unfold scheduledNames
  rw [hstarts]
  exact congrArg (List.map Prod.fst) (List.mergeSort_of_pairwise hsorted)

/-- The operator's snapshot is taken for a scheduled one and deleted; with zero nothing is. -/
theorem operators_pruned :
    (∃ snap, snap ∈ (snapshottedBook "sched-before-upgrade").state.node.snapshotsOf 7 ∧
      takenAt 7 snap = false ∧
      snap ∉ (pruneScheduledSnapshots plainEnv (.numeric 100) 2
        (snapshottedBook "sched-before-upgrade")).2.state.node.snapshotsOf 7) ∧
    ∃ snap ∈ (pruneScheduledSnapshots plainEnv (.numeric 100) 0
        (snapshottedBook "sched-before-upgrade")).2.state.node.snapshotsOf 7,
      takenAt 7 snap = true := by
  refine ⟨⟨{ name := "sched-before-upgrade", createdUnix := 50 }, by decide, by decide, ?_⟩,
    { name := "sched-200", createdUnix := 200 }, by decide, by decide⟩
  have hrun : (pruneScheduledSnapshots plainEnv (.numeric 100) 2
      (snapshottedBook "sched-before-upgrade")).2 =
      (each ((scheduledNames [snapshotted "sched-before-upgrade"]).drop 2)
        (deleteNamedSnapshot plainEnv snapshottedGuest)
        (ask plainEnv (snapshottedBook "sched-before-upgrade")).2).2 := rfl
  rw [hrun, scheduledNames_book]
  decide

end runs

end Service

end Pertisk
