import Pertisk.Volume.Named

namespace Pertisk.Volume
open Lib

namespace Snaps

variable {m : Meets} {w w' : Snaps} {n here : NodeId} {id x : VolumeId} {name y : String}
  {notes : Option String} {p : Spot} {record r : VolumeRecord} {vm : VmRecord} {vmId : VmId}

@[simp] theorem setNode_has (node : Node) : (w.setNode n node).has = w.has := rfl

@[simp] theorem bumpAndReplicate_has : (w.bumpAndReplicate n).has = w.has := by
  unfold bumpAndReplicate
  dsimp only
  generalize (w.setNode n (w.node n).bump).node n = sent
  generalize sent.replicateTo (w.setNode n (w.node n).bump).now = peers
  generalize hw : w.setNode n (w.node n).bump = w₁
  have hstart : w₁.has = w.has := by rw [← hw]; rfl
  clear hw
  induction peers generalizing w₁ with
  | nil => exact hstart
  | cons peer peers ih => exact ih _ hstart

section taking

/-- The snapshot has been taken of this disk, and of no other. -/
structure Took (w w' : Snaps) (id : VolumeId) (name : String) : Prop where
  others : ∀ p x y, x ≠ id → w'.has p x y = w.has p x y
  there : ∃ p, w'.has p id name = true

theorem took_mark (p : Spot) (h : w'.has = (w.mark p id name true).has) : Took w w' id name := by
  refine ⟨fun q x y hx => ?_, p, ?_⟩
  · rw [h]
    exact if_neg (fun hcond => hx hcond.2.1)
  · rw [h]
    exact if_pos ⟨rfl, rfl, rfl⟩

theorem spot_site {inside : Bool} :
    (spot record n inside).site = some n ∨ (spot record n inside).site = none := by
  show (if record.backend = .rbd then none else some n) = some n ∨ _ = none
  split
  · exact .inr (if_pos ‹_›)
  · exact .inl rfl

theorem poolSnapshot_took (h : w.poolSnapshot m n id name notes = (w', .ok r)) :
    r.id = id ∧ ∃ p, (p.site = some n ∨ p.site = none) ∧
      w'.has = (w.mark p id (trimmed name) true).has := by
  unfold poolSnapshot at h
  split at h
  · cases h
  · rename_i record hget
    dsimp only at h
    split at h
    · cases h
    · split at h
      · cases h
      · cases h
        have hid : record.id = id := Node.getVolume_id _ hget
        exact ⟨hid, _, spot_site, rfl⟩

theorem snapshotLive_took (h : w.snapshotLive m n vm id name notes = (w', .ok r)) :
    r.id = id ∧ Took w w' id (trimmed name) := by
  unfold snapshotLive at h
  split at h
  · cases h
  · rename_i record hget
    split at h
    · cases h
    · split at h
      · cases h
      · split at h
        · cases h
        · split at h
          · cases h
          · rename_i w₁ r₁ hpool
            cases h
            obtain ⟨hid, p, -, hhas⟩ := poolSnapshot_took hpool
            exact ⟨hid, took_mark p (bumpAndReplicate_has.trans hhas)⟩
        · split at h
          · cases h
          · dsimp only at h
            split at h
            · cases h
            · cases h
              have hid : record.id = id := Node.getVolume_id _ hget
              exact ⟨hid, took_mark (spot record n true) bumpAndReplicate_has⟩

theorem copy_others (replica : NodeId) (hx : x ≠ id) : (copy id n w replica).has p x y = w.has p x y :=
  if_neg (fun hcond => hx hcond.2)

/-- A replica that has a snapshot of the disk keeps it, or gets this node's image instead. -/
theorem synced_others (replicas : List NodeId) (hx : x ≠ id) :
    (replicas.foldl (copy id n) w).has p x y = w.has p x y := by
  induction replicas generalizing w with
  | nil => rfl
  | cons replica replicas ih => exact ih.trans (copy_others replica hx)

/-- The spot of this node's own disk is not that of a replica. -/
theorem synced_own {replicas : List NodeId} (hown : n ∉ replicas)
    (hp : p.site = some n ∨ p.site = none ∨ p.inside = false) :
    (replicas.foldl (copy id n) w).has p id y = w.has p id y := by
  induction replicas generalizing w with
  | nil => rfl
  | cons replica replicas ih =>
    refine (ih (fun hin => hown (List.mem_cons_of_mem _ hin))).trans (if_neg ?_)
    rintro ⟨rfl, -⟩
    rcases hp with hsite | hsite | hinside
    · cases hsite
      exact hown List.mem_cons_self
    · cases hsite
    · cases hinside

theorem own_synced : n ∉ w.synced m n record := by
  unfold synced
  split
  · exact List.not_mem_nil
  · intro hin
    have hcond := (List.mem_filter.mp hin).2
    simp at hcond

theorem snapshotForward_took {elsewhere : NodeId → Snaps × Except String VolumeRecord}
    (helse : ∀ owner w' r, elsewhere owner = (w', .ok r) → r.id = id ∧ Took w w' id (trimmed name))
    (h : w.snapshotForward m n id name notes elsewhere = (w', .ok r)) :
    r.id = id ∧ Took w w' id (trimmed name) := by
  unfold snapshotForward at h
  split at h
  · split at h
    · cases h
    · rename_i w₁ r₁ hpool
      cases h
      obtain ⟨hid, p, hsite, hhas⟩ := poolSnapshot_took hpool
      have hsynced : ((w₁.syncVolumeReplicas m n r).bumpAndReplicate n).has =
          (w₁.syncVolumeReplicas m n r).has := bumpAndReplicate_has
      refine ⟨hid, fun q x y hx => ?_, p, ?_⟩
      · rw [hsynced, syncVolumeReplicas, synced_others _ (by rw [hid]; exact hx), hhas]
        exact if_neg (fun hcond => hx hcond.2.1)
      · rw [hsynced, syncVolumeReplicas, hid, synced_own own_synced (hsite.imp_right .inl), hhas]
        exact if_pos ⟨rfl, rfl, rfl⟩
  · split at h
    · cases h
    · split at h
      · exact helse _ _ _ h
      · exact snapshotLive_took h
  · cases h

theorem snapshotVolume_took (h : w.snapshotVolume m n id name notes = (w', .ok r)) :
    r.id = id ∧ Took w w' id (trimmed name) := by
  refine snapshotForward_took (fun owner w' r h => ?_) h
  dsimp only at h
  split at h
  · cases h
  · rcases hthere : w.snapshotVolumeHere m owner id name notes with ⟨w₁, text | r₁⟩
    · rw [hthere] at h
      cases h
    · rw [hthere] at h
      cases h
      refine snapshotForward_took (fun _ _ _ h => ?_) hthere
      cases h

end taking

section clearing

/-- Where the pool of this node would remove the snapshot that its record lists. -/
def poolClears (w : Snaps) (n : NodeId) (id : VolumeId) (name : String) : Option Spot :=
  match (w.node n).getVolume id with
  | none => none
  | some record =>
    match record.snapshots.find? (fun snap => snap.name == name) with
    | none => none
    | some snap =>
      if record.backend.external || (snap.path.isNone && record.format == .qcow2) then
        if w.has (spot record n true) record.id name then some (spot record n true) else none
      else if snap.path.isSome then some ⟨false, some n⟩ else none

/-- Where `delete_volume_snapshot` on this node would remove the snapshot. -/
def clears (w : Snaps) (n : NodeId) (id : VolumeId) (name : String) : Option Spot :=
  if ((w.node n).cluster.quorumError w.now).isSome || name.isEmpty then none
  else
    match (w.node n).runningVolumeUsers id with
    | [] => w.poolClears n id name
    | vmId :: _ =>
      match (w.node n).store.get vmId, (w.node n).getVolume id with
      | some vm, some record =>
        if !record.hasSnapshot name then none
        else if w.deletesLive n vm record name then some (spot record n true)
        else w.poolClears n id name
      | _, _ => none

/-- The snapshot is removed at this spot, if there is one, and nothing else changes. -/
def Clears (w w' : Snaps) (id : VolumeId) (name : String) (cleared : Option Spot) : Prop :=
  ∀ p x y, w'.has p x y = true ↔
    w.has p x y = true ∧ ¬ (cleared = some p ∧ x = id ∧ y = name)

theorem clears_none (h : w'.has = w.has) : Clears w w' id name none := by
  intro p x y
  rw [h]
  exact ⟨fun hhas => ⟨hhas, fun hcond => by cases hcond.1⟩, And.left⟩

theorem clears_mark (h : w'.has = (w.mark p id name false).has) : Clears w w' id name (some p) := by
  intro q x y
  rw [h]
  show (if q = p ∧ x = id ∧ y = name then false else w.has q x y) = true ↔ _
  split
  · rename_i hcond
    obtain ⟨rfl, rfl, rfl⟩ := hcond
    refine iff_of_false Bool.false_ne_true (fun hhas => hhas.2 ⟨rfl, rfl, rfl⟩)
  · rename_i hcond
    refine ⟨fun hhas => ⟨hhas, ?_⟩, And.left⟩
    rintro ⟨hp, hrest⟩
    cases hp
    exact hcond ⟨rfl, hrest⟩

theorem poolDelete_clears (w : Snaps) (n : NodeId) (id : VolumeId) (name : String) :
    Clears w (w.poolDelete m n id name).1 id name (w.poolClears n id name) := by
  unfold poolDelete poolClears
  cases hget : (w.node n).getVolume id with
  | none => exact clears_none rfl
  | some record =>
    have hid : record.id = id := Node.getVolume_id _ hget
    dsimp only
    cases hfind : record.snapshots.find? (fun snap => snap.name == name) with
    | none => exact clears_none rfl
    | some snap =>
      dsimp only
      by_cases hin : (record.backend.external || (snap.path.isNone && record.format == .qcow2)) = true
      · rw [if_pos hin]
        by_cases hthere : w.has (spot record n true) record.id name = true
        · have hdiscard : w.discard n record snap name =
              some (w.mark (spot record n true) record.id name false) := by
            rw [discard, if_pos hin, if_pos hthere]
          rw [hdiscard, if_pos hthere]
          exact clears_mark (hid ▸ rfl)
        · have hdiscard : w.discard n record snap name = none := by
            rw [discard, if_pos hin, if_neg hthere]
          rw [hdiscard, if_neg hthere]
          exact clears_none rfl
      · rw [if_neg hin]
        by_cases hpath : snap.path.isSome = true
        · have hdiscard : w.discard n record snap name =
              some (w.mark ⟨false, some n⟩ record.id name false) := by
            rw [discard, if_neg hin, if_pos hpath]
          rw [hdiscard, if_pos hpath]
          exact clears_mark (hid ▸ rfl)
        · have hdiscard : w.discard n record snap name = some w := by
            rw [discard, if_neg hin, if_neg hpath]
          rw [hdiscard, if_neg hpath]
          exact clears_none rfl

theorem poolDelete_published (w : Snaps) (n : NodeId) (id : VolumeId) (name : String) :
    Clears w (match w.poolDelete m n id name with
      | (w, .error text) => (w, Except.error text)
      | (w, .ok record) => (w.bumpAndReplicate n, .ok record)).1 id name
      (w.poolClears n id name) := by
  have hclears := poolDelete_clears (m := m) w n id name
  rcases hdelete : w.poolDelete m n id name with ⟨w₁, text | record⟩
  · rw [hdelete] at hclears
    exact hclears
  · rw [hdelete] at hclears
    intro p x y
    dsimp only
    rw [bumpAndReplicate_has]
    exact hclears p x y

theorem deleteVolumeSnapshot_clears (w : Snaps) (n : NodeId) (id : VolumeId) (name : String) :
    Clears w (w.deleteVolumeSnapshot m n id name).1 id (trimmed name)
      (w.clears n id (trimmed name)) := by
  have hpool := poolDelete_published (m := m) w n id (trimmed name)
  unfold deleteVolumeSnapshot clears
  dsimp only
  cases hquorum : (w.node n).cluster.quorumError w.now with
  | some text => exact clears_none rfl
  | none =>
    dsimp only
    rw [Option.isSome_none, Bool.false_or]
    split
    · exact clears_none rfl
    · cases hrunning : (w.node n).runningVolumeUsers id with
      | nil => exact hpool
      | cons vmId others =>
        dsimp only
        cases hvm : (w.node n).store.get vmId with
        | none => exact clears_none rfl
        | some vm =>
          cases hget : (w.node n).getVolume id with
          | none => exact clears_none rfl
          | some record =>
            dsimp only
            split
            · exact clears_none rfl
            · split
              · exact clears_mark bumpAndReplicate_has
              · exact hpool

/-- The clean-up of these disks, one after another, removes the snapshot at the spot. -/
inductive Cleared (m : Meets) (here : NodeId) (name : String) :
    Snaps → List VolumeId → VolumeId → Spot → Prop
  | here {w : Snaps} {id : VolumeId} {rest : List VolumeId} {p : Spot} :
      w.clears here id name = some p → Cleared m here name w (id :: rest) id p
  | later {w : Snaps} {id x : VolumeId} {rest : List VolumeId} {p : Spot} :
      Cleared m here name (w.deleteVolumeSnapshot m here id name).1 rest x p →
        Cleared m here name w (id :: rest) x p

/-- The clean-up removes what it reaches, and nothing else of the disks changes. -/
theorem cleanUp_has (records : List VolumeRecord) (hname : trimmed name = name) :
    ((records.foldl (fun w record => (w.deleteVolumeSnapshot m here record.id name).1) w).has p x name
      = true) ↔ w.has p x name = true ∧
        ¬ Cleared m here name w (records.map VolumeRecord.id) x p := by
  induction records generalizing w with
  | nil => exact ⟨fun h => ⟨h, fun hc => nomatch hc⟩, And.left⟩
  | cons record records ih =>
    have hclears := deleteVolumeSnapshot_clears (m := m) w here record.id name
    rw [hname] at hclears
    rw [List.foldl_cons, ih, hclears p x name]
    constructor
    · rintro ⟨⟨hhas, hnot⟩, hrest⟩
      refine ⟨hhas, fun hc => ?_⟩
      cases hc with
      | here hspot => exact hnot ⟨hspot, rfl, rfl⟩
      | later hlater => exact hrest hlater
    · rintro ⟨hhas, hnot⟩
      refine ⟨⟨hhas, ?_⟩, fun hlater => hnot (.later hlater)⟩
      rintro ⟨hspot, rfl, -⟩
      exact hnot (.here hspot)

/-- The clean-up reaches this node's own disks and those of Ceph. -/
theorem poolClears_site (h : w.poolClears n id name = some p) : p.site = some n ∨ p.site = none := by
  unfold poolClears at h
  split at h
  · cases h
  · split at h
    · cases h
    · split at h
      · split at h
        · cases h
          exact spot_site
        · cases h
      · split at h
        · cases h
          exact .inl rfl
        · cases h

theorem clears_site (h : w.clears n id name = some p) : p.site = some n ∨ p.site = none := by
  unfold clears at h
  split at h
  · cases h
  · split at h
    · exact poolClears_site h
    · split at h
      · split at h
        · cases h
        · split at h
          · cases h
            exact spot_site
          · exact poolClears_site h
      · cases h

theorem Cleared.site {ids : List VolumeId} (h : Cleared m here name w ids x p) :
    p.site = some here ∨ p.site = none := by
  induction h with
  | here hspot => exact clears_site hspot
  | later _ ih => exact ih

end clearing

/-- The disks of the guest, one after another. -/
abbrev Takes (m : Meets) (here : NodeId) (req : CreateVmSnapshotRequest) :=
  Taken (fun w volumeId => snapshotVolume m w here volumeId (trimmed req.name) req.notes)

variable {req : CreateVmSnapshotRequest} {ids : List VolumeId} {records : List VolumeRecord}

theorem takes_ids (h : Takes m here req w ids w' records) : records.map VolumeRecord.id = ids := by
  induction h with
  | nil => rfl
  | cons hstep _ ih => rw [List.map_cons, ih, (snapshotVolume_took hstep).1]

theorem takes_others (h : Takes m here req w ids w' records) (hx : x ∉ ids) :
    w'.has p x y = w.has p x y := by
  induction h with
  | nil => rfl
  | cons hstep _ ih =>
    rw [List.mem_cons, not_or] at hx
    exact (ih hx.2).trans ((snapshotVolume_took hstep).2.others p x y hx.1)

/-- Each disk that was taken has the snapshot, also when later ones have been taken. -/
theorem takes_there (h : Takes m here req w ids w' records) (hx : x ∈ ids) :
    ∃ p, w'.has p x (trimmed req.name) = true := by
  induction h with
  | nil => cases hx
  | cons hstep hrest ih =>
    rename_i w₁ w₂ w₃ id ids record records
    by_cases hin : x ∈ ids
    · exact ih hin
    · obtain rfl := (List.mem_cons.mp hx).resolve_right hin
      obtain ⟨p, hp⟩ := (snapshotVolume_took hstep).2.there
      rw [trimmed_trimmed] at hp
      exact ⟨p, (takes_others hrest hin).trans hp⟩

/-- Every disk of the guest has the snapshot, or none that did not have it before. -/
def Whole (w : Snaps) (here : NodeId) (id : VmId) (name : String)
    (r : Snaps × Except String (List VolumeRecord)) : Prop :=
  (∀ records, r.2 = .ok records → ∀ vm, (w.node here).store.get id = some vm →
      ∀ v ∈ Service.diskVolumes vm, ∃ p, r.1.has p v name = true) ∧
    ∀ text, r.2 = .error text → ∀ p v, r.1.has p v name = true → w.has p v name = true

theorem accepted_get (h : w.accepted here vmId name = .ok vm) :
    (w.node here).store.get vmId = some vm := by
  unfold accepted at h
  split at h
  · cases h
  · split at h
    · cases h
    · split at h
      · cases h
      · rename_i hget
        split at h
        · cases h
        · split at h
          · cases h
          · split at h
            · cases h
            · cases h
              exact hget

end Snaps

/-- A guest with two qcow2 disks that runs on node 2. -/
def twoDisks : Snaps where
  now := 0
  node n :=
    let disk (id : VolumeId) : VolumeRecord :=
      { id := id, name := s!"disk{id}", format := .qcow2, sizeBytes := 1024
        path := .disk id .qcow2, replicas := [2] }
    (((Node.fresh n).putRecord (disk 1)).putRecord (disk 2)).upsertVm
      { id := .numeric 100
        spec := { name := "web", disks := [{ path := .disk 1 .qcow2, volumeId := some 1 },
          { path := .disk 2 .qcow2, volumeId := some 2 }] }
        state := .running
        nodeId := some 2 }
  has _ _ _ := false

/-- QEMU takes the snapshot of the first disk, and not of the second one. -/
def secondFails : Meets where
  tools n := { self := n, qemuImg := true, zfs := .new none, rbd := .new none }
  driver _ := .qemu
  takes _ id := if id = 2 then .error "no space left on device" else .ok ()
  replaces _ _ := false

end Pertisk.Volume
