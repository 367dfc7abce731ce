import Pertisk.Replication.Trace
import Pertisk.Storage.Copies
import Pertisk.Volume.Deleted

namespace Pertisk.Volume.Deleted
open Lib Storage

variable {β : Type} [Contents β]

/-- The volume is in the node's inventory. -/
def Listed (h : Host β) (id : VolumeId) : Prop := (h.getVolume id).isSome = true

namespace World

variable (w : World β)

/-- The node has received a snapshot of the generation of the volume's delete or a later one. -/
def Dead (n : NodeId) (id : VolumeId) : Prop := ∃ g, (id, g) ∈ w.deleted ∧ g ≤ w.seen n

/-- No deleted volume is in the inventory of a node that has received the delete. -/
def Gone : Prop := ∀ n id, w.Dead n id → ¬ Listed (w.fleet n) id

/-- A snapshot of the delete's generation or a later one leaves the volume out, or the node that it
comes to late does. -/
def CarefulSnapshot (dest : NodeId) (snap : ClusterSnapshot) : Prop :=
  ∀ id g, (id, g) ∈ w.deleted → g ≤ max (w.seen dest) snap.generation →
    if (w.fleet dest).node.cluster.generation < snap.generation then
      ∀ record ∈ snap.volumes, record.id ≠ id
    else ¬ Listed (w.fleet dest) id

/-- A node that has a volume's delete does not handle the request for a replica of it. -/
def CarefulParcel (p : Parcel β) : Prop :=
  match p.body with
  | .inventory body => ∀ snap, body.snapshot = some snap → w.CarefulSnapshot p.dest snap
  | .ensure record => ¬ w.Dead p.dest record.id
  | .delete _ | .blob .. => True

/-- A delete is published above every generation of which a node with the volume has received a
snapshot, no pass puts back a record that it read before the delete, and a daemon that starts again
finds no image of a volume that is gone. -/
def Careful (w : World β) : Action β → Prop
  | .delete n id => ∀ m, m ≠ n → Listed (w.fleet m) id →
      w.seen m < (w.fleet n).bump.node.cluster.generation
  | .place n => ∀ vol ∈ (w.passes n).vols.head?, w.Dead n vol.id →
      (vol.backend.external || !(w.fleet n).attached vol.id) = true
  | .restart n _ => ∀ id format file, w.Dead n id →
      (w.fleet n).files (.disk id format) = some file → len file = 0
  | .deliver i => ∀ p, w.net[i]? = some p → w.CarefulParcel p
  | _ => True

/-- What a start finds on the disk is what there is. -/
def Real (w : World β) : Action β → Prop
  | .restart n entries => ListsDisks (w.fleet n) entries
  | _ => True

structure Start (w : World β) : Prop where
  undeleted : w.deleted = []
  silent : w.net = []
  still : ∀ n, (w.passes n).vols = []

end World

section listed
variable {h t : Host β} {record stored : VolumeRecord} {id j : VolumeId}

@[simp] theorem listed_putRecord : Listed (h.putRecord record) j ↔ record.id = j ∨ Listed h j := by
  unfold Listed
  rw [Host.getVolume_putRecord]
  split
  · rename_i heq
    exact iff_of_true rfl (.inl heq)
  · rename_i hne
    rw [or_iff_right hne]

@[simp] theorem listed_writeFile {path : PathBuf} {file : β} :
    Listed (h.writeFile path file) j ↔ Listed h j := Iff.rfl

@[simp] theorem listed_bump : Listed h.bump j ↔ Listed h j := Iff.rfl

theorem listed_deleteVolume (hd : deleteVolume h id = some t) :
    Listed t j ↔ j ≠ id ∧ Listed h j := by
  obtain ⟨record, -, rfl⟩ := Option.map_eq_some_iff.mp hd
  unfold Listed
  have hget : (h.node.removeVolume id).getVolume j = if j = id then none else h.getVolume j :=
    h.node.getVolume_removeVolume id j
  show ((h.node.removeVolume id).getVolume j).isSome = true ↔ _
  rw [hget]
  split
  · rename_i heq
    exact iff_of_false Bool.false_ne_true (fun hand => hand.1 heq)
  · rename_i hne
    rw [and_iff_right hne]

theorem listed_ensureLocal {env : Env} {n : NodeId} :
    Listed (h.ensureLocal env n record).1 j ↔ record.id = j ∨ Listed h j := by
  unfold Host.ensureLocal
  split
  · exact listed_putRecord
  · dsimp only
    split
    · exact listed_putRecord
    · exact listed_putRecord

theorem listed_writeBlob {file : β} (hw : h.writeBlobFromPath id file = .ok (t, stored)) :
    Listed t j ↔ Listed h j := by
  obtain ⟨record, hr, -, -, hget, hother, -⟩ := Host.writeBlobFromPath_ok hw
  unfold Listed
  by_cases hj : j = id
  · subst hj
    rw [hget, hr]
    rfl
  · rw [hother j hj]

theorem listed_written {file : β} (hw : h.writeBlobFromPath id file = .ok (t, stored)) :
    Listed t stored.id := by
  unfold Host.writeBlobFromPath at hw
  split at hw
  · cases hw
  · split at hw
    · cases hw
    · cases hw
      exact listed_putRecord.mpr (.inl rfl)

theorem listed_addReplica {dest : NodeId} (hr : h.getVolume id = some record) :
    Listed (addReplica h record dest).1 j ↔ Listed h j := by
  unfold addReplica
  split
  · rfl
  · rw [listed_bump, listed_putRecord, or_iff_right_iff_imp]
    rintro rfl
    unfold Listed
    rw [Host.id_of_getVolume hr, hr]
    rfl

theorem listed_recover {entry : VolumeId × VolumeFormat} :
    Listed (recoverOrphanDisk h entry) j ↔ Listed h j ∨ entry.1 = j ∧
      ∃ file, h.files (.disk entry.1 entry.2) = some file ∧ len file ≠ 0 := by
  unfold recoverOrphanDisk
  cases hget : h.getVolume entry.1 with
  | some record =>
    refine ⟨.inl, ?_⟩
    rintro (hl | ⟨rfl, -⟩)
    · exact hl
    · show Listed h _
      rw [Listed, hget]
      rfl
  | none =>
    cases hfile : h.files (.disk entry.1 entry.2) with
    | none => simp
    | some file =>
      by_cases hlen : len file = 0
      · simp [hlen]
      · simp [hlen, recovered, or_comm]

theorem recover_files (entry : VolumeId × VolumeFormat) :
    (recoverOrphanDisk h entry).files = h.files := by
  unfold recoverOrphanDisk
  split
  · split
    · rfl
    · rfl
  · rfl

/-- After the scan a volume is listed for its record or for its image. -/
theorem listed_recoverAll {entries : List (VolumeId × VolumeFormat)} :
    Listed (recoverOrphanDisks h entries) j ↔ Listed h j ∨ ∃ entry ∈ entries, entry.1 = j ∧
      ∃ file, h.files (.disk entry.1 entry.2) = some file ∧ len file ≠ 0 := by
  unfold recoverOrphanDisks
  induction entries generalizing h with
  | nil => simp
  | cons entry entries ih =>
    rw [List.foldl_cons, ih, listed_recover, recover_files]
    simp only [List.exists_mem_cons_iff, or_assoc]

end listed

namespace World

variable {env : Env} {w t : World β} {n : NodeId} {h : Host β} {action : Action β}

/-- A step that changes one node's host, and nothing that is kept about deletes. -/
structure Sets (w : World β) (n : NodeId) (h : Host β) (t : World β) : Prop where
  fleet : t.fleet = Function.update w.fleet n h
  deleted : t.deleted = w.deleted
  seen : t.seen = w.seen

/-- A step that changes no host. -/
structure Idle (w t : World β) : Prop where
  fleet : t.fleet = w.fleet
  deleted : t.deleted = w.deleted
  seen : t.seen = w.seen

theorem Idle.gone (hs : Idle w t) (hg : w.Gone) : t.Gone := by
  unfold Gone Dead
  rw [hs.fleet, hs.deleted, hs.seen]
  exact hg

theorem Sets.gone_iff (hs : Sets w n h t) (hg : w.Gone) :
    t.Gone ↔ ∀ id, w.Dead n id → ¬ Listed h id := by
  unfold Gone Dead
  rw [hs.fleet, hs.deleted, hs.seen]
  constructor
  · intro ht id hdead
    have hself := ht n id hdead
    rw [Function.update_self] at hself
    exact hself
  · intro hh m id hdead
    by_cases hm : m = n
    · subst hm
      rw [Function.update_self]
      exact hh id hdead
    · rw [Function.update_of_ne hm]
      exact hg m id hdead

/-- A host that lists no more than before breaks nothing. -/
theorem Sets.gone (hs : Sets w n h t) (hl : ∀ id, Listed h id → Listed (w.fleet n) id)
    (hg : w.Gone) : t.Gone :=
  (hs.gone_iff hg).mpr (fun id hdead hlisted => hg n id hdead (hl id hlisted))

/-- A host that lists one volume more breaks the law if that one is deleted. -/
theorem Sets.gone_insert_iff {j : VolumeId} (hs : Sets w n h t)
    (hl : ∀ id, Listed h id ↔ j = id ∨ Listed (w.fleet n) id) (hg : w.Gone) :
    t.Gone ↔ ¬ w.Dead n j := by
  rw [hs.gone_iff hg]
  constructor
  · intro hh hdead
    exact hh j hdead ((hl j).mpr (.inl rfl))
  · intro hj id hdead hlisted
    rcases (hl id).mp hlisted with rfl | hlisted
    · exact hj hdead
    · exact hg n id hdead hlisted

theorem gone_create {record : VolumeRecord} {file : β} (hg : w.Gone)
    (h : w.step env (.create n record file) = some t) : t.Gone := by
  simp only [step] at h
  split at h
  · cases h
  · rename_i hfresh
    cases h
    refine Iff.mpr (Sets.gone_insert_iff (n := n) (j := record.id) ⟨rfl, rfl, rfl⟩ ?_ hg) ?_
    · intro id
      rw [listed_bump]
      split
      · exact listed_putRecord
      · exact listed_putRecord
    · rintro ⟨g, hin, -⟩
      exact hfresh (List.mem_map_of_mem (f := Prod.fst) hin)

theorem gone_delete {id : VolumeId} (hg : w.Gone) (h : w.step env (.delete n id) = some t) :
    t.Gone ↔ w.Careful (.delete n id) := by
  simp only [step] at h
  split at h
  · rename_i record h' husers hget hd
    cases h
    have hgen : h'.bump.node.cluster.generation = (w.fleet n).bump.node.cluster.generation := by
      obtain ⟨_, -, rfl⟩ := Option.map_eq_some_iff.mp hd
      rfl
    constructor
    · intro ht m hm hlisted
      refine Nat.lt_of_not_le (fun hle => ht m id
        ⟨_, List.mem_append_right _ List.mem_cons_self, hgen.trans_le hle⟩ ?_)
      show Listed (Function.update w.fleet n h'.bump m) id
      rw [Function.update_of_ne hm]
      exact hlisted
    · rintro hc m j ⟨g, hin, hle⟩ hlisted
      replace hlisted : Listed (Function.update w.fleet n h'.bump m) j := hlisted
      have hbefore : Listed (w.fleet m) j := by
        by_cases hm : m = n
        · subst hm
          rw [Function.update_self] at hlisted
          exact ((listed_deleteVolume hd).mp hlisted).2
        · rw [Function.update_of_ne hm] at hlisted
          exact hlisted
      rcases List.mem_append.mp hin with hold | hnew
      · exact hg m j ⟨g, hold, hle⟩ hbefore
      · cases List.mem_singleton.mp hnew
        by_cases hm : m = n
        · subst hm
          rw [Function.update_self] at hlisted
          exact ((listed_deleteVolume hd).mp hlisted).1 rfl
        · exact absurd (hgen.symm.trans_le hle) (Nat.not_le.mpr (hc m hm hbefore))
  · cases h

theorem gone_place (hg : w.Gone) (h : w.step env (.place n) = some t) :
    t.Gone ↔ w.Careful (.place n) := by
  simp only [step] at h
  split at h
  · cases h
  · rename_i online vol vols hpass
    cases h
    have hcareful : w.Careful (.place n) ↔ (w.Dead n vol.id →
        (vol.backend.external || !(w.fleet n).attached vol.id) = true) := by
      simp [Careful, hpass]
    rw [hcareful]
    unfold placeVolume
    split
    · rename_i hskip
      exact iff_of_true (Idle.gone ⟨rfl, rfl, rfl⟩ hg) (fun _ => hskip)
    · rename_i hput
      refine Iff.trans ?_ (imp_iff_not hput).symm
      dsimp only
      split
      · exact Sets.gone_insert_iff (n := n) (j := vol.id) ⟨rfl, rfl, rfl⟩
          (fun _ => listed_putRecord) hg
      · exact Sets.gone_insert_iff (n := n) (j := vol.id) ⟨rfl, rfl, rfl⟩
          (fun _ => listed_putRecord) hg

theorem gone_restart {entries : List (VolumeId × VolumeFormat)} (hg : w.Gone)
    (hreal : ListsDisks (w.fleet n) entries) (h : w.step env (.restart n entries) = some t) :
    t.Gone ↔ w.Careful (.restart n entries) := by
  cases h
  refine Iff.trans (Sets.gone_iff (n := n) ⟨rfl, rfl, rfl⟩ hg) ?_
  constructor
  · intro hh id format file hdead hfile
    by_contra hlen
    refine hh id hdead (listed_recoverAll.mpr (.inr ⟨(id, format), ?_, rfl, file, hfile, hlen⟩))
    rw [hreal, hfile]
    rfl
  · intro hc id hdead hlisted
    rcases listed_recoverAll.mp hlisted with hold | ⟨⟨_, format⟩, -, rfl, file, hfile, hlen⟩
    · exact hg n id hdead hold
    · exact hlen (hc _ format file hdead hfile)

/-- What a node has of the inventory once it has the message. -/
theorem listed_receive {body : Replication.Body} {host : Host β} {now : Nat} {dest : NodeId}
    {id : VolumeId} :
    Listed { host with node := (body.receive host.node now dest).1 } id ↔
      if body.adopted host.node then
        ∃ snap, body.snapshot = some snap ∧ ∃ record ∈ snap.volumes, record.id = id
      else Listed host id := by
  cases hadopt : body.adopted host.node with
  | true =>
    obtain ⟨snap, hsnap, -, -, hinv⟩ := Replication.Body.receive_adopted now dest hadopt
    have hvolumes : (body.receive host.node now dest).1.volumes =
        Table.ofList (snap.volumes.map StoredVolume.ofRecord) :=
      congrArg Replication.Inventory.volumes hinv
    rw [if_pos rfl]
    show (((body.receive host.node now dest).1.volumes.get id).map StoredVolume.record).isSome =
      true ↔ _
    rw [hvolumes, Option.isSome_map, Table.isSome_get_ofList]
    simp [hsnap]
  | false =>
    have hvolumes : (body.receive host.node now dest).1.volumes = host.node.volumes :=
      congrArg Replication.Inventory.volumes (Replication.Body.receive_kept now dest hadopt).2
    rw [if_neg Bool.false_ne_true]
    show (((body.receive host.node now dest).1.volumes.get id).map StoredVolume.record).isSome =
      true ↔ _
    rw [hvolumes]
    rfl

/-- A message of the inventory changes one host, and what its node has received. -/
theorem receive_inventory (env : Env) (w : World β) (dest : NodeId) (body : Replication.Body) :
    (w.receive env ⟨dest, .inventory body⟩).fleet = Function.update w.fleet dest
        { w.fleet dest with node := (body.receive (w.fleet dest).node w.now dest).1 } ∧
      (w.receive env ⟨dest, .inventory body⟩).deleted = w.deleted ∧
      (w.receive env ⟨dest, .inventory body⟩).seen = match body.snapshot with
        | some snap => Function.update w.seen dest (max (w.seen dest) snap.generation)
        | none => w.seen := by
  simp only [receive]
  cases body.snapshot with
  | none =>
    dsimp only
    split
    · exact ⟨rfl, rfl, rfl⟩
    · exact ⟨rfl, rfl, rfl⟩
  | some snap =>
    dsimp only
    split
    · exact ⟨rfl, rfl, rfl⟩
    · exact ⟨rfl, rfl, rfl⟩

theorem gone_inventory {dest : NodeId} {body : Replication.Body} (hg : w.Gone) :
    (w.receive env ⟨dest, .inventory body⟩).Gone ↔ w.CarefulParcel ⟨dest, .inventory body⟩ := by
  obtain ⟨hfleet, hdeleted, hseen⟩ := receive_inventory env w dest body
  cases hsnap : body.snapshot with
  | none =>
    rw [hsnap] at hseen
    have hkept : body.adopted (w.fleet dest).node = false := by simp [Replication.Body.adopted, hsnap]
    refine iff_of_true (Sets.gone ⟨hfleet, hdeleted, hseen⟩ (fun id hl => ?_) hg) ?_
    · rw [listed_receive, hkept, if_neg Bool.false_ne_true] at hl
      exact hl
    · intro snap hsome
      cases hsnap.symm.trans hsome
  | some snap =>
    rw [hsnap] at hseen
    dsimp only at hseen
    have hadopted : body.adopted (w.fleet dest).node = true ↔
        (w.fleet dest).node.cluster.generation < snap.generation := by
      simp [Replication.Body.adopted, hsnap]
    have hlisted : ∀ id, Listed ((w.receive env ⟨dest, .inventory body⟩).fleet dest) id ↔
        if (w.fleet dest).node.cluster.generation < snap.generation then
          ∃ record ∈ snap.volumes, record.id = id
        else Listed (w.fleet dest) id := by
      intro id
      rw [hfleet, Function.update_self, listed_receive]
      simp only [hadopted, hsnap, Option.some.injEq, exists_eq_left']
    have hcareful : w.CarefulParcel ⟨dest, .inventory body⟩ ↔ w.CarefulSnapshot dest snap := by
      simp [CarefulParcel, hsnap]
    rw [hcareful]
    unfold CarefulSnapshot
    constructor
    · intro ht id g hin hle
      have hself := ht dest id ⟨g, hdeleted ▸ hin, by rw [hseen, Function.update_self]; exact hle⟩
      rw [hlisted] at hself
      split
      · rename_i hlt
        rw [if_pos hlt] at hself
        exact fun record hrecord hid => hself ⟨record, hrecord, hid⟩
      · rename_i hge
        rw [if_neg hge] at hself
        exact hself
    · rintro hc m id ⟨g, hin, hle⟩
      rw [hdeleted] at hin
      rw [hseen] at hle
      by_cases hm : m = dest
      · subst hm
        rw [Function.update_self] at hle
        have hcase := hc id g hin hle
        rw [hlisted]
        split
        · rename_i hlt
          rw [if_pos hlt] at hcase
          rintro ⟨record, hrecord, hid⟩
          exact hcase record hrecord hid
        · rename_i hge
          rw [if_neg hge] at hcase
          exact hcase
      · rw [Function.update_of_ne hm] at hle
        rw [hfleet, Function.update_of_ne hm]
        exact hg m id ⟨g, hin, hle⟩

theorem gone_receive {p : Parcel β} (hg : w.Gone) : (w.receive env p).Gone ↔ w.CarefulParcel p := by
  obtain ⟨dest, body⟩ := p
  cases body with
  | inventory body => exact gone_inventory hg
  | ensure record =>
    exact Sets.gone_insert_iff (n := dest) (j := record.id) ⟨rfl, rfl, rfl⟩
      (fun _ => listed_ensureLocal) hg
  | delete id =>
    refine iff_of_true ?_ trivial
    simp only [receive]
    split
    · rename_i h' hd
      exact Sets.gone (n := dest) ⟨rfl, rfl, rfl⟩ (fun _ hl => ((listed_deleteVolume hd).mp hl).2) hg
    · exact hg
  | blob id bytes =>
    refine iff_of_true ?_ trivial
    simp only [receive]
    split
    · rename_i h' _ hw
      exact Sets.gone (n := dest) ⟨rfl, rfl, rfl⟩ (fun _ hl => (listed_writeBlob hw).mp hl) hg
    · exact hg

/-- From a state where no deleted volume is listed, the next is one exactly when the step is
careful. -/
theorem gone_step (hg : w.Gone) (hreal : w.Real action) (h : w.step env action = some t) :
    t.Gone ↔ w.Careful action := by
  cases action with
  | create n record file => exact iff_of_true (gone_create hg h) trivial
  | delete n id => exact gone_delete hg h
  | place n => exact gone_place hg h
  | restart n entries => exact gone_restart hg hreal h
  | deliver i =>
    simp only [step] at h
    split at h
    · rename_i p hp
      cases h
      refine Iff.trans (gone_receive (Idle.gone (w := w) ⟨rfl, rfl, rfl⟩ hg)) ?_
      have hcareful : w.Careful (.deliver i) ↔ w.CarefulParcel p := by simp [Careful, hp]
      rw [hcareful]
      rfl
    · cases h
  | advance ms => exact iff_of_true (Idle.gone (by cases h; exact ⟨rfl, rfl, rfl⟩) hg) trivial
  | lose i => exact iff_of_true (Idle.gone (by cases h; exact ⟨rfl, rfl, rfl⟩) hg) trivial
  | replicate n => exact iff_of_true (Idle.gone (by cases h; exact ⟨rfl, rfl, rfl⟩) hg) trivial
  | heartbeats n => exact iff_of_true (Idle.gone (by cases h; exact ⟨rfl, rfl, rfl⟩) hg) trivial
  | guests n store =>
    cases h
    exact iff_of_true (Sets.gone (n := n) ⟨rfl, rfl, rfl⟩ (fun _ hl => hl) hg) trivial
  | beginPass n =>
    simp only [step] at h
    split at h
    · cases h
      exact iff_of_true (Idle.gone (w := w) ⟨rfl, rfl, rfl⟩ hg) trivial
    · cases h
  | ensureOn n dest id =>
    simp only [step] at h
    split at h
    · cases h
    · rename_i vol hget
      split at h
      · cases h
      · cases h
        exact iff_of_true (Sets.gone (n := n) ⟨rfl, rfl, rfl⟩
          (fun _ hl => (listed_addReplica hget).mp hl) hg) trivial
  | push n dest id =>
    simp only [step] at h
    split at h
    · split at h
      · cases h
      · cases h
        exact iff_of_true (Idle.gone (w := w) ⟨rfl, rfl, rfl⟩ hg) trivial
    · cases h
  | pull n src id =>
    simp only [step] at h
    split at h
    · cases h
    · split at h
      · cases h
      · rename_i bytes _ _ h' record hw
        cases h
        refine iff_of_true (Sets.gone (n := n) ⟨rfl, rfl, rfl⟩ (fun j hl => ?_) hg) trivial
        split at hl
        · exact (listed_writeBlob hw).mp hl
        · have hwritten := listed_written hw
          rcases listed_putRecord.mp hl with rfl | hl
          · exact (listed_writeBlob hw).mp hwritten
          · exact (listed_writeBlob hw).mp hl

theorem Start.gone (h0 : w.Start) : w.Gone := by
  rintro n id ⟨g, hin, -⟩
  rw [h0.undeleted] at hin
  cases hin

/-- The volume of two bytes, which nodes 1 and 2 have the image of. -/
def lab : World Bytes where
  now := 0
  fleet id := .withFile id (if id = 3 then none else some ⟨[1, 2]⟩)
  passes _ := {}
  net := []
  deleted := []
  seen _ := 0

theorem lab_start : lab.Start := ⟨rfl, rfl, fun _ => rfl⟩

/-- Node 1 deletes the volume and node 2 is told. -/
def told : List (Action Bytes) := [.delete 1 7, .deliver 0, .replicate 1, .deliver 0]

/-- Node 2 misses the delete, takes in the inventory without the volume, and starts again. -/
def untold : List (Action Bytes) :=
  [.delete 1 7, .lose 0, .replicate 1, .deliver 0, .restart 2 [(7, .raw)]]

theorem untold_run : Run (Guarded Real (Steps (step .calm))) lab untold
    (exec (step .calm) lab untold) := by
  refine .cons_exec trivial rfl (.cons_exec trivial rfl (.cons_exec trivial rfl
    (.cons_exec trivial rfl (.cons_exec ?_ rfl (.nil _)))))
  intro id format
  have hfiles : ((exec (step .calm) lab (untold.take 4)).fleet 2).files =
      Function.update (fun _ => none) (.disk 7 .raw) (some ⟨[1, 2]⟩) := rfl
  have hfile := (congrFun hfiles (.disk id format)).trans (Function.update_apply ..)
  refine Iff.trans ?_ (iff_of_eq (congrArg (fun file => file.isSome = true) hfile.symm))
  split
  · rename_i heq
    cases heq
    exact iff_of_true List.mem_cons_self rfl
  · rename_i hne
    refine iff_of_false (fun hin => hne ?_) Bool.false_ne_true
    cases List.mem_singleton.mp hin
    rfl

end World

end Pertisk.Volume.Deleted
