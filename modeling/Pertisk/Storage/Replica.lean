import Mathlib.Data.List.Perm.Subperm
import Pertisk.Storage.Peer

namespace Pertisk.Storage
open Lib

variable {β : Type} [Contents β]

def placeReplicas (online : List NodeId) (count : Nat) (included : Option NodeId) : List NodeId :=
  let want := min (max count 1) (max online.length 1)
  let start := match included with
    | some id => if online.contains id then [id] else []
    | none => []
  let out := online.foldl (fun out id =>
    if out.length ≥ want || out.contains id then out else out ++ [id]) start
  match out, included with
  | [], some id => [id]
  | out, _ => out

/-- Both sides are `u8`s; the online count is cut to one. -/
def replicaWant (online configured : Nat) : Nat := min (max configured 1) (max online 1 % 256)

/-- The `while` that adds online nodes up to `want`: its search starts over each time, but what
stands before the node it added is listed by then. -/
def fillReplicas (want : Nat) (online replicas : List NodeId) : List NodeId :=
  online.foldl (fun out id =>
    if out.length < want && !out.contains id then out ++ [id] else out) replicas

def Host.volumeUsers (h : Host β) (id : VolumeId) : List VmId :=
  (h.node.store.rows.filter (fun vm =>
    vm.spec.disks.any (fun disk => disk.volumeId == some id))).map (fun vm => vm.id)

def Host.volumeIsBacking (h : Host β) (id : VolumeId) : Bool :=
  h.node.listVolumes.any (fun vol => vol.backingId == some id)

/-- Detached disks are not copied about. -/
def Host.attached (h : Host β) (id : VolumeId) : Bool :=
  !(h.volumeUsers id).isEmpty || h.volumeIsBacking id

def ensureReplica (env : Env) (online : List NodeId) (self : NodeId) (record : VolumeRecord)
    (w : Fleet β) (replica : NodeId) : Fleet β :=
  if replica = self then Function.update w self ((w self).ensureLocal env self record).1
  else if !online.contains replica then w
  else
    match call env (w self) replica (.ensure record.id)
      (.ok ((w replica).ensureLocal env replica record)) with
    | .ok (d, _) => Function.update w replica d
    | .error _ => w

def ensureReplicas (env : Env) (online : List NodeId) (self : NodeId) (w : Fleet β)
    (record : VolumeRecord) : Fleet β :=
  record.replicas.foldl (ensureReplica env online self record) w

/-- A push that fails is logged, and the other replicas still get theirs. -/
def syncReplica (env : Env) (online : List NodeId) (self : NodeId) (id : VolumeId)
    (w : Fleet β) (replica : NodeId) : Fleet β :=
  if replica = self || !online.contains replica then w
  else
    match peerPutBlob env replica (w self) (w replica) id with
    | .ok d => Function.update w replica d
    | .error _ => w

def syncVolumeReplicas (env : Env) (online : List NodeId) (self : NodeId) (w : Fleet β)
    (record : VolumeRecord) : Fleet β :=
  if record.backend.external || !(w self).hasLocal record.id record.format then w
  else record.replicas.foldl (syncReplica env online self record.id) w

/-- `GET /v1/peer/volumes/{id}/blob`. -/
def Host.peerVolumeBlobGet (h : Host β) (id : VolumeId) : Except DaemonError β :=
  match h.getVolume id with
  | none => .error (.storage (.notFound id))
  | some record =>
    match h.files record.path with
    | none => .error (.storage (.message "No such file or directory (os error 2)"))
    | some bytes => .ok bytes

/-- Copy a peer's file of a volume over ours. -/
def peerPullBlob (env : Env) (src : NodeId) (s p : Host β) (id : VolumeId) :
    Except DaemonError (Host β) :=
  match s.getVolume id with
  | none => .error (.storage (.notFound id))
  | some _ =>
    match call env s src (.pull id) (p.peerVolumeBlobGet id) with
    | .error err => .error err
    | .ok bytes =>
      match s.writeBlobFromPath id bytes with
      | .error err => .error (.storage err)
      | .ok (s, _) => .ok s

theorem peerPullBlob_ok {env : Env} {src : NodeId} {s p t : Host β} {id : VolumeId}
    (h : peerPullBlob env src s p id = .ok t) :
    ∃ record file stored, p.getVolume id = some record ∧ p.files record.path = some file ∧
      s.writeBlobFromPath id file = .ok (t, stored) := by
  unfold peerPullBlob at h
  split at h
  · cases h
  · split at h
    · cases h
    · rename_i file hcall
      have hget := (call_ok hcall).2
      unfold Host.peerVolumeBlobGet at hget
      split at hget
      · cases hget
      · rename_i record hr
        split at hget
        · cases hget
        · rename_i bytes hf
          cases hget
          split at h
          · cases h
          · rename_i stored hw
            cases h
            exact ⟨record, file, stored, hr, hf, hw⟩

/-- The replicas that a rebuild pass puts into the record. -/
def rebuiltReplicas (online : List NodeId) (self : NodeId) (vol : VolumeRecord) : List NodeId :=
  let kept := vol.replicas.filter (fun id => online.contains id)
  let want := replicaWant online.length (max vol.replicaCount 1)
  fillReplicas want online
    (if kept.isEmpty then placeReplicas online want (some self) else kept)

def rebuiltRecord (online : List NodeId) (self : NodeId) (vol : VolumeRecord) : VolumeRecord :=
  let replicas := rebuiltReplicas online self vol
  { vol with
    replicas := replicas
    replicaCount := max (replicas.length % 256) vol.replicaCount }

/-- We are not a replica ourselves: take the file from one that is. -/
def pullReplica (env : Env) (self : NodeId) (w : Fleet β) (vol : VolumeRecord) : Fleet β :=
  match vol.replicas.find? (fun id => id ≠ self) with
  | none => w
  | some src =>
    let s := ((w self).ensureLocal env self vol).1
    match peerPullBlob env src s (w src) vol.id with
    | .ok s => Function.update w self s
    | .error _ => Function.update w self s

def rebuildVolume (env : Env) (online : List NodeId) (self : NodeId) (w : Fleet β)
    (vol : VolumeRecord) : Fleet β :=
  if vol.backend.external || !(w self).attached vol.id then w
  else
    let vol := rebuiltRecord online self vol
    let w := Function.update w self ((w self).putRecord vol)
    let w := ensureReplicas env online self w vol
    if (w self).hasLocal vol.id vol.format then syncVolumeReplicas env online self w vol
    else pullReplica env self w vol

/-- Nodes to take a missing file from: the other online replicas, then the other online nodes. -/
def pullSources (online : List NodeId) (self : NodeId) (vol : VolumeRecord) : List NodeId :=
  online.foldl (fun out n => if n ≠ self && !out.contains n then out ++ [n] else out)
    (vol.replicas.filter (fun n => n ≠ self && online.contains n))

def pullFirst (env : Env) (w : Fleet β) (s : Host β) (id : VolumeId) :
    List NodeId → Option (Host β)
  | [] => none
  | src :: sources =>
    match peerPullBlob env src s (w src) id with
    | .ok s => some s
    | .error _ => pullFirst env w s id sources

def joinReplicas (self : NodeId) (s : Host β) (vol : VolumeRecord) : Host β :=
  if vol.replicas.contains self then s
  else
    let replicas := vol.replicas ++ [self]
    s.putRecord { vol with
      replicas := replicas
      replicaCount := max (replicas.length % 256) vol.replicaCount }

def pullMissing (env : Env) (online : List NodeId) (self : NodeId) (w : Fleet β) :
    List DiskSpec → Host β → Host β × Except DaemonError Unit
  | [], s => (s, .ok ())
  | disk :: disks, s =>
    match disk.volumeId.bind s.getVolume with
    | none => pullMissing env online self w disks s
    | some vol =>
      if vol.backend.external then pullMissing env online self w disks s
      else if s.hasLocal vol.id vol.format then
        pullMissing env online self w disks (joinReplicas self s vol)
      else
        match pullFirst env w s vol.id (pullSources online self vol) with
        | some s => pullMissing env online self w disks (joinReplicas self s vol)
        | none =>
          (s, .error (.peer s!"volume {vol.name} has no reachable replica for this node"))

/-- Before a guest starts here, its missing disks are taken from peers. -/
def pullMissingVolumes (env : Env) (now : Nat) (w : Fleet β) (self : NodeId) (spec : VmSpec) :
    Fleet β × Except DaemonError Unit :=
  let online := (w self).node.cluster.onlineIds now
  let (s, result) := pullMissing env online self w spec.disks (w self)
  (Function.update w self s, result)

/-- One pass of the leader over all volumes it has a record of. -/
def rebuildVolumes (env : Env) (now : Nat) (self : NodeId) (w : Fleet β) : Fleet β :=
  (w self).node.listVolumes.foldl
    (rebuildVolume env ((w self).node.cluster.onlineIds now) self) w

end Pertisk.Storage

namespace Pertisk.Storage

section
variable {α : Type} [DecidableEq α] {want : ℕ} {l start : List α}

/-- What is not there yet is added in order, until there are as many as wanted. -/
def fill (want : ℕ) (l start : List α) : List α :=
  l.foldl (fun out a => if out.length ≥ want || out.contains a then out else out ++ [a]) start

theorem fill_cons (a : α) : fill want (a :: l) start = fill want l
    (if start.length ≥ want || start.contains a then start else start ++ [a]) := rfl

theorem fill_extends (want : ℕ) (l start : List α) : start <+: fill want l start := by
  induction l generalizing start with
  | nil => exact List.prefix_refl start
  | cons a l ih =>
    rw [fill_cons]
    split
    · exact ih start
    · exact (List.prefix_append start [a]).trans (ih _)

theorem mem_fill {b : α} (h : b ∈ fill want l start) : b ∈ start ∨ b ∈ l := by
  induction l generalizing start with
  | nil => exact .inl h
  | cons a l ih =>
    rw [fill_cons] at h
    split at h
    · exact (ih h).imp_right (List.mem_cons_of_mem a)
    · rcases ih h with h | h
      · rcases List.mem_append.mp h with h | h
        · exact .inl h
        · exact .inr (List.mem_singleton.mp h ▸ List.mem_cons_self)
      · exact .inr (List.mem_cons_of_mem a h)

theorem nodup_fill (h : start.Nodup) : (fill want l start).Nodup := by
  induction l generalizing start with
  | nil => exact h
  | cons a l ih =>
    rw [fill_cons]
    split
    · exact ih h
    · rename_i hadd
      have hnew : a ∉ start := fun hin => hadd (by simp [hin])
      refine ih (List.nodup_append.mpr ⟨h, List.pairwise_singleton _ a, fun b hb c hc hsame => ?_⟩)
      rw [List.mem_singleton.mp hc] at hsame
      exact hnew (hsame ▸ hb)

theorem length_fill_le (h : start.length ≤ want) : (fill want l start).length ≤ want := by
  induction l generalizing start with
  | nil => exact h
  | cons a l ih =>
    rw [fill_cons]
    split
    · exact ih h
    · rename_i hadd
      simp only [Bool.or_eq_true, decide_eq_true_eq, not_or] at hadd
      refine ih ?_
      rw [List.length_append, List.length_singleton]
      omega

/-- There are as many as wanted, or nothing was left to add. -/
theorem fill_full (want : ℕ) (l start : List α) : want ≤ (fill want l start).length ∨ ∀ a ∈ l, a ∈ fill want l start := by
  induction l generalizing start with
  | nil => exact .inr nofun
  | cons a l ih =>
    rw [fill_cons]
    split
    · rename_i hkeep
      rcases Bool.or_eq_true_iff.mp hkeep with hfull | hin
      · exact .inl ((of_decide_eq_true hfull).trans (fill_extends want l start).length_le)
      · exact (ih _).imp_right fun hall =>
          List.forall_mem_cons.mpr ⟨(fill_extends want l start).subset (by simpa using hin), hall⟩
    · exact (ih _).imp_right fun hall =>
        List.forall_mem_cons.mpr ⟨(fill_extends want l _).subset (by simp), hall⟩

/-- Filled from a list without repetitions, it has as many as are wanted or as there are. -/
theorem length_fill (hl : l.Nodup) (hwant : want ≤ l.length) (hlen : start.length ≤ want) :
    (fill want l start).length = want := by
  refine Nat.le_antisymm (length_fill_le hlen) ?_
  rcases fill_full want l start with h | h
  · exact h
  · exact hwant.trans (hl.subperm h).length_le

end

variable {online : List NodeId} {configured : ℕ} {included : Option NodeId}

/-- Replicas as they are asked for: so many different online nodes, the included one first. -/
structure Placed (online : List NodeId) (configured : ℕ) (included : Option NodeId)
    (replicas : List NodeId) : Prop where
  nodup : replicas.Nodup
  subset : replicas ⊆ online
  first : ∀ id, included = some id → id ∈ online → replicas.head? = some id
  length : replicas.length = min (max configured 1) online.length

/-- The node that is to be among them, when it is online. -/
def placed (online : List NodeId) : Option NodeId → List NodeId
  | some id => if online.contains id then [id] else []
  | none => []

theorem placed_nodup : (placed online included).Nodup := by
  unfold placed
  split
  · split
    · exact List.pairwise_singleton _ _
    · exact List.nodup_nil
  · exact List.nodup_nil

theorem placed_subset : placed online included ⊆ online := by
  unfold placed
  split
  · split
    · rename_i hin
      exact List.cons_subset.mpr ⟨by simpa using hin, List.nil_subset _⟩
    · exact List.nil_subset _
  · exact List.nil_subset _

theorem placed_length : (placed online included).length ≤ 1 := by
  unfold placed
  split
  · split <;> simp
  · simp

theorem placeReplicas_eq {count : ℕ} (h : online ≠ []) : placeReplicas online count included =
    fill (min (max count 1) online.length) online (placed online included) := by
  have hpos : 1 ≤ online.length := List.length_pos_iff.mpr h
  have hmax : max online.length 1 = online.length := by omega
  have hne : fill (min (max count 1) online.length) online (placed online included) ≠ [] := by
    intro hnil
    rcases fill_full (min (max count 1) online.length) online (placed online included) with
      hfull | hall
    · rw [hnil, List.length_nil] at hfull
      omega
    · obtain ⟨id, hid⟩ := List.exists_mem_of_ne_nil online h
      have hin := hall id hid
      rw [hnil] at hin
      cases hin
  unfold placeReplicas
  rw [hmax]
  dsimp only
  split
  · rename_i heq
    exact absurd heq hne
  · rfl

/-- The replicas are right as soon as there are as many as asked for. -/
theorem placeReplicas_iff (count : ℕ) (included : Option NodeId) (h : online ≠ [])
    (hnodup : online.Nodup) : Placed online configured included (placeReplicas online count included) ↔
      min (max count 1) online.length = min (max configured 1) online.length := by
  have hpos : 1 ≤ online.length := List.length_pos_iff.mpr h
  have hone : (placed online included).length ≤ 1 := placed_length
  have hlen : (fill (min (max count 1) online.length) online (placed online included)).length =
      min (max count 1) online.length := length_fill hnodup (by omega) (by omega)
  rw [placeReplicas_eq h]
  constructor
  · intro hplaced
    rw [← hlen]
    exact hplaced.length
  · intro hsame
    refine ⟨nodup_fill placed_nodup, fun id hid => ?_, fun id hincluded hid => ?_,
      hlen.trans hsame⟩
    · rcases mem_fill hid with hid | hid
      · exact placed_subset hid
      · exact hid
    · have hstart : placed online included = [id] := by
        rw [hincluded]
        exact if_pos (by simpa using hid)
      obtain ⟨rest, hrest⟩ := fill_extends (min (max count 1) online.length) online (placed online included)
      rw [← hrest, hstart]
      rfl

/-- The replicas are as they are asked for exactly when the number of online nodes, cut to eight
bits, is not smaller than what is wanted. -/
theorem replicas_placed_iff (included : Option NodeId) (h : online ≠ []) (hnodup : online.Nodup)
    (hu8 : configured < 256) : Placed online configured included
        (placeReplicas online (replicaWant online.length configured) included) ↔
      online.length < 256 ∨ configured ≤ 1 ∨ configured ≤ online.length % 256 := by
  have hpos : 1 ≤ online.length := List.length_pos_iff.mpr h
  rw [placeReplicas_iff _ _ h hnodup]
  unfold replicaWant
  omega

theorem replicas_placed_three : Placed [1, 2, 3] 2 (some 2)
      (placeReplicas [1, 2, 3] (replicaWant 3 2) (some 2)) ↔ 3 < 256 ∨ 2 ≤ 1 ∨ 2 ≤ 3 % 256 :=
  replicas_placed_iff (some 2) (by decide) (by decide) (by decide)

/-- With 256 nodes online the count is cut to none. -/
theorem placed_short : ¬ ∀ (online : List NodeId) (configured : ℕ) (included : Option NodeId),
    online ≠ [] → online.Nodup → configured < 256 → Placed online configured included
      (placeReplicas online (replicaWant online.length configured) included) := by
  intro hall
  have hnodup : (List.range 256).Nodup := List.nodup_range
  have hplaced := hall (List.range 256) 2 none (by simp) hnodup (by decide)
  rw [placeReplicas_iff _ _ (by simp) hnodup, List.length_range] at hplaced
  exact absurd hplaced (by decide)

end Pertisk.Storage
