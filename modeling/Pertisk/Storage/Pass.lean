import Pertisk.Storage.Rebuild

namespace Pertisk.Storage
open Lib

variable {β : Type} [Contents β] {env : Env} {self n : NodeId} {online : List NodeId}
variable {w w' : Fleet β} {vol : VolumeRecord} {id j : VolumeId}

theorem Copy.accepts_congr {s s' : Host β} {c : Copy β} {bytes : β}
    (hc : s'.node.cluster = s.node.cluster) :
    c.accepts env s' n id bytes = c.accepts env s n id bytes := by
  unfold Copy.accepts
  simp only [Answers.congr hc]

theorem reached_congr {s s' : Host β} (hc : s'.node.cluster = s.node.cluster) :
    reached env s' online self n id = reached env s online self n id := by
  simp only [reached, Answers.congr hc]

/-! ### The replicas that a pass lists -/

theorem subset_fillReplicas (want : Nat) (online replicas : List NodeId) (h : n ∈ replicas) :
    n ∈ fillReplicas want online replicas := by
  refine foldl_preserves (P := fun out : List NodeId => n ∈ out) ?_ h
  intro out m _ hout
  split
  · exact List.mem_append_left _ hout
  · exact hout

theorem mem_fillReplicas {want : Nat} {online replicas : List NodeId}
    (h : n ∈ fillReplicas want online replicas) : n ∈ replicas ∨ n ∈ online := by
  have hall : ∀ m ∈ fillReplicas want online replicas, m ∈ replicas ∨ m ∈ online := by
    refine foldl_preserves (P := fun out : List NodeId => ∀ m ∈ out, m ∈ replicas ∨ m ∈ online)
      ?_ (fun m hm => .inl hm)
    intro out k hk hout m hm
    split at hm
    · rcases List.mem_append.mp hm with hm | hm
      · exact hout m hm
      · obtain rfl := List.mem_singleton.mp hm
        exact .inr hk
    · exact hout m hm
  exact hall n h

theorem mem_placeReplicas {count : Nat} (h : n ∈ placeReplicas online count (some self)) :
    n = self ∨ n ∈ online := by
  have hall : ∀ m ∈ online.foldl (fun out id =>
      if out.length ≥ min (max count 1) (max online.length 1) || out.contains id then out
      else out ++ [id]) (if online.contains self then [self] else []),
      m = self ∨ m ∈ online := by
    refine foldl_preserves (P := fun out : List NodeId => ∀ m ∈ out, m = self ∨ m ∈ online)
      ?_ ?_
    · intro out k hk hout m hm
      split at hm
      · exact hout m hm
      · rcases List.mem_append.mp hm with hm | hm
        · exact hout m hm
        · obtain rfl := List.mem_singleton.mp hm
          exact .inr hk
    · intro m hm
      split at hm
      · exact .inl (List.mem_singleton.mp hm)
      · cases hm
  unfold placeReplicas at h
  dsimp only at h
  split at h
  · rename_i hself
    cases hself
    exact .inl (List.mem_singleton.mp h)
  · exact hall n h

theorem placeReplicas_ne_nil (online : List NodeId) (count : Nat) :
    placeReplicas online count (some self) ≠ [] := by
  unfold placeReplicas
  dsimp only
  split
  · simp
  · rename_i hno
    intro hnil
    exact hno self hnil rfl

/-- The leader lists online nodes, and itself. -/
theorem rebuiltReplicas_online (h : n ∈ rebuiltReplicas online self vol) :
    n = self ∨ online.contains n = true := by
  unfold rebuiltReplicas at h
  rcases mem_fillReplicas h with h | h
  · split at h
    · rcases mem_placeReplicas h with h | h
      · exact .inl h
      · exact .inr (by simpa using h)
    · exact .inr (List.mem_filter.mp h).2
  · exact .inr (by simpa using h)

theorem rebuiltReplicas_ne_nil (online : List NodeId) (self : NodeId) (vol : VolumeRecord) :
    rebuiltReplicas online self vol ≠ [] := by
  intro hnil
  have hstart : ∃ m, m ∈ (if (vol.replicas.filter (fun id => online.contains id)).isEmpty then
      placeReplicas online (replicaWant online.length (max vol.replicaCount 1)) (some self)
      else vol.replicas.filter (fun id => online.contains id)) := by
    split
    · exact List.exists_mem_of_ne_nil _ (placeReplicas_ne_nil online _)
    · rename_i hne
      exact List.exists_mem_of_ne_nil _ (by simpa using hne)
  obtain ⟨m, hm⟩ := hstart
  have := subset_fillReplicas (replicaWant online.length (max vol.replicaCount 1)) online _ hm
  have hmem : m ∈ rebuiltReplicas online self vol := this
  rw [hnil] at hmem
  cases hmem

/-! ### One volume -/

/-- A pull changes our own host only: a file is ensured, and replaced when the peer sends one. -/
theorem pullReplica_cases (env : Env) (self : NodeId) (w : Fleet β) (vol : VolumeRecord) :
    ((∀ src ∈ vol.replicas, src = self) ∧ pullReplica env self w vol = w) ∨
      ∃ s, pullReplica env self w vol = Function.update w self s ∧
        (s = ((w self).ensureLocal env self vol).1 ∨
          ∃ bytes stored, ((w self).ensureLocal env self vol).1.writeBlobFromPath vol.id bytes =
            .ok (s, stored)) := by
  unfold pullReplica
  split
  · rename_i hnone
    left
    refine ⟨?_, rfl⟩
    intro src hsrc
    simpa using List.find?_eq_none.mp hnone src hsrc
  · right
    dsimp only
    split
    · rename_i s hpull
      refine ⟨s, rfl, .inr ?_⟩
      unfold peerPullBlob at hpull
      split at hpull
      · cases hpull
      · split at hpull
        · cases hpull
        · split at hpull
          · cases hpull
          · rename_i t stored hw
            cases hpull
            exact ⟨_, stored, hw⟩
    · exact ⟨_, rfl, .inl rfl⟩

theorem pullReplica_apart (hb : vol.backend.external = false) (hne : vol.id ≠ id)
    (hback : ((w self).getVolume vol.id).bind (·.backingId) = vol.backingId) :
    Apart self id w (pullReplica env self w vol) := by
  obtain ⟨hcluster, hstore⟩ := Host.ensureLocal_node env self (w self) vol
  have hcopy := Host.copy_ensureLocal env self hb (w self) id
  rw [if_neg hne] at hcopy
  rcases pullReplica_cases env self w vol with
    ⟨-, hsame⟩ | ⟨s, hup, hs⟩
  · rw [hsame]
    exact .refl w
  · rw [hup]
    rcases hs with rfl | ⟨bytes, stored, hw⟩
    · exact .update hcopy hcluster hstore (fun _ j => backing_ensureLocal hb hback j)
    · obtain ⟨_, -, -, -, -, -, hstore', hcluster', -⟩ := Host.writeBlobFromPath_ok hw
      refine .update ?_ (hcluster'.trans hcluster) (hstore'.trans hstore) ?_
      · rw [Host.copy_writeBlob hw, if_neg (Ne.symm hne), hcopy]
      · intro _ j
        rw [backing_writeBlob hw, backing_ensureLocal hb hback]

/-- Whatever the peer answers, we have a file after a pull, and we pull for ourselves only. -/
theorem pullReplica_spec (env : Env) (self : NodeId) (w : Fleet β) (vol : VolumeRecord)
    (hb : vol.backend.external = false) :
    (∀ n, n ≠ self → pullReplica env self w vol n = w n) ∧
      ((∃ src ∈ vol.replicas, src ≠ self) →
        ((pullReplica env self w vol self).copy vol.id).file vol.format ≠ none ∧
        ∃ record, (pullReplica env self w vol self).getVolume vol.id = some record ∧
          record.replicas = vol.replicas) := by
  have hcopy := Host.copy_ensureLocal env self hb (w self) vol.id
  rw [if_pos rfl] at hcopy
  have hreplicas : vol.localize.replicas = vol.replicas := by simp [VolumeRecord.localize, hb]
  rcases pullReplica_cases env self w vol with
    ⟨hall, hsame⟩ | ⟨s, hup, hs⟩
  · refine ⟨fun n _ => by rw [hsame], ?_⟩
    rintro ⟨src, hsrc, hne⟩
    exact absurd (hall src hsrc) hne
  · refine ⟨fun n hn => by rw [hup, Function.update_of_ne hn], fun _ => ?_⟩
    rw [hup, Function.update_self]
    rcases hs with rfl | ⟨bytes, stored, hw⟩
    · refine ⟨?_, _, congrArg Copy.record hcopy, hreplicas⟩
      rw [hcopy]
      simp [Copy.ensure]
    · have hwrite := Host.copy_writeBlob hw vol.id
      rw [if_pos rfl, hcopy] at hwrite
      have hext : vol.localize.backend.external = false := by simpa using hb
      have hformat : vol.localize.format = vol.format := by simp [VolumeRecord.localize, hb]
      simp only [Copy.ensure, Copy.write, hext, Bool.false_eq_true, if_false, hformat] at hwrite
      refine ⟨?_, _, congrArg Copy.record hwrite, hreplicas⟩
      rw [hwrite]
      simp

/-- A node's copy after the ensure step of a pass. -/
def ensuredCopy (env : Env) (online : List NodeId) (self : NodeId) (w : Fleet β)
    (vol : VolumeRecord) (n : NodeId) : Copy β :=
  let record := rebuiltRecord online self vol
  let c := if n = self then { (w n).copy vol.id with record := some record.localize }
    else (w n).copy vol.id
  if n ∈ record.replicas then
    if reached env (w self) online self n vol.id then c.ensure env n record else c
  else c

theorem ensuredCopy_self_record :
    (ensuredCopy env online self w vol self).record =
      some (rebuiltRecord online self vol).localize := by
  unfold ensuredCopy
  dsimp only
  split
  · split
    · rfl
    · simp
  · simp

@[simp] theorem rebuiltRecord_id : (rebuiltRecord online self vol).id = vol.id := rfl

@[simp] theorem rebuiltRecord_backend :
    (rebuiltRecord online self vol).backend = vol.backend := rfl

section
variable (hv : (w self).getVolume vol.id = some vol) (hb : vol.backend.external = false)
include hv hb

theorem putRebuilt_apart (online : List NodeId) (hne : vol.id ≠ id) :
    Apart self id w
      (Function.update w self ((w self).putRecord (rebuiltRecord online self vol))) := by
  refine .update ?_ rfl rfl ?_
  · rw [Host.copy_putRecord, rebuiltRecord_id, if_neg hne]
  · intro _ j
    rw [Host.getVolume_putRecord]
    split
    · rename_i hj
      have hid : vol.id = j := hj
      subst hid
      rw [hv]
      simp [VolumeRecord.localize, rebuiltRecord, hb]
    · rfl

theorem ensureRebuilt_copy (env : Env) (online : List NodeId) (n : NodeId) :
    (ensureReplicas env online self
      (Function.update w self ((w self).putRecord (rebuiltRecord online self vol)))
      (rebuiltRecord online self vol) n).copy vol.id = ensuredCopy env online self w vol n := by
  have hext : (rebuiltRecord online self vol).backend.external = false := hb
  have hmid : ∀ m, (Function.update w self
      ((w self).putRecord (rebuiltRecord online self vol)) m).copy vol.id =
      if m = self then { (w m).copy vol.id with
        record := some (rebuiltRecord online self vol).localize }
      else (w m).copy vol.id := by
    intro m
    by_cases hm : m = self
    · subst hm
      rw [Function.update_self, Host.copy_putRecord, rebuiltRecord_id, if_pos rfl, if_pos rfl]
    · rw [Function.update_of_ne hm, if_neg hm]
  have hreach : reached env (Function.update w self
      ((w self).putRecord (rebuiltRecord online self vol)) self) online self n vol.id =
      reached env (w self) online self n vol.id :=
    reached_congr (by rw [Function.update_self]; rfl)
  have hcopy := ensureReplicas_copy env online self
    (Function.update w self ((w self).putRecord (rebuiltRecord online self vol))) hext n
  have hid : (rebuiltRecord online self vol).id = vol.id := rfl
  rw [hid] at hcopy
  rw [hcopy, hmid n, hreach]
  rfl

theorem rebuildVolume_apart (hne : vol.id ≠ id) :
    Apart self id w (rebuildVolume env online self w vol) := by
  unfold rebuildVolume
  split
  · exact .refl w
  · have hput := putRebuilt_apart hv hb online hne
    have hback : ((Function.update w self ((w self).putRecord (rebuiltRecord online self vol))
        self).getVolume vol.id).bind (·.backingId) = vol.backingId := by
      rw [Function.update_self, Host.getVolume_putRecord, rebuiltRecord_id, if_pos rfl]
      simp [VolumeRecord.localize, rebuiltRecord, hb]
    have hens := ensureReplicas_apart env online
      (rebuiltRecord online self vol) hb hne hback
    have hcopy := ensureRebuilt_copy hv hb env online self
    have hrecord := congrArg Copy.record hcopy
    rw [ensuredCopy_self_record] at hrecord
    have hget : (ensureReplicas env online self
        (Function.update w self ((w self).putRecord (rebuiltRecord online self vol)))
        (rebuiltRecord online self vol) self).getVolume vol.id =
        some (rebuiltRecord online self vol).localize := hrecord
    refine (hput.trans hens).trans ?_
    dsimp only
    split
    · exact syncVolumeReplicas_apart hne hget (by simpa using hb)
        (by simp [VolumeRecord.localize, rebuiltRecord, hb])
    · refine pullReplica_apart hb hne ?_
      rw [show (rebuiltRecord online self vol).id = vol.id from rfl, hget]
      simp [VolumeRecord.localize, rebuiltRecord, hb]

/-- What a pass makes of a volume in use: the new replica list; then, if the leader has a file
after the ensure step, its bytes at each other replica that accepts them, and if it has none,
some file at the leader. -/
theorem rebuildVolume_spec (env : Env) (online : List NodeId)
    (hatt : (w self).attached vol.id = true) :
    (∃ record, (rebuildVolume env online self w vol self).getVolume vol.id = some record ∧
      record.replicas = rebuiltReplicas online self vol) ∧
    (∀ file, (ensuredCopy env online self w vol self).file vol.format = some file → ∀ n,
      (rebuildVolume env online self w vol n).copy vol.id =
        if n ∈ rebuiltReplicas online self vol then
          if n ≠ self ∧ online.contains n = true ∧
              (ensuredCopy env online self w vol n).accepts env (w self) n vol.id file = true then
            (ensuredCopy env online self w vol n).write file
          else ensuredCopy env online self w vol n
        else ensuredCopy env online self w vol n) ∧
    ((ensuredCopy env online self w vol self).file vol.format = none →
      (∀ n, n ≠ self → (rebuildVolume env online self w vol n).copy vol.id =
        ensuredCopy env online self w vol n) ∧
      ((rebuildVolume env online self w vol self).copy vol.id).file vol.format ≠ none) := by
  have hcopy := ensureRebuilt_copy hv hb env online
  have hcluster : ∀ m, (ensureReplicas env online self
      (Function.update w self ((w self).putRecord (rebuiltRecord online self vol)))
      (rebuiltRecord online self vol) m).node.cluster = (w m).node.cluster := by
    intro m
    refine foldl_preserves (P := fun u : Fleet β => (u m).node.cluster = (w m).node.cluster)
      (fun u k _ hu => ensureReplica_cluster.trans hu) ?_
    by_cases hm : m = self
    · subst hm
      rw [Function.update_self]
      rfl
    · rw [Function.update_of_ne hm]
  unfold rebuildVolume
  simp only [hb, hatt, Bool.not_true, Bool.or_self, Bool.false_eq_true, if_false]
  generalize hu : ensureReplicas env online self
    (Function.update w self ((w self).putRecord (rebuiltRecord online self vol)))
    (rebuiltRecord online self vol) = u at hcopy hcluster
  have hget : (u self).getVolume vol.id = some (rebuiltRecord online self vol).localize := by
    have := congrArg Copy.record (hcopy self)
    rwa [ensuredCopy_self_record] at this
  have hlext : (rebuiltRecord online self vol).localize.backend.external = false := by
    simpa using hb
  have hlpath : (rebuiltRecord online self vol).localize.path = .disk vol.id vol.format := by
    simp [VolumeRecord.localize, rebuiltRecord, hb]
  have hlreplicas : (rebuiltRecord online self vol).localize.replicas =
      rebuiltReplicas online self vol := by
    simp [VolumeRecord.localize, rebuiltRecord, hb]
  have hfile : (u self).files (.disk vol.id vol.format) =
      (ensuredCopy env online self w vol self).file vol.format :=
    congrFun (congrArg Copy.file (hcopy self)) vol.format
  have hlocal : (u self).hasLocal (rebuiltRecord online self vol).id
      (rebuiltRecord online self vol).format =
      ((ensuredCopy env online self w vol self).file vol.format).isSome := by
    rw [← hfile]
    rfl
  cases hlead : (ensuredCopy env online self w vol self).file vol.format with
  | some file =>
    rw [hlead] at hlocal hfile
    rw [if_pos (by rw [hlocal]; rfl)]
    have hsync := fun n => syncVolumeReplicas_copy env online
      (rebuiltRecord online self vol) hb hget hlext hlpath hfile n
    have hmain : ∀ n, (syncVolumeReplicas env online self u (rebuiltRecord online self vol)
        n).copy vol.id =
        if n ∈ rebuiltReplicas online self vol then
          if n ≠ self ∧ online.contains n = true ∧
              (ensuredCopy env online self w vol n).accepts env (w self) n vol.id file = true then
            (ensuredCopy env online self w vol n).write file
          else ensuredCopy env online self w vol n
        else ensuredCopy env online self w vol n := by
      intro n
      have := hsync n
      rw [show (rebuiltRecord online self vol).id = vol.id from rfl, hcopy n,
        Copy.accepts_congr (hcluster self)] at this
      exact this
    refine ⟨?_, ?_, fun hnone => by cases hnone⟩
    · have hself := hmain self
      simp only [ne_eq, not_true_eq_false, false_and, if_false, ite_self] at hself
      have hrec := congrArg Copy.record hself
      rw [ensuredCopy_self_record] at hrec
      exact ⟨_, hrec, hlreplicas⟩
    · intro file' hfile' n
      cases hfile'
      exact hmain n
  | none =>
    rw [hlead] at hlocal hfile
    rw [if_neg (by rw [hlocal]; simp)]
    have hself : self ∉ rebuiltReplicas online self vol := by
      intro hmem
      have hmem' : self ∈ (rebuiltRecord online self vol).replicas := hmem
      simp only [ensuredCopy, hmem', reached, if_true, decide_true, Bool.true_or, Copy.ensure,
        show (rebuiltRecord online self vol).format = vol.format from rfl,
        Function.update_self] at hlead
      cases hlead
    obtain ⟨src, hsrc⟩ := List.exists_mem_of_ne_nil _
      (rebuiltReplicas_ne_nil online self vol)
    have hother : ∃ src ∈ (rebuiltRecord online self vol).replicas, src ≠ self :=
      ⟨src, hsrc, fun h => hself (h ▸ hsrc)⟩
    obtain ⟨hkeep, hpull⟩ := pullReplica_spec env self u
      (rebuiltRecord online self vol) hb
    obtain ⟨hsome, record, hrec, hreplicas⟩ := hpull hother
    refine ⟨⟨record, hrec, hreplicas⟩, fun file hf => (by cases hf), fun _ => ⟨?_, hsome⟩⟩
    intro n hn
    rw [hkeep n hn]
    exact hcopy n

end

end Pertisk.Storage
