import Pertisk.Storage.Copy

namespace Pertisk.Storage
open Lib

variable {β : Type} [Contents β] {env : Env} {self n : NodeId} {online : List NodeId}
variable {w w' : Fleet β} {vol : VolumeRecord} {id j : VolumeId}

/-- The ensure step of a pass comes through at this node. -/
def reached (env : Env) (s : Host β) (online : List NodeId) (self n : NodeId)
    (id : VolumeId) : Bool :=
  decide (n = self) || (online.contains n && decide (Answers env s n (.ensure id)))

/-- Work on other volumes, seen from volume `id`. -/
structure Apart (leader : NodeId) (id : VolumeId) (w w' : Fleet β) : Prop where
  copy : ∀ n, (w' n).copy id = (w n).copy id
  cluster : ∀ n, (w' n).node.cluster = (w n).node.cluster
  store : ∀ n, (w' n).node.store = (w n).node.store
  backing : ∀ j, ((w' leader).getVolume j).bind (·.backingId) =
    ((w leader).getVolume j).bind (·.backingId)

namespace Apart

theorem refl (w : Fleet β) : Apart self id w w :=
  ⟨fun _ => rfl, fun _ => rfl, fun _ => rfl, fun _ => rfl⟩

theorem trans {u : Fleet β} (h : Apart self id w u) (h' : Apart self id u w') :
    Apart self id w w' :=
  ⟨fun n => (h'.copy n).trans (h.copy n), fun n => (h'.cluster n).trans (h.cluster n),
    fun n => (h'.store n).trans (h.store n), fun j => (h'.backing j).trans (h.backing j)⟩

/-- A change of one node that leaves alone what the other volumes are seen by. -/
theorem update {n : NodeId} {d : Host β} (hcopy : d.copy id = (w n).copy id)
    (hcluster : d.node.cluster = (w n).node.cluster) (hstore : d.node.store = (w n).node.store)
    (hbacking : n = self → ∀ j, (d.getVolume j).bind (·.backingId) =
      ((w n).getVolume j).bind (·.backingId)) :
    Apart self id w (Function.update w n d) := by
  refine ⟨?_, ?_, ?_, ?_⟩
  · intro m
    by_cases hm : m = n
    · subst hm
      simpa using hcopy
    · simp [hm]
  · intro m
    by_cases hm : m = n
    · subst hm
      simpa using hcluster
    · simp [hm]
  · intro m
    by_cases hm : m = n
    · subst hm
      simpa using hstore
    · simp [hm]
  · intro j
    by_cases hn : n = self
    · subst hn
      simpa using hbacking rfl j
    · rw [Function.update_of_ne (Ne.symm hn)]

end Apart

theorem backing_ensureLocal {h : Host β} (hb : vol.backend.external = false)
    (hback : (h.getVolume vol.id).bind (·.backingId) = vol.backingId) (j : VolumeId) :
    (((h.ensureLocal env n vol).1.getVolume j).bind (·.backingId)) =
      (h.getVolume j).bind (·.backingId) := by
  have hcopy := Host.copy_ensureLocal env n hb h j
  have hrecord := congrArg Copy.record hcopy
  by_cases hj : vol.id = j
  · subst hj
    rw [if_pos rfl] at hrecord
    have hget : (h.ensureLocal env n vol).1.getVolume vol.id = some vol.localize := hrecord
    rw [hget, hback]
    simp [VolumeRecord.localize, hb]
  · rw [if_neg hj] at hrecord
    have hget : (h.ensureLocal env n vol).1.getVolume j = h.getVolume j := hrecord
    rw [hget]

theorem backing_writeBlob {h t : Host β} {bytes : β} {stored : VolumeRecord}
    (hw : h.writeBlobFromPath id bytes = .ok (t, stored)) (j : VolumeId) :
    (t.getVolume j).bind (·.backingId) = (h.getVolume j).bind (·.backingId) := by
  obtain ⟨record, hr, -, -, hget, hother, -⟩ := Host.writeBlobFromPath_ok hw
  by_cases hj : j = id
  · subst hj
    rw [hget, hr]
    rfl
  · rw [hother j hj]

/-! ### The ensure step -/

theorem ensureReplica_eq (m : NodeId) :
    ensureReplica env online self vol w m =
      if reached env (w self) online self m vol.id then
        Function.update w m ((w m).ensureLocal env m vol).1
      else w := by
  unfold ensureReplica reached
  by_cases hm : m = self
  · subst hm
    simp
  · cases honline : online.contains m with
    | false => simp [hm]
    | true =>
      cases hcall : call env (w self) m (.ensure vol.id)
        (.ok ((w m).ensureLocal env m vol)) with
      | ok pair =>
        obtain ⟨hans, hpair⟩ := call_ok hcall
        cases hpair
        simp [hm, hans]
      | error err =>
        have hans : ¬ Answers env (w self) m (.ensure vol.id) := by
          intro hans
          rw [call_answers hans] at hcall
          cases hcall
        simp [hm, hans]

theorem ensureReplica_apart (hb : vol.backend.external = false) (hne : vol.id ≠ id)
    (hback : ((w self).getVolume vol.id).bind (·.backingId) = vol.backingId) (m : NodeId) :
    Apart self id w (ensureReplica env online self vol w m) := by
  rw [ensureReplica_eq]
  split
  · obtain ⟨hcluster, hstore⟩ := Host.ensureLocal_node env m (w m) vol
    refine .update ?_ hcluster hstore ?_
    · rw [Host.copy_ensureLocal _ _ hb, if_neg hne]
    · rintro rfl j
      exact backing_ensureLocal hb hback j
  · exact .refl w

theorem ensureReplicas_apart (env : Env) (online : List NodeId) (vol : VolumeRecord)
    (hb : vol.backend.external = false) (hne : vol.id ≠ id)
    (hback : ((w self).getVolume vol.id).bind (·.backingId) = vol.backingId) :
    Apart self id w (ensureReplicas env online self w vol) := by
  refine foldl_preserves (P := fun u => Apart self id w u) ?_ (.refl w)
  intro u m _ hu
  exact hu.trans (ensureReplica_apart hb hne ((hu.backing vol.id).trans hback) m)

theorem ensureReplica_self (hb : vol.backend.external = false) (m : NodeId) :
    ((ensureReplica env online self vol w m) m).copy vol.id =
      if reached env (w self) online self m vol.id then ((w m).copy vol.id).ensure env m vol
      else (w m).copy vol.id := by
  rw [ensureReplica_eq]
  split
  · rw [Function.update_self, Host.copy_ensureLocal _ _ hb, if_pos rfl]
  · rfl

theorem ensureReplica_other {m k : NodeId} (hk : k ≠ m) :
    ensureReplica env online self vol w m k = w k := by
  rw [ensureReplica_eq]
  split
  · exact Function.update_of_ne hk _ _
  · rfl

theorem ensureReplica_cluster {m k : NodeId} :
    (ensureReplica env online self vol w m k).node.cluster = (w k).node.cluster := by
  by_cases hk : k = m
  · subst hk
    rw [ensureReplica_eq]
    split
    · rw [Function.update_self]
      exact (Host.ensureLocal_node env k (w k) vol).1
    · rfl
  · rw [ensureReplica_other hk]

/-- Every replica that is reached has a file afterwards: the one it had, or a blank one. -/
theorem ensureReplicas_copy (env : Env) (online : List NodeId) (self : NodeId) (w : Fleet β)
    (hb : vol.backend.external = false) (n : NodeId) :
    (ensureReplicas env online self w vol n).copy vol.id =
      if n ∈ vol.replicas then
        if reached env (w self) online self n vol.id then ((w n).copy vol.id).ensure env n vol
        else (w n).copy vol.id
      else (w n).copy vol.id := by
  refine foldl_local (P := fun u : Fleet β => (u self).node.cluster = (w self).node.cluster)
    (fun h : Host β => h.copy vol.id) (g := fun n (c : Copy β) =>
      if reached env (w self) online self n vol.id then c.ensure env n vol else c)
    ?_ ?_ ?_ ?_ vol.replicas rfl n
  · intro u m hu
    exact ensureReplica_cluster.trans hu
  · intro u m hu
    have hreach : reached env (u self) online self m vol.id =
        reached env (w self) online self m vol.id := by
      simp only [reached, Answers.congr hu]
    rw [ensureReplica_self hb, hreach]
  · intro u m k _ hk
    exact ensureReplica_other hk
  · intro m c
    split
    · exact Copy.ensure_ensure
    · rfl

/-! ### The push step -/

theorem syncReplica_cases (env : Env) (online : List NodeId) (self : NodeId) (id : VolumeId)
    (w : Fleet β) (m : NodeId) :
    syncReplica env online self id w m = w ∨
      (m ≠ self ∧ online.contains m = true ∧ ∃ d, peerPutBlob env m (w self) (w m) id = .ok d ∧
        syncReplica env online self id w m = Function.update w m d) := by
  unfold syncReplica
  split
  · exact .inl rfl
  · rename_i hguard
    simp only [Bool.or_eq_true, decide_eq_true_eq, Bool.not_eq_eq_eq_not, Bool.not_true,
      not_or, Bool.not_eq_false] at hguard
    split
    · rename_i d hput
      exact .inr ⟨hguard.1, hguard.2, d, hput, rfl⟩
    · exact .inl rfl

theorem syncReplica_apart (hne : vol.id ≠ id) {record : VolumeRecord} {file : β}
    (hr : (w self).getVolume vol.id = some record) (hb : record.backend.external = false)
    (hf : (w self).files record.path = some file) (m : NodeId) :
    Apart self id w (syncReplica env online self vol.id w m) := by
  rcases syncReplica_cases env online self vol.id w m with hsame | ⟨hm, -, d, hput, hup⟩
  · rw [hsame]
    exact .refl w
  · rw [hup]
    rcases peerPutBlob_ok hr hb hf hput with ⟨-, rfl⟩ | ⟨-, -, stored, hw⟩
    · rw [Function.update_eq_self]
      exact .refl w
    · obtain ⟨_, -, -, -, -, -, hstore, hcluster, -⟩ := Host.writeBlobFromPath_ok hw
      refine .update ?_ hcluster hstore (fun h => absurd h hm)
      rw [Host.copy_writeBlob hw, if_neg (Ne.symm hne)]

theorem syncReplica_at_self (m : NodeId) : syncReplica env online self id w m self = w self := by
  rcases syncReplica_cases env online self id w m with hsame | ⟨hm, -, d, -, hup⟩
  · rw [hsame]
  · rw [hup, Function.update_of_ne (Ne.symm hm)]

theorem syncVolumeReplicas_apart (hne : vol.id ≠ id) {record : VolumeRecord}
    (hr : (w self).getVolume vol.id = some record) (hb : record.backend.external = false)
    (hpath : record.path = .disk vol.id vol.format) :
    Apart self id w (syncVolumeReplicas env online self w vol) := by
  unfold syncVolumeReplicas
  split
  · exact .refl w
  · rename_i hguard
    simp only [Bool.or_eq_true, Bool.not_eq_eq_eq_not, Bool.not_true, not_or, Bool.not_eq_true,
      Bool.not_eq_false] at hguard
    obtain ⟨file, hfile⟩ := Option.isSome_iff_exists.mp hguard.2
    have hf : (w self).files record.path = some file := by rw [hpath]; exact hfile
    have hmain : Apart self id w (vol.replicas.foldl (syncReplica env online self vol.id) w) ∧
        (vol.replicas.foldl (syncReplica env online self vol.id) w) self = w self := by
      refine foldl_preserves (P := fun u => Apart self id w u ∧ u self = w self) ?_
        ⟨.refl w, rfl⟩
      intro u m _ ⟨hu, hself⟩
      refine ⟨hu.trans (syncReplica_apart hne (hself ▸ hr) hb (hself ▸ hf) m), ?_⟩
      rw [syncReplica_at_self, hself]
    exact hmain.1

/-- Every other online replica that accepts the push has the pusher's file afterwards. -/
theorem syncVolumeReplicas_copy (env : Env) (online : List NodeId) (vol : VolumeRecord)
    {record : VolumeRecord} {file : β}
    (hvb : vol.backend.external = false) (hr : (w self).getVolume vol.id = some record)
    (hb : record.backend.external = false) (hpath : record.path = .disk vol.id vol.format)
    (hf : (w self).files (.disk vol.id vol.format) = some file) (n : NodeId) :
    (syncVolumeReplicas env online self w vol n).copy vol.id =
      if n ∈ vol.replicas then
        if n ≠ self ∧ online.contains n = true ∧
            ((w n).copy vol.id).accepts env (w self) n vol.id file = true then
          ((w n).copy vol.id).write file
        else (w n).copy vol.id
      else (w n).copy vol.id := by
  have hsrc : (w self).files record.path = some file := by rw [hpath, hf]
  have hlocal : (w self).hasLocal vol.id vol.format = true := by simp [Host.hasLocal, hf]
  unfold syncVolumeReplicas
  simp only [hvb, hlocal, Bool.not_true, Bool.or_self, Bool.false_eq_true, if_false]
  refine foldl_local (P := fun u : Fleet β => u self = w self)
    (fun h : Host β => h.copy vol.id) (g := fun n (c : Copy β) =>
      if n ≠ self ∧ online.contains n = true ∧ c.accepts env (w self) n vol.id file = true then
        c.write file else c)
    ?_ ?_ ?_ ?_ vol.replicas rfl n
  · intro u m hu
    rw [syncReplica_at_self, hu]
  · intro u m hu
    by_cases hm : m ≠ self ∧ online.contains m = true
    · cases ha : ((u m).copy vol.id).accepts env (w self) m vol.id file with
      | true =>
        obtain ⟨d, stored, hput, hw⟩ := peerPutBlob_accepted hr hb hsrc ha
        have hstep : syncReplica env online self vol.id u m = Function.update u m d := by
          unfold syncReplica
          rw [hu, hput]
          have hguard : ¬ ((decide (m = self) || !online.contains m) = true) := by
            rw [hm.2]
            simp [hm.1]
          rw [if_neg hguard]
        rw [hstep, Function.update_self, Host.copy_writeBlob hw, if_pos rfl]
        rw [if_pos ⟨hm.1, hm.2, rfl⟩]
      | false =>
        rw [if_neg (by simp)]
        rcases syncReplica_cases env online self vol.id u m with hsame | ⟨-, -, d, hput, hup⟩
        · rw [hsame]
        · rw [hu] at hput
          rw [hup, peerPutBlob_refused hr hb hsrc ha hput, Function.update_self]
    · have hstep : syncReplica env online self vol.id u m = u := by
        rcases syncReplica_cases env online self vol.id u m with hsame | ⟨h1, h2, -⟩
        · exact hsame
        · exact absurd ⟨h1, h2⟩ hm
      rw [hstep, if_neg (fun h => hm ⟨h.1, h.2.1⟩)]
  · intro u m k _ hk
    rcases syncReplica_cases env online self vol.id u m with hsame | ⟨-, -, d, -, hup⟩
    · rw [hsame]
    · rw [hup, Function.update_of_ne hk]
  · intro m c
    split
    · split
      · exact Copy.write_write
      · rfl
    · rfl

end Pertisk.Storage
