import Pertisk.Storage.Copies
import Pertisk.Storage.Pass

namespace Pertisk.Storage
open Lib

variable {β : Type} [Contents β] {env : Env} {self n : NodeId} {online : List NodeId}
variable {w u : Fleet β} {vol : VolumeRecord} {id : VolumeId} {now : Nat}

/-! ### The whole pass -/

theorem Host.mem_listVolumes {h : Host β} (hv : vol ∈ h.node.listVolumes) :
    h.getVolume vol.id = some vol := by
  obtain ⟨v, hrow, rfl⟩ := List.mem_map.mp hv
  have hget : h.node.volumes.get v.id = some v := Table.get_of_mem hrow
  exact Option.map_eq_some_iff.mpr ⟨v, hget, rfl⟩

theorem Host.listVolumes_of_get {h : Host β} (hv : h.getVolume id = some vol) :
    vol ∈ h.node.listVolumes := by
  obtain ⟨v, hrow, rfl⟩ := Option.map_eq_some_iff.mp hv
  exact List.mem_map_of_mem (Table.mem_of_get hrow)

theorem Host.listVolumes_ids (h : Host β) :
    h.node.listVolumes.Pairwise (fun a b => a.id ≠ b.id) := by
  refine List.pairwise_map.mpr (h.node.volumes.sorted.imp ?_)
  intro a b hlt
  exact Nat.ne_of_lt hlt

theorem Host.volumeIsBacking_iff {h : Host β} :
    h.volumeIsBacking id = true ↔ ∃ j, (h.getVolume j).bind (·.backingId) = some id := by
  unfold volumeIsBacking
  rw [List.any_eq_true]
  constructor
  · rintro ⟨v, hv, hback⟩
    refine ⟨v.id, ?_⟩
    rw [mem_listVolumes hv]
    simpa using hback
  · rintro ⟨j, hj⟩
    obtain ⟨v, hv, hback⟩ := Option.bind_eq_some_iff.mp hj
    exact ⟨v, listVolumes_of_get hv, by simpa using hback⟩

theorem Apart.attached (h : Apart self id w u) :
    (u self).attached id = (w self).attached id := by
  have hback : (u self).volumeIsBacking id = (w self).volumeIsBacking id := by
    rw [Bool.eq_iff_iff, Host.volumeIsBacking_iff, Host.volumeIsBacking_iff]
    simp only [h.backing]
  unfold Host.attached Host.volumeUsers
  rw [h.store self, hback]

theorem Apart.getVolume (h : Apart self id w u) (n : NodeId) :
    (u n).getVolume id = (w n).getVolume id := congrArg Copy.record (h.copy n)

theorem Apart.ensuredCopy (h : Apart self vol.id w u) (n : NodeId) :
    ensuredCopy env online self u vol n = ensuredCopy env online self w vol n := by
  have hreach : reached env (u self) online self n vol.id =
      reached env (w self) online self n vol.id := reached_congr (h.cluster self)
  unfold Storage.ensuredCopy
  rw [hreach, h.copy n]

theorem rebuildVolume_apart' (env : Env) (online : List NodeId)
    (hv : (w self).getVolume vol.id = some vol) (hne : vol.id ≠ id) :
    Apart self id w (rebuildVolume env online self w vol) := by
  cases hb : vol.backend.external with
  | false => exact rebuildVolume_apart hv hb hne
  | true =>
    unfold rebuildVolume
    rw [hb, Bool.true_or, if_pos rfl]
    exact .refl w

theorem foldl_rebuild_apart {vols : List VolumeRecord} (hids : ∀ v ∈ vols, v.id ≠ id)
    (hnodup : vols.Pairwise (fun a b => a.id ≠ b.id))
    (hget : ∀ v ∈ vols, (w self).getVolume v.id = some v) :
    Apart self id w (vols.foldl (rebuildVolume env online self) w) := by
  induction vols generalizing w with
  | nil => exact .refl w
  | cons v vs ih =>
    obtain ⟨hv, hvs⟩ := List.pairwise_cons.mp hnodup
    have hfirst := hget v List.mem_cons_self
    have hstep := rebuildVolume_apart' env online hfirst
      (hids v List.mem_cons_self)
    refine hstep.trans ?_
    refine ih (fun x hx => hids x (List.mem_cons_of_mem _ hx)) hvs ?_
    intro x hx
    rw [(rebuildVolume_apart' env online hfirst (hv x hx)).getVolume]
    exact hget x (List.mem_cons_of_mem _ hx)

/-- In a pass a volume is worked on once, and the other volumes' turns do not concern it. -/
theorem rebuildVolumes_split (env : Env) (now : Nat)
    (hv : (w self).getVolume vol.id = some vol) :
    ∃ u, Apart self vol.id w u ∧
      Apart self vol.id
        (rebuildVolume env ((w self).node.cluster.onlineIds now) self u vol)
        (rebuildVolumes env now self w) := by
  obtain ⟨before, after, hlist⟩ := List.append_of_mem (Host.listVolumes_of_get hv)
  have hids := (w self).listVolumes_ids
  have hget : ∀ v ∈ (w self).node.listVolumes, (w self).getVolume v.id = some v :=
    fun v hv => Host.mem_listVolumes hv
  unfold rebuildVolumes
  rw [hlist] at hids hget ⊢
  rw [List.foldl_append, List.foldl_cons]
  generalize (w self).node.cluster.onlineIds now = online
  obtain ⟨hbefore, hrest, hcross⟩ := List.pairwise_append.mp hids
  obtain ⟨hafter, hpost⟩ := List.pairwise_cons.mp hrest
  have hgetb : ∀ v ∈ before, (w self).getVolume v.id = some v :=
    fun v hv => hget v (List.mem_append_left _ hv)
  have happart : ∀ {i}, (∀ v ∈ before, v.id ≠ i) →
      Apart self i w (before.foldl (rebuildVolume env online self) w) :=
    fun hi => foldl_rebuild_apart hi hbefore hgetb
  have hself := happart (fun v hv => hcross v hv vol List.mem_cons_self)
  refine ⟨_, hself, ?_⟩
  refine foldl_rebuild_apart (fun v hv => Ne.symm (hafter v hv)) hpost ?_
  intro v hvafter
  have hturn : (before.foldl (rebuildVolume env online self) w self).getVolume vol.id =
      some vol := by
    rw [hself.getVolume, hv]
  rw [(rebuildVolume_apart' env online hturn (hafter v hvafter)).getVolume,
    (happart (fun x hx => hcross x hx v (List.mem_cons_of_mem _ hvafter))).getVolume]
  exact hget v (List.mem_append_right _ (List.mem_cons_of_mem _ hvafter))

/-! ### Who holds the data -/

/-- A listed replica that has the volume's data. -/
def Holder (w : Fleet β) (vol : VolumeRecord) (data : β) (n : NodeId) : Prop :=
  n ∈ vol.replicas ∧ (w n).files (.disk vol.id vol.format) = some data

/-- A volume that a pass works on. -/
def Processed (w : Fleet β) (self : NodeId) (vol : VolumeRecord) : Prop :=
  vol.backend.external = false ∧ (w self).attached vol.id = true

/-- The leader's file, as it is or made blank by the ensure step, is pushed to this node: the
node accepts it, and keeps the volume in the leader's format. -/
def Pushed (env : Env) (online : List NodeId) (self : NodeId) (w : Fleet β)
    (vol : VolumeRecord) (n : NodeId) (bytes : β) : Prop :=
  (ensuredCopy env online self w vol self).file vol.format = some bytes ∧
    (ensuredCopy env online self w vol n).accepts env (w self) n vol.id bytes = true ∧
    (ensuredCopy env online self w vol n).record.map (·.format) = some vol.format

/-- The node is the leader and has the data, or it is another one, is pushed nothing else, and
is pushed the data or has it. -/
def GetsData (env : Env) (online : List NodeId) (self : NodeId) (w : Fleet β)
    (vol : VolumeRecord) (data : β) (n : NodeId) : Prop :=
  if n = self then (ensuredCopy env online self w vol self).file vol.format = some data
  else
    (∀ bytes, Pushed env online self w vol n bytes → bytes = data) ∧
      (Pushed env online self w vol n data ∨
        (ensuredCopy env online self w vol n).file vol.format = some data)

/-- There is nothing to do: the list stays, the leader and every replica that is reached have a
file, and whoever would accept a push has the same bytes already. -/
structure Settled (env : Env) (online : List NodeId) (leader : NodeId) (w : Fleet β)
    (vol : VolumeRecord) : Prop where
  replicas : rebuiltReplicas online leader vol = vol.replicas
  own : (w leader).files (.disk vol.id vol.format) ≠ none
  filled : ∀ n ∈ vol.replicas, reached env (w leader) online leader n vol.id = true →
    (w n).files (.disk vol.id vol.format) ≠ none
  synced : ∀ n ∈ vol.replicas, n ≠ leader → ∀ bytes record,
    (w leader).files (.disk vol.id vol.format) = some bytes →
    (ensuredCopy env online leader w vol n).accepts env (w leader) n vol.id bytes = true →
    (ensuredCopy env online leader w vol n).record = some record →
    (w n).files (.disk vol.id record.format) = some bytes

theorem Copy.file_write {c : Copy β} {bytes : β} {s : Host β}
    (ha : c.accepts env s n id bytes = true) (format : VolumeFormat) :
    (c.write bytes).file format =
      if c.record.map (·.format) = some format then some bytes else c.file format := by
  unfold accepts at ha
  cases hr : c.record with
  | none => simp [hr] at ha
  | some record =>
    simp only [hr, Bool.and_eq_true, Bool.not_eq_eq_eq_not, Bool.not_true] at ha
    have hext := ha.1.1.1.1
    simp only [write, hr, hext, Bool.false_eq_true, if_false, Option.map_some, Option.some.injEq]
    by_cases hformat : record.format = format
    · subst hformat
      simp
    · rw [Function.update_of_ne (Ne.symm hformat), if_neg hformat]

theorem ensuredCopy_file_keep (env : Env) {online : List NodeId}
    (hn : n ∉ rebuiltReplicas online self vol ∨
    (w n).files (.disk vol.id vol.format) ≠ none ∨
      reached env (w self) online self n vol.id = false) (format : VolumeFormat) :
    (ensuredCopy env online self w vol n).file format = (w n).files (.disk vol.id format) := by
  have hstart : ∀ c : Copy β, c.file = ((w n).copy vol.id).file →
      (w n).files (.disk vol.id vol.format) ≠ none →
      (c.ensure env n (rebuiltRecord online self vol)).file format =
        (w n).files (.disk vol.id format) := by
    intro c hc hsome
    obtain ⟨old, hold⟩ := Option.ne_none_iff_exists'.mp hsome
    simp only [Copy.ensure, hc, show (rebuiltRecord online self vol).format = vol.format from rfl]
    by_cases hformat : format = vol.format
    · subst hformat
      simp [Host.copy, hold]
    · simp [Host.copy, hformat]
  unfold ensuredCopy
  dsimp only
  split
  · rename_i hmem
    split
    · rename_i hreach
      rcases hn with hn | hn | hn
      · exact absurd hmem hn
      · split
        · exact hstart _ rfl hn
        · exact hstart _ rfl hn
      · rw [hn] at hreach
        cases hreach
    · split
      · rfl
      · rfl
  · split
    · rfl
    · rfl

section
variable (hv : (w self).getVolume vol.id = some vol) (hp : Processed w self vol)
include hv hp

/-- What a listed node has after the pass. -/
theorem rebuild_getsData (env : Env) (online : List NodeId) (data : β)
    (hn : n ∈ rebuiltReplicas online self vol) :
    (rebuildVolume env online self w vol n).files (.disk vol.id vol.format) = some data ↔
      GetsData env online self w vol data n := by
  obtain ⟨-, hsome, hnone⟩ := rebuildVolume_spec hv hp.1 env online hp.2
  have hfile : (rebuildVolume env online self w vol n).files (.disk vol.id vol.format) =
      ((rebuildVolume env online self w vol n).copy vol.id).file vol.format := rfl
  rw [hfile]
  unfold GetsData
  by_cases hself : n = self
  · subst hself
    rw [if_pos rfl]
    cases hlead : (ensuredCopy env online n w vol n).file vol.format with
    | some file =>
      rw [hsome file hlead n, if_pos hn, if_neg (fun h => h.1 rfl), hlead]
    | none =>
      have hmem : n ∈ (rebuiltRecord online n vol).replicas := hn
      simp only [ensuredCopy, hmem, reached, if_true, decide_true, Bool.true_or, Copy.ensure,
        show (rebuiltRecord online n vol).format = vol.format from rfl,
        Function.update_self] at hlead
      cases hlead
  · rw [if_neg hself]
    have honline : online.contains n = true :=
      (rebuiltReplicas_online hn).resolve_left hself
    cases hlead : (ensuredCopy env online self w vol self).file vol.format with
    | none =>
      rw [(hnone hlead).1 n hself]
      have hno : ∀ bytes, ¬ Pushed env online self w vol n bytes := by
        intro bytes h
        rw [Pushed, hlead] at h
        cases h.1
      constructor
      · intro h
        exact ⟨fun bytes hb => absurd hb (hno bytes), .inr h⟩
      · rintro ⟨-, h | h⟩
        · exact absurd h (hno data)
        · exact h
    | some file =>
      rw [hsome file hlead n, if_pos hn]
      have hpush : ∀ bytes, Pushed env online self w vol n bytes ↔ file = bytes ∧
          (ensuredCopy env online self w vol n).accepts env (w self) n vol.id file = true ∧
          (ensuredCopy env online self w vol n).record.map (·.format) = some vol.format := by
        intro bytes
        rw [Pushed, hlead]
        constructor
        · rintro ⟨hb, ha, hf⟩
          obtain rfl := Option.some.inj hb
          exact ⟨rfl, ha, hf⟩
        · rintro ⟨rfl, ha, hf⟩
          exact ⟨rfl, ha, hf⟩
      by_cases hacc : (ensuredCopy env online self w vol n).accepts env (w self) n vol.id file =
          true
      · rw [if_pos ⟨hself, honline, hacc⟩, Copy.file_write hacc]
        by_cases hformat : (ensuredCopy env online self w vol n).record.map (·.format) =
            some vol.format
        · rw [if_pos hformat]
          constructor
          · intro h
            obtain rfl := Option.some.inj h
            exact ⟨fun bytes hb => ((hpush bytes).mp hb).1.symm,
              .inl ((hpush file).mpr ⟨rfl, hacc, hformat⟩)⟩
          · rintro ⟨h, -⟩
            rw [h file ((hpush file).mpr ⟨rfl, hacc, hformat⟩)]
        · rw [if_neg hformat]
          have hno : ∀ bytes, ¬ Pushed env online self w vol n bytes :=
            fun bytes h => hformat h.2.2
          constructor
          · intro h
            exact ⟨fun bytes hb => absurd hb (hno bytes), .inr h⟩
          · rintro ⟨-, h | h⟩
            · exact absurd h (hno data)
            · exact h
      · rw [if_neg (fun h => hacc h.2.2)]
        have hno : ∀ bytes, ¬ Pushed env online self w vol n bytes :=
          fun bytes h => hacc ((hpush bytes).mp h).2.1
        constructor
        · intro h
          exact ⟨fun bytes hb => absurd hb (hno bytes), .inr h⟩
        · rintro ⟨-, h | h⟩
          · exact absurd h (hno data)
          · exact h

/-- The pass changes nothing exactly when there is nothing to do. -/
theorem rebuild_unchanged_iff :
    ((∃ record, (rebuildVolume env online self w vol self).getVolume vol.id = some record ∧
        record.replicas = vol.replicas) ∧
      ∀ n format, (rebuildVolume env online self w vol n).files (.disk vol.id format) =
        (w n).files (.disk vol.id format)) ↔ Settled env online self w vol := by
  obtain ⟨⟨record, hrecord, hreplicas⟩, hsome, hnone⟩ :=
    rebuildVolume_spec hv hp.1 env online hp.2
  have hfiles : ∀ m format, (rebuildVolume env online self w vol m).files (.disk vol.id format) =
      ((rebuildVolume env online self w vol m).copy vol.id).file format := fun _ _ => rfl
  constructor
  · rintro ⟨⟨record', hrecord', hsame⟩, hkeep⟩
    obtain rfl : record = record' := Option.some.inj (hrecord.symm.trans hrecord')
    have hlist : rebuiltReplicas online self vol = vol.replicas := hreplicas.symm.trans hsame
    have hselfkeep : (w self).files (.disk vol.id vol.format) = none →
        self ∈ rebuiltReplicas online self vol → False := by
      intro hempty hmem
      have hset : (ensuredCopy env online self w vol self).file vol.format ≠ none := by
        have hmem' : self ∈ (rebuiltRecord online self vol).replicas := hmem
        simp [ensuredCopy, hmem', reached, Copy.ensure,
          show (rebuiltRecord online self vol).format = vol.format from rfl]
      obtain ⟨file, hfile⟩ := Option.ne_none_iff_exists'.mp hset
      have := hkeep self vol.format
      rw [hfiles, hsome file hfile self, if_pos hmem, if_neg (fun h => h.1 rfl), hfile,
        hempty] at this
      cases this
    have hleader : (w self).files (.disk vol.id vol.format) ≠ none := by
      intro hempty
      by_cases hmem : self ∈ rebuiltReplicas online self vol
      · exact hselfkeep hempty hmem
      · have hlead : (ensuredCopy env online self w vol self).file vol.format = none := by
          rw [ensuredCopy_file_keep env (.inl hmem), hempty]
        have hset := (hnone hlead).2
        rw [← hfiles, hkeep self vol.format] at hset
        exact hset hempty
    have hlead := @ensuredCopy_file_keep β _ self self w vol env online
      (.inr (.inl hleader)) vol.format
    obtain ⟨file, hfile⟩ := Option.ne_none_iff_exists'.mp hleader
    rw [hfile] at hlead
    refine ⟨hlist, hleader, ?_, ?_⟩
    · intro m hm hreach hempty
      rw [← hlist] at hm
      have hmem : m ∈ (rebuiltRecord online self vol).replicas := hm
      have hset : (ensuredCopy env online self w vol m).file vol.format ≠ none := by
        simp [ensuredCopy, hmem, hreach, Copy.ensure,
          show (rebuiltRecord online self vol).format = vol.format from rfl]
      have hafter := hkeep m vol.format
      rw [hfiles, hsome file hlead m, if_pos hm, hempty] at hafter
      split at hafter
      · rename_i hacc
        rw [Copy.file_write hacc.2.2] at hafter
        split at hafter
        · cases hafter
        · exact hset hafter
      · exact hset hafter
    · intro m hm hne bytes r hbytes hacc hr
      obtain rfl : file = bytes := Option.some.inj (hfile.symm.trans hbytes)
      rw [← hlist] at hm
      have honline : online.contains m = true := (rebuiltReplicas_online hm).resolve_left hne
      have hafter := hkeep m r.format
      rw [hfiles, hsome file hlead m, if_pos hm, if_pos ⟨hne, honline, hacc⟩,
        Copy.file_write hacc, hr, Option.map_some, if_pos rfl] at hafter
      exact hafter.symm
  · intro h
    refine ⟨⟨record, hrecord, hreplicas.trans h.replicas⟩, ?_⟩
    intro m format
    have hkeep : ∀ k, (ensuredCopy env online self w vol k).file =
        fun format => (w k).files (.disk vol.id format) := by
      intro k
      funext format
      apply ensuredCopy_file_keep
      by_cases hk : k ∈ rebuiltReplicas online self vol
      · cases hreach : reached env (w self) online self k vol.id with
        | false => exact .inr (.inr rfl)
        | true => exact .inr (.inl (h.filled k (h.replicas ▸ hk) hreach))
      · exact .inl hk
    obtain ⟨file, hfile⟩ := Option.ne_none_iff_exists'.mp h.own
    have hlead : (ensuredCopy env online self w vol self).file vol.format = some file := by
      rw [hkeep]
      exact hfile
    rw [hfiles, hsome file hlead m]
    split
    · rename_i hm
      split
      · rename_i hacc
        rw [Copy.file_write hacc.2.2]
        split
        · rename_i hformat
          obtain ⟨r, hr, hrf⟩ := Option.map_eq_some_iff.mp hformat
          have := h.synced m (h.replicas ▸ hm) hacc.1 file r hfile hacc.2.2 hr
          rw [← hrf, this]
        · rw [hkeep]
      · rw [hkeep]
    · rw [hkeep]

end

theorem Apart.files (h : Apart self id w u) (n : NodeId) (format : VolumeFormat) :
    (u n).files (.disk id format) = (w n).files (.disk id format) :=
  congrFun (congrArg Copy.file (h.copy n)) format

theorem Apart.pushed (h : Apart self vol.id w u) (n : NodeId) (bytes : β) :
    Pushed env online self u vol n bytes ↔ Pushed env online self w vol n bytes := by
  unfold Pushed
  rw [h.ensuredCopy, h.ensuredCopy, Copy.accepts_congr (h.cluster self)]

theorem Apart.getsData (h : Apart self vol.id w u) (data : β) (n : NodeId) :
    GetsData env online self u vol data n ↔ GetsData env online self w vol data n := by
  unfold GetsData
  simp only [h.ensuredCopy, h.pushed]

theorem Apart.settled (h : Apart self vol.id w u) :
    Settled env online self u vol ↔ Settled env online self w vol := by
  have hreach : ∀ n, reached env (u self) online self n vol.id =
      reached env (w self) online self n vol.id := fun n => reached_congr (h.cluster self)
  constructor
  · rintro ⟨h1, h2, h3, h4⟩
    simp only [h.files, hreach, h.ensuredCopy, Copy.accepts_congr (h.cluster self)] at h2 h3 h4
    exact ⟨h1, h2, h3, h4⟩
  · rintro ⟨h1, h2, h3, h4⟩
    refine ⟨h1, ?_, ?_, ?_⟩
    · simpa only [h.files] using h2
    · simpa only [h.files, hreach] using h3
    · simpa only [h.files, h.ensuredCopy, Copy.accepts_congr (h.cluster self)] using h4

/-- When a pass does right by the holders of the data: a volume it leaves alone lists holders
only; for any other one every node it lists is a holder or gets the data; and without an online
holder there is nothing to do. -/
structure RebuildKeeps (env : Env) (online : List NodeId) (leader : NodeId) (w : Fleet β)
    (vol : VolumeRecord) (data : β) : Prop where
  skipped : ¬ Processed w leader vol → ∀ n ∈ vol.replicas, Holder w vol data n
  listed : Processed w leader vol → ∀ n ∈ rebuiltReplicas online leader vol,
    Holder w vol data n ∨ GetsData env online leader w vol data n
  settled : Processed w leader vol → (∀ n ∈ online, ¬ Holder w vol data n) →
    Settled env online leader w vol

theorem rebuild_keeps_holders_iff (hv : (w self).getVolume vol.id = some vol) (data : β) :
    ((∀ record, (rebuildVolumes env now self w self).getVolume vol.id = some record →
        ∀ n ∈ record.replicas, Holder w vol data n ∨
          (rebuildVolumes env now self w n).files (.disk vol.id vol.format) = some data) ∧
      ((∀ n ∈ (w self).node.cluster.onlineIds now, ¬ Holder w vol data n) →
        (∃ record, (rebuildVolumes env now self w self).getVolume vol.id = some record ∧
          record.replicas = vol.replicas) ∧
        ∀ n format, (rebuildVolumes env now self w n).files (.disk vol.id format) =
          (w n).files (.disk vol.id format))) ↔
      RebuildKeeps env ((w self).node.cluster.onlineIds now) self w vol data := by
  obtain ⟨u, hu, hafter⟩ := rebuildVolumes_split env now hv
  generalize (w self).node.cluster.onlineIds now = online at hafter ⊢
  generalize rebuildVolumes env now self w = w' at hafter ⊢
  have hvu : (u self).getVolume vol.id = some vol := by rw [hu.getVolume, hv]
  have hproc : Processed u self vol ↔ Processed w self vol := by
    unfold Processed
    rw [hu.attached]
  simp only [hafter.getVolume, hafter.files, ← hu.files]
  by_cases hp : Processed w self vol
  · have hpu := hproc.mpr hp
    obtain ⟨record, hrecord, hreplicas⟩ :=
      (rebuildVolume_spec hvu hpu.1 env online hpu.2).1
    have hgets := fun n (hn : n ∈ rebuiltReplicas online self vol) =>
      rebuild_getsData hvu hpu env online data hn
    constructor
    · rintro ⟨hlisted, hkept⟩
      refine ⟨fun h => absurd hp h, fun _ n hn => ?_, fun _ hno => ?_⟩
      · rcases hlisted record hrecord n (hreplicas ▸ hn) with h | h
        · exact .inl h
        · exact .inr ((hu.getsData data n).mp ((hgets n hn).mp h))
      · exact hu.settled.mp ((rebuild_unchanged_iff hvu hpu).mp (hkept hno))
    · intro h
      refine ⟨?_, fun hno => ?_⟩
      · intro record' hrecord' n hn
        obtain rfl : record = record' := Option.some.inj (hrecord.symm.trans hrecord')
        rw [hreplicas] at hn
        rcases h.listed hp n hn with h | h
        · exact .inl h
        · exact .inr ((hgets n hn).mpr ((hu.getsData data n).mpr h))
      · exact (rebuild_unchanged_iff hvu hpu).mpr (hu.settled.mpr (h.settled hp hno))
  · have hpu : ¬ Processed u self vol := fun h => hp (hproc.mp h)
    have hsame : rebuildVolume env online self u vol = u := by
      unfold rebuildVolume
      rw [if_pos]
      by_contra hguard
      simp only [Bool.or_eq_true, Bool.not_eq_eq_eq_not, Bool.not_true, not_or,
        Bool.not_eq_true, Bool.not_eq_false] at hguard
      exact hpu hguard
    rw [hsame]
    constructor
    · rintro ⟨hlisted, -⟩
      refine ⟨fun _ n hn => ?_, fun h => absurd h hp, fun h => absurd h hp⟩
      rcases hlisted vol hvu n hn with h | h
      · exact h
      · exact ⟨hn, by rw [← hu.files, h]⟩
    · intro h
      refine ⟨?_, fun _ => ⟨⟨vol, hvu, rfl⟩, fun _ _ => rfl⟩⟩
      intro record hrecord n hn
      obtain rfl : vol = record := Option.some.inj (hvu.symm.trans hrecord)
      exact .inl (h.skipped hp n hn)

/-- A node with a guest on volume 7; of the other nodes it has heard from node 3 lately. -/
def Host.withGuest (id : NodeId) (vol : VolumeRecord) (file : Option Bytes) : Host Bytes where
  node := (((Node.fresh id).touch 20000 3 none).putRecord vol).upsertVm
    { id := .numeric 100, spec := twoBytesSpec, state := .running }
  files := Function.update (fun _ => none) (.disk 7 .raw) file
  isos := Table.empty

/-- Nodes 1 and 3 are in contact; node 1 has the file `own`, and nodes 2 and 3 have `there`. -/
def guestFleet (vol : VolumeRecord) (own there : Option Bytes) : Fleet Bytes := fun id =>
  .withGuest id vol (if id = 1 then own else there)

/-- Volume 7 with its replicas on nodes 1 and 3. -/
def onOneAndThree : VolumeRecord := { twoBytes with replicas := [1, 3] }

def shorterFleet : Fleet Bytes := guestFleet onOneAndThree (some ⟨[1, 2]⟩) (some ⟨[0]⟩)

theorem shorterFleet_keeps :
    RebuildKeeps .calm [1, 3] 1 shorterFleet onOneAndThree ⟨[1, 2]⟩ := by
  have hone : Holder shorterFleet onOneAndThree ⟨[1, 2]⟩ 1 := ⟨by decide, by decide⟩
  have hthree : GetsData .calm [1, 3] 1 shorterFleet onOneAndThree ⟨[1, 2]⟩ 3 := by
    refine ⟨?_, .inl ⟨by decide, by decide, by decide⟩⟩
    rintro bytes ⟨hb, -⟩
    have hown : (ensuredCopy .calm [1, 3] 1 shorterFleet onOneAndThree 1).file .raw =
        some ⟨[1, 2]⟩ := by decide
    exact (Option.some.inj (hown.symm.trans hb)).symm
  refine ⟨fun h => absurd ⟨by decide, by decide⟩ h, fun _ n hn => ?_,
    fun _ h => absurd hone (h 1 (by decide))⟩
  have hlist : rebuiltReplicas [1, 3] 1 onOneAndThree = [1, 3] := by decide
  rw [hlist] at hn
  rcases List.mem_cons.mp hn with rfl | hn
  · exact .inl hone
  · obtain rfl := List.mem_singleton.mp hn
    exact .inr hthree

/-- Node 1 has the two bytes and pushes them over the shorter file of node 3. -/
theorem rebuild_keeps_holders_pushed :
    (rebuildVolumes .calm 20000 1 shorterFleet 3).files (.disk 7 .raw) = some ⟨[1, 2]⟩ := by
  have honline : (shorterFleet 1).node.cluster.onlineIds 20000 = [1, 3] := by decide
  have hget : (shorterFleet 1).getVolume onOneAndThree.id = some onOneAndThree := by decide
  have hkeeps : RebuildKeeps .calm ((shorterFleet 1).node.cluster.onlineIds 20000) 1 shorterFleet
      onOneAndThree ⟨[1, 2]⟩ := honline ▸ shorterFleet_keeps
  have hdone := (rebuild_keeps_holders_iff hget ⟨[1, 2]⟩).mpr hkeeps
  have hlist : ((rebuildVolumes .calm 20000 1 shorterFleet 1).getVolume 7).map (·.replicas) =
      some [1, 3] := by decide +kernel
  obtain ⟨record, hrecord, hreplicas⟩ := Option.map_eq_some_iff.mp hlist
  rcases hdone.1 record hrecord 3 (by rw [hreplicas]; decide) with ⟨-, h⟩ | h
  · revert h
    decide
  · exact h

/-- Volume 7 with its one replica on node 2. -/
def onTwo : VolumeRecord := { twoBytes with replicas := [2], replicaCount := 1 }

def lostFleet : Fleet Bytes := guestFleet onTwo none (some ⟨[1, 2]⟩)

/-- Node 2 is the only holder and is not heard from: node 1 lists itself in its place, with two
bytes of zeros. -/
theorem rebuild_forgets_holder :
    ¬ ∀ (env : Env) (now : Nat) (self : NodeId) (w : Fleet Bytes) (vol : VolumeRecord)
        (data : Bytes),
      (w self).node.cluster.hasQuorum now = true → (w self).node.cluster.isLeader now = true →
      (w self).getVolume vol.id = some vol →
      (∀ record, (rebuildVolumes env now self w self).getVolume vol.id = some record →
        ∀ n ∈ record.replicas, Holder w vol data n ∨
          (rebuildVolumes env now self w n).files (.disk vol.id vol.format) = some data) ∧
      ((∀ n ∈ (w self).node.cluster.onlineIds now, ¬ Holder w vol data n) →
        (∃ record, (rebuildVolumes env now self w self).getVolume vol.id = some record ∧
          record.replicas = vol.replicas) ∧
        ∀ n format, (rebuildVolumes env now self w n).files (.disk vol.id format) =
          (w n).files (.disk vol.id format)) := by
  intro h
  have hlist : ((rebuildVolumes .calm 20000 1 lostFleet 1).getVolume 7).map (·.replicas) =
      some [1] := by decide +kernel
  obtain ⟨record, hrecord, hreplicas⟩ := Option.map_eq_some_iff.mp hlist
  have hkeep := (h .calm 20000 1 lostFleet onTwo ⟨[1, 2]⟩ (by decide) (by decide)
    (by decide)).1 record hrecord 1 (by rw [hreplicas]; decide)
  rcases hkeep with ⟨hmem, -⟩ | hfile
  · revert hmem
    decide
  · revert hfile
    decide +kernel

end Pertisk.Storage
