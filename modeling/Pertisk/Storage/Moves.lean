import Pertisk.Storage.Versions

namespace Pertisk.Storage
open Lib

variable {β : Type} [Contents β] {env : Env} {self n m src dest : NodeId} {online : List NodeId}
variable {w u : Fleet (Tagged β)} {vol record : VolumeRecord} {id j : VolumeId}
variable {a a' d d' t : Host (Tagged β)} {f : Tagged β} {s : World β} {disks : List DiskSpec}

theorem version_blank (env : Env) (n : NodeId) (vol : VolumeRecord) :
    (Host.blank env n vol : Tagged β).version = 0 := by
  unfold Host.blank
  split
  · rfl
  · split
    · rfl
    · rfl

namespace World

theorem Fits.localize (h : s.Fits vol) : s.Fits vol.localize := by
  unfold Fits VolumeRecord.localize at *
  split
  · exact h
  · exact h

namespace Held

theorem refl (hs : s.Valid) (id : VolumeId) (n : NodeId) :
    s.Held id n ((s.fleet n).copy id) := ⟨.kept rfl, hs.fits n id⟩

theorem putRecord (h : s.Held id n (d.copy id)) (hv : s.Fits vol) :
    s.Held id n ((d.putRecord vol).copy id) := by
  rw [Host.copy_putRecord]
  split
  · refine ⟨h.1, fun record hr => ?_⟩
    cases hr
    exact hv.localize
  · exact h

/-- The ensure step makes a blank file where there is none. -/
theorem ensureLocal (env : Env) (h : s.Held id n (d.copy id)) (hv : s.Fits vol) :
    s.Held id n ((d.ensureLocal env n vol).1.copy id) := by
  cases hb : vol.backend.external with
  | true =>
    unfold Host.ensureLocal
    rw [hb, if_pos rfl]
    exact h.putRecord hv
  | false =>
    rw [Host.copy_ensureLocal env n hb]
    split
    · rename_i hid
      subst hid
      refine ⟨?_, fun record hr => ?_⟩
      · have hmoved := h.1
        simp only [Copy.ensure, ← hv.1, Function.update_self] at hmoved ⊢
        cases hf : (d.copy vol.id).file vol.format with
        | none =>
          rw [hf] at hmoved
          exact hmoved.fill (.inl (version_blank env n vol))
        | some old =>
          rw [hf] at hmoved
          exact hmoved
      · cases hr
        exact hv.localize
    · exact h

/-- A body is written to the volume that it is sent for. -/
theorem writeBlob {stored : VolumeRecord} (h : s.Held id n (d.copy id))
    (hw : d.writeBlobFromPath j f = .ok (t, stored))
    (hmoved : j = id → (s.copies id).Moved Tagged.version Full n (some f)) :
    s.Held id n (t.copy id) := by
  rw [Host.copy_writeBlob hw]
  split
  · rename_i hid
    obtain ⟨record, hr, hb, -⟩ := Host.writeBlobFromPath_ok hw
    have hrec : (d.copy id).record = some record := by rw [hid]; exact hr
    have hfits := h.2 record hrec
    have hkey : record.id = id := by rw [hid]; exact Host.id_of_getVolume hr
    simp only [Copy.write, hrec, hb, Bool.false_eq_true, if_false]
    refine ⟨?_, fun record' hr' => ?_⟩
    · rw [← hkey, ← hfits.1]
      simp only [Function.update_self]
      rw [hkey]
      exact hmoved hid.symm
    · cases hr'
      exact hfits
  · exact h

/-- The file that a push sends or a pull brings is the volume's file at its node. -/
theorem moved_of_path (h : s.Held id n (d.copy id)) (hr : d.getVolume id = some record)
    (hb : record.backend.external = false) (hf : d.files record.path = some f) :
    (s.copies id).Moved Tagged.version Full n (some f) := by
  have hfits := h.2 record hr
  have hkey := Host.id_of_getVolume hr
  have hfile : (d.copy id).file (s.format id) = some f := by
    rw [← hf, Host.path_of_getVolume hr hb, hfits.1, hkey]
    rfl
  rw [← hfile]
  exact h.1

end Held

/-! ### One request -/

/-- A push by a node that may push. -/
theorem held_peerPutBlob (hs : s.Valid) (hne : dest ≠ n) (ha : s.Held id n (a.copy id))
    (hd : s.Held id dest (d.copy id)) (hmay : j = id → s.MayPush n id)
    (h : peerPutBlob env dest a d j = .ok t) : s.Held id dest (t.copy id) := by
  rcases peerPutBlob_cases h with rfl | ⟨record, file, stored, hr, hb, hf, hw⟩
  · exact hd
  · refine hd.writeBlob hw (fun hid => ?_)
    subst hid
    obtain ⟨howner, hidle⟩ := hmay rfl
    exact (hs.newest j).push (ha.moved_of_path hr hb hf) howner hne (hidle dest hne)

/-- A pull to a node that has no file of the volume. -/
theorem held_peerPullBlob (ha : s.Held id n (a.copy id)) (hd : s.Held id src (d.copy id))
    (hnone : j = id → s.file n id = none) (h : peerPullBlob env src a d j = .ok t) :
    s.Held id n (t.copy id) := by
  obtain ⟨record, file, stored, hr, hf, hw⟩ := peerPullBlob_ok h
  refine ha.writeBlob hw (fun hid => ?_)
  subst hid
  obtain ⟨own, hown, hbown, -⟩ := Host.writeBlobFromPath_ok hw
  have hb : record.backend.external = false := by
    rw [(hd.2 record hr).2, Host.id_of_getVolume hr, ← hbown, (ha.2 own hown).2,
      Host.id_of_getVolume hown]
  refine .filled (fun old hold => ?_) ((hd.moved_of_path hr hb hf).known rfl)
  have := (hnone rfl).symm.trans hold
  cases this

/-! ### Pushes to the replicas -/

/-- All nodes have of the volume what they may. -/
def AllHeld (s : World β) (id : VolumeId) (w : Fleet (Tagged β)) : Prop :=
  ∀ n, s.Held id n ((w n).copy id)

theorem AllHeld.update (h : s.AllHeld id w) (hd : s.Held id n (d.copy id)) :
    s.AllHeld id (Function.update w n d) := by
  intro m
  by_cases hm : m = n
  · subst hm
    rw [Function.update_self]
    exact hd
  · rw [Function.update_of_ne hm]
    exact h m

theorem allHeld_syncVolumeReplicas (hs : s.Valid) (h : s.AllHeld id w)
    (hmay : vol.id = id → s.MayPush n id) :
    s.AllHeld id (syncVolumeReplicas env online n w vol) := by
  unfold syncVolumeReplicas
  split
  · exact h
  · refine foldl_preserves (P := fun u => s.AllHeld id u) (fun u m _ hu => ?_) h
    rcases syncReplica_cases env online n vol.id u m with hsame | ⟨hne, -, d, hput, hup⟩
    · rw [hsame]
      exact hu
    · rw [hup]
      exact hu.update (held_peerPutBlob hs hne (hu n) (hu m) hmay hput)

theorem allHeld_ensureReplicas (env : Env) (online : List NodeId) (n : NodeId)
    (h : s.AllHeld id w) (hv : s.Fits vol) :
    s.AllHeld id (ensureReplicas env online n w vol) := by
  refine foldl_preserves (P := fun u => s.AllHeld id u) (fun u m _ hu => ?_) h
  rw [ensureReplica_eq]
  split
  · exact hu.update ((hu m).ensureLocal env hv)
  · exact hu

theorem allHeld_pullReplica (h : s.AllHeld id w) (hv : s.Fits vol) (hid : vol.id = id)
    (hnone : (w n).files (.disk vol.id vol.format) = none) :
    s.AllHeld id (pullReplica env n w vol) := by
  have hfile : s.file n id = none := by
    have hmoved := (h n).1
    subst hid
    rw [← hv.1, show ((w n).copy vol.id).file vol.format = none from hnone] at hmoved
    exact hmoved.of_none
  unfold pullReplica
  split
  · exact h
  · dsimp only
    have hown := (h n).ensureLocal env hv
    split
    · rename_i t hpull
      exact h.update (held_peerPullBlob hown (h _) (fun _ => hfile) hpull)
    · exact h.update hown

/-- The leader may push the volume, or it has no file of it and is not to have one. -/
def MayRebuild (s : World β) (online : List NodeId) (n : NodeId) (vol : VolumeRecord) : Prop :=
  s.MayPush n vol.id ∨ s.file n vol.id = none ∧ n ∉ rebuiltReplicas online n vol

theorem allHeld_rebuildVolume (hs : s.Valid) (h : s.AllHeld vol.id u)
    (hv : (u n).getVolume vol.id = some vol) (hfile : (u n).files (s.path vol.id) = s.file n vol.id)
    (hmay : Processed u n vol → s.MayRebuild online n vol) :
    s.AllHeld vol.id (rebuildVolume env online n u vol) := by
  unfold rebuildVolume
  split
  · exact h
  · rename_i hguard
    simp only [Bool.or_eq_true, Bool.not_eq_eq_eq_not, Bool.not_true, not_or, Bool.not_eq_true,
      Bool.not_eq_false] at hguard
    have hfits : s.Fits vol := (h n).2 vol hv
    have hput : s.AllHeld vol.id
        (Function.update u n ((u n).putRecord (rebuiltRecord online n vol))) :=
      h.update ((h n).putRecord hfits)
    have hrebuilt : s.Fits (rebuiltRecord online n vol) := hfits
    have hens := allHeld_ensureReplicas env online n hput hrebuilt
    have hcopy := ensureRebuilt_copy hv hguard.1 env online n
    dsimp only
    split
    · rename_i hlocal
      refine allHeld_syncVolumeReplicas hs hens (fun _ => ?_)
      rcases hmay hguard with hpush | ⟨hnone, hlist⟩
      · exact hpush
      · exfalso
        have hcopy' := congrFun (congrArg Copy.file hcopy) vol.format
        have hempty : ((u n).copy vol.id).file vol.format = none := by
          rw [← hnone, ← hfile, path, hfits.1]
          rfl
        have hlist' : n ∉ (rebuiltRecord online n vol).replicas := hlist
        simp only [ensuredCopy, hlist', if_false, if_true, hempty] at hcopy'
        rw [Host.hasLocal, Option.isSome_iff_exists] at hlocal
        obtain ⟨f, hf⟩ := hlocal
        have := hcopy'.symm.trans hf
        cases this
    · rename_i hlocal
      refine allHeld_pullReplica hens hrebuilt rfl ?_
      simpa [Host.hasLocal] using hlocal

/-! ### Before a guest starts elsewhere -/

theorem held_addReplica (ha : ∀ id, s.Held id n (a.copy id)) (hv : a.getVolume vol.id = some vol)
    (dest : NodeId) :
    (∀ id, s.Held id n ((addReplica a vol dest).1.copy id)) ∧
      s.Fits (addReplica a vol dest).2 := by
  have hfits : s.Fits vol := (ha vol.id).2 vol hv
  unfold addReplica
  split
  · exact ⟨ha, hfits⟩
  · have hnew : s.Fits { vol with
        replicas := vol.replicas ++ [dest]
        replicaCount := max ((vol.replicas ++ [dest]).length % 256) vol.replicaCount } := hfits
    exact ⟨fun id => (ha id).putRecord hnew, hfits⟩

/-- The destination of `ensure_volumes_on_node` is asked for its file and answers, or the node
that calls it may push. -/
def MayEnsure (s : World β) (env : Env) (n dest : NodeId) (id : VolumeId) : Prop :=
  env.fault dest (.ready id) = none ∨ s.MayPush n id

theorem held_ensureVolume (hs : s.Valid) (hne : dest ≠ n)
    (ha : ∀ id, s.Held id n (a.copy id)) (hd : ∀ id, s.Held id dest (d.copy id))
    (hv : a.getVolume vol.id = some vol) (hb : vol.backend.external = false)
    (hmay : s.MayEnsure env n dest vol.id) {result : Except DaemonError Unit}
    (h : ensureVolume env dest a d vol = (a', d', result)) :
    (∀ id, s.Held id n (a'.copy id)) ∧ ∀ id, s.Held id dest (d'.copy id) := by
  obtain ⟨hadd, hfits⟩ := held_addReplica ha hv dest
  obtain ⟨-, -, -, hget, hshape⟩ := addReplica_spec env dest hv hb
  unfold ensureVolume at h
  generalize haddr : addReplica a vol dest = pair at h hadd hfits hget hshape
  obtain ⟨a₁, vol₁⟩ := pair
  simp only at h hadd hfits hget hshape
  obtain ⟨hid, -, -, hbackend⟩ := shape_fields hshape
  have hb₁ : vol₁.backend.external = false := by rw [hbackend, hb]
  split at h
  · cases h
    exact ⟨hadd, hd⟩
  · rename_i d₁ stored hcall
    obtain ⟨hans, hens⟩ := call_ok hcall
    have hd₁ : (d.ensureLocal env dest vol₁).1 = d₁ := by
      rw [Except.ok.inj hens]
    have hheld : ∀ id, s.Held id dest (d₁.copy id) := by
      intro id
      rw [← hd₁]
      exact (hd id).ensureLocal env hfits
    split at h
    · rename_i hpush
      split at h
      · cases h
        exact ⟨hadd, hheld⟩
      · rename_i d₂ hput
        cases h
        refine ⟨hadd, fun id => ?_⟩
        rcases peerPutBlob_cases hput with rfl | ⟨record, file, put, hr, hext, hf, hw⟩
        · exact hheld id
        · refine (hheld id).writeBlob hw (fun hidd => ?_)
          subst hidd
          have hmoved := (hadd vol₁.id).moved_of_path hr hext hf
          rcases hmay with hfault | ⟨howner, hidle⟩
          · -- the file that was found not ready is empty
            obtain ⟨hfiles, hrec⟩ := Host.volumeFile_ensureLocal env dest d hb₁
            rw [hd₁] at hfiles hrec
            have hthere := congrFun hfiles (.disk vol₁.id vol₁.format)
            rw [Function.update_self] at hthere
            have hstored : d₁.getVolume vol₁.id = some vol₁.localize := by rw [hrec, if_pos rfl]
            have hremote := Host.volumeFile_of_get hstored
            rw [shape_localize _ hb₁, hthere] at hremote
            have hasked : Answers env a' dest (.ready vol₁.id) := by
              refine ⟨hans.1, ?_⟩
              rw [hid]
              exact hfault
            have hready := remoteReady_iff hasked hremote
            have hempty : ¬ Full ((d.files (.disk vol₁.id vol₁.format)).getD
                (Host.blank env dest vol₁)) := by
              intro hfull
              rw [hready.mpr hfull] at hpush
              simp at hpush
            refine (hs.newest vol₁.id).refill ?_ hempty (hmoved.known rfl)
            exact (hheld vol₁.id).moved_of_path hstored (by simpa using hb₁)
              (by rw [shape_localize _ hb₁]; exact hthere)
          · rw [hid] at hmoved ⊢
            exact (hs.newest vol.id).push hmoved howner hne (hidle dest hne)
    · cases h
      exact ⟨hadd, hheld⟩

theorem held_ensureVolumes (hs : s.Valid) (hne : dest ≠ n)
    (ha : ∀ id, s.Held id n (a.copy id)) (hd : ∀ id, s.Held id dest (d.copy id))
    (hmay : ∀ disk ∈ disks, ∀ id, disk.volumeId = some id → s.MayEnsure env n dest id)
    {result : Except DaemonError Unit}
    (h : ensureVolumes env dest disks a d = (a', d', result)) :
    (∀ id, s.Held id n (a'.copy id)) ∧ ∀ id, s.Held id dest (d'.copy id) := by
  induction disks generalizing a d with
  | nil =>
    cases h
    exact ⟨ha, hd⟩
  | cons disk disks ih =>
    have hrest : ∀ e ∈ disks, ∀ id, e.volumeId = some id → s.MayEnsure env n dest id :=
      fun e he => hmay e (List.mem_cons_of_mem _ he)
    unfold ensureVolumes at h
    split at h
    · exact ih ha hd hrest h
    · rename_i vol hvol
      obtain ⟨id, hid, hv⟩ := Option.bind_eq_some_iff.mp hvol
      obtain rfl : vol.id = id := Host.id_of_getVolume hv
      cases hb : vol.backend with
      | rbd =>
        simp only [hb] at h
        exact ih ha hd hrest h
      | zfs =>
        simp only [hb] at h
        cases h
        exact ⟨ha, hd⟩
      | replica =>
        simp only [hb] at h
        have hext : vol.backend.external = false := by rw [hb]; rfl
        have hvmay := hmay disk List.mem_cons_self vol.id hid
        split at h
        · rename_i a₁ d₁ err hstep
          cases h
          exact held_ensureVolume hs hne ha hd hv hext hvmay hstep
        · rename_i a₁ d₁ hstep
          obtain ⟨ha₁, hd₁⟩ := held_ensureVolume hs hne ha hd hv hext hvmay hstep
          exact ih ha₁ hd₁ hrest h

theorem held_pullFirst {sources : List NodeId} (hs : s.Valid) (ha : s.Held id n (a.copy id))
    (hnone : j = id → s.file n id = none)
    (h : pullFirst env s.fleet a j sources = some t) : s.Held id n (t.copy id) := by
  induction sources with
  | nil => cases h
  | cons src sources ih =>
    unfold pullFirst at h
    split at h
    · rename_i t' hpull
      cases h
      exact held_peerPullBlob ha (.refl hs id src) hnone hpull
    · exact ih h

theorem held_pullMissing (hs : s.Valid) (ha : ∀ id, s.Held id n (a.copy id)) :
    ∀ id, s.Held id n ((pullMissing env online n s.fleet disks a).1.copy id) := by
  induction disks generalizing a with
  | nil => exact ha
  | cons disk disks ih =>
    unfold pullMissing
    split
    · exact ih ha
    · rename_i vol hvol
      obtain ⟨id, -, hv⟩ := Option.bind_eq_some_iff.mp hvol
      obtain rfl : vol.id = id := Host.id_of_getVolume hv
      have hfits : s.Fits vol := (ha vol.id).2 vol hv
      have hjoin : ∀ {b : Host (Tagged β)}, (∀ id, s.Held id n (b.copy id)) →
          ∀ id, s.Held id n ((joinReplicas n b vol).copy id) := by
        intro b hb id
        unfold joinReplicas
        split
        · exact hb id
        · refine (hb id).putRecord ?_
          exact hfits
      split
      · exact ih ha
      · split
        · exact ih (hjoin ha)
        · rename_i hlocal
          split
          · rename_i b hpull
            refine ih (hjoin (fun id => held_pullFirst hs (ha id) (fun hid => ?_) hpull))
            subst hid
            have hmoved := (ha vol.id).1
            have hempty : (a.copy vol.id).file (s.format vol.id) = none := by
              rw [← hfits.1]
              have hfile : a.files (.disk vol.id vol.format) = none := by
                simpa [Host.hasLocal] using hlocal
              exact hfile
            rw [hempty] at hmoved
            exact hmoved.of_none
          · exact ha

/-! ### A pass of the leader -/

theorem allHeld_rebuildVolumes (hs : s.Valid) {now : Nat}
    (hmay : ∀ vol, (s.fleet n).getVolume vol.id = some vol → Processed s.fleet n vol →
      s.MayRebuild ((s.fleet n).node.cluster.onlineIds now) n vol) (id : VolumeId) :
    s.AllHeld id (rebuildVolumes env now n s.fleet) := by
  have hcongr : ∀ {u v : Fleet (Tagged β)}, Apart n id u v → s.AllHeld id u → s.AllHeld id v := by
    intro u v h hu m
    rw [h.copy m]
    exact hu m
  cases hv : (s.fleet n).getVolume id with
  | none =>
    refine hcongr (foldl_rebuild_apart ?_ (s.fleet n).listVolumes_ids
      (fun v hv => Host.mem_listVolumes hv)) (fun m => .refl hs id m)
    intro v hmem hid
    have := Host.mem_listVolumes hmem
    rw [hid, hv] at this
    cases this
  | some vol =>
    obtain rfl : vol.id = id := Host.id_of_getVolume hv
    obtain ⟨u, hu, hafter⟩ := rebuildVolumes_split env now hv
    refine hcongr hafter (allHeld_rebuildVolume hs (hcongr hu (fun m => .refl hs _ m)) ?_ ?_ ?_)
    · rw [hu.getVolume, hv]
    · exact hu.files n (s.format vol.id)
    · intro hp
      refine hmay vol hv ⟨hp.1, ?_⟩
      rw [← hu.attached]
      exact hp.2

end World

end Pertisk.Storage
