import Mathlib.Logic.Relation
import Pertisk.Storage.Peer

namespace Pertisk.Storage
open Lib

variable {β : Type} [Contents β]

/-- A record without its placement. -/
def shape (v : VolumeRecord) : VolumeRecord := { v with replicas := [], replicaCount := 0 }

/-- `dest` becomes a replica in our record, which is a change of the inventory. -/
def addReplica (s : Host β) (vol : VolumeRecord) (dest : NodeId) : Host β × VolumeRecord :=
  if vol.replicas.contains dest then (s, vol)
  else
    let replicas := vol.replicas ++ [dest]
    let vol := { vol with
      replicas := replicas
      replicaCount := max (replicas.length % 256) vol.replicaCount }
    ((s.putRecord vol).bump, vol)

/-- A peer's file is ready when it is there and not empty. -/
def remoteReady (env : Env) (s : Host β) (dest : NodeId) (d : Host β) (id : VolumeId) : Bool :=
  match peerVolumeStatRemote env s dest (.ready id) d id with
  | .ok stat => stat.exists && decide (stat.size > 0)
  | .error _ => false

/-- One replica volume of `ensure_volumes_on_node`: the ensure request comes first, and the
bytes only when the peer's file is not ready after it. -/
def ensureVolume (env : Env) (dest : NodeId) (s d : Host β) (vol : VolumeRecord) :
    Host β × Host β × Except DaemonError Unit :=
  let (s, vol) := addReplica s vol dest
  match call env s dest (.ensure vol.id) (.ok (d.ensureLocal env dest vol)) with
  | .error err =>
    (s, d, .error (.peer s!"ensure volume {vol.name} on {uuidText dest}: {err.text}"))
  | .ok (d, _) =>
    if s.hasLocal vol.id vol.format && !remoteReady env s dest d vol.id then
      match peerPutBlob env dest s d vol.id with
      | .error err =>
        (s, d, .error (.peer s!"sync volume {vol.name} to {uuidText dest}: {err.text}"))
      | .ok d => (s, d, .ok ())
    else (s, d, .ok ())

def ensureVolumes (env : Env) (dest : NodeId) :
    List DiskSpec → Host β → Host β → Host β × Host β × Except DaemonError Unit
  | [], s, d => (s, d, .ok ())
  | disk :: disks, s, d =>
    match disk.volumeId.bind s.getVolume with
    | none => ensureVolumes env dest disks s d
    | some vol =>
      match vol.backend with
      | .rbd => ensureVolumes env dest disks s d
      | .zfs =>
        (s, d, .error (.peer s!"volume {vol.name} is a ZFS zvol on this node and cannot move"))
      | .replica =>
        match ensureVolume env dest s d vol with
        | (s, d, .error err) => (s, d, .error err)
        | (s, d, .ok ()) => ensureVolumes env dest disks s d

/-- Make sure `dest` has disk files before peer start or migrate. -/
def ensureVolumesOnNode (env : Env) (w : Fleet β) (self : NodeId) (spec : VmSpec)
    (dest : NodeId) : Fleet β × Except DaemonError Unit :=
  if dest = self then (w, .ok ())
  else
    let (s, d, result) := ensureVolumes env dest spec.disks (w self) (w dest)
    (Function.update (Function.update w self s) dest d, result)

variable {env : Env} {dest self : NodeId} {s s' d d' : Host β} {vol vol' : VolumeRecord}
variable {id : VolumeId} {disks : List DiskSpec}

namespace Host

theorem getVolume_bump (h : Host β) (j : VolumeId) : h.bump.getVolume j = h.getVolume j := rfl

theorem volumeFile_ensureLocal (env : Env) (self : NodeId) (d : Host β)
    (hb : vol.backend.external = false) :
    (d.ensureLocal env self vol).1.files = Function.update d.files (.disk vol.id vol.format)
        (some ((d.files (.disk vol.id vol.format)).getD (blank env self vol))) ∧
      ∀ j, (d.ensureLocal env self vol).1.getVolume j =
        if vol.id = j then some vol.localize else d.getVolume j := by
  unfold ensureLocal
  simp only [hb, Bool.false_eq_true, if_false]
  cases hf : d.files (.disk vol.id vol.format) with
  | none =>
    refine ⟨by simp [writeFile, putRecord], ?_⟩
    intro j
    rw [getVolume_putRecord]
    rfl
  | some old =>
    refine ⟨?_, fun j => getVolume_putRecord d vol j⟩
    have hkeep : Function.update d.files (.disk vol.id vol.format) (some old) = d.files := by
      rw [← hf, Function.update_eq_self]
    simp [putRecord, hkeep]

end Host

theorem shape_localize (v : VolumeRecord) (hb : v.backend.external = false) :
    v.localize = { v with path := .disk v.id v.format } := by
  simp [VolumeRecord.localize, hb]

/-- Only the placement in our own record changes. -/
theorem addReplica_spec (env : Env) (dest : NodeId) (hv : s.getVolume vol.id = some vol)
    (hb : vol.backend.external = false) :
    (addReplica s vol dest).1.files = s.files ∧
      (∀ r, Answers env (addReplica s vol dest).1 dest r ↔ Answers env s dest r) ∧
      (∀ j, ((addReplica s vol dest).1.getVolume j).map shape = (s.getVolume j).map shape) ∧
      (addReplica s vol dest).1.getVolume vol.id = some (addReplica s vol dest).2 ∧
      shape (addReplica s vol dest).2 = shape vol := by
  unfold addReplica
  split
  · exact ⟨rfl, fun _ => Iff.rfl, fun _ => rfl, hv, rfl⟩
  · have hpath := Host.path_of_getVolume hv hb
    refine ⟨rfl, fun _ => Iff.rfl, ?_, ?_, rfl⟩
    · intro j
      rw [Host.getVolume_bump, Host.getVolume_putRecord]
      dsimp only
      split
      · rename_i hj
        subst hj
        rw [hv]
        simp [VolumeRecord.localize, hb, shape, hpath]
      · rfl
    · rw [Host.getVolume_bump, Host.getVolume_putRecord, if_pos rfl]
      simp [VolumeRecord.localize, hb, hpath]

/-- The file that a disk's volume has at `dest` when the call is through: the one that was
there, or else the blank image made for it; our own if that one is empty. -/
def arriving (env : Env) (dest : NodeId) (s d : Host β) (vol : VolumeRecord) : β :=
  let path := PathBuf.disk vol.id vol.format
  let there := (d.files path).getD (Host.blank env dest vol)
  if len there = 0 then (s.files path).getD there else there

theorem shape_fields (h : shape vol' = shape vol) :
    vol'.id = vol.id ∧ vol'.format = vol.format ∧ vol'.sizeBytes = vol.sizeBytes ∧
      vol'.backend = vol.backend := by
  cases vol
  cases vol'
  simp_all [shape]

theorem arriving_congr (env : Env) (dest : NodeId) (d : Host β) (hfiles : s'.files = s.files)
    (hshape : shape vol' = shape vol) :
    arriving env dest s' d vol' = arriving env dest s d vol := by
  obtain ⟨hid, hformat, hsize, -⟩ := shape_fields hshape
  have hblank : Host.blank (β := β) env dest vol' = Host.blank env dest vol := by
    unfold Host.blank
    rw [hformat, hsize]
  unfold arriving
  rw [hblank, hfiles, hid, hformat]

/-- Once landed, a file lands again as it is. -/
theorem arriving_again
    (h : d'.files (.disk vol.id vol.format) = some (arriving env dest s d vol)) :
    arriving env dest s d' vol = arriving env dest s d vol := by
  have hself : arriving env dest s d' vol =
      if len (arriving env dest s d vol) = 0 then
        (s.files (.disk vol.id vol.format)).getD (arriving env dest s d vol)
      else arriving env dest s d vol := by
    conv_lhs => unfold arriving
    simp only [h, Option.getD_some]
  rw [hself]
  split
  · rename_i hzero
    cases hf : s.files (.disk vol.id vol.format) with
    | none => rfl
    | some file =>
      rw [Option.getD_some]
      unfold arriving at hzero ⊢
      simp only [hf, Option.getD_some] at hzero ⊢
      split
      · rfl
      · rename_i hthere
        simp [hthere] at hzero
  · rfl

/-- A peer that answers is found ready exactly when its file has bytes. -/
theorem remoteReady_iff (hans : Answers env s dest (.ready id)) {bytes : β}
    (hf : d.volumeFile id = some bytes) :
    remoteReady env s dest d id = true ↔ 0 < len bytes := by
  obtain ⟨record, hr, hfile⟩ := Option.bind_eq_some_iff.mp hf
  unfold remoteReady peerVolumeStatRemote
  rw [call_answers hans]
  simp [Host.volumeStat, Host.localStat, hr, hfile]

theorem ensureVolume_ok (hv : s.getVolume vol.id = some vol) (hb : vol.backend = .replica)
    (hans : ∀ j, Answers env s dest (.ready j))
    (h : ensureVolume env dest s d vol = (s', d', .ok ())) :
    s'.files = s.files ∧ (∀ j, Answers env s' dest (.ready j)) ∧
      (∀ j, (s'.getVolume j).map shape = (s.getVolume j).map shape) ∧
      d'.files = Function.update d.files (.disk vol.id vol.format)
        (some (arriving env dest s d vol)) := by
  have hext : vol.backend.external = false := by rw [hb]; rfl
  obtain ⟨hsfiles, hsans, hsshape, hsget, hvshape⟩ :=
    addReplica_spec env dest hv hext
  unfold ensureVolume at h
  generalize haddr : addReplica s vol dest = pair at h hsfiles hsans hsshape hsget hvshape
  obtain ⟨s₁, vol₁⟩ := pair
  simp only at h hsfiles hsans hsshape hsget hvshape
  obtain ⟨hid, hformat, -, hbackend⟩ := shape_fields hvshape
  have hext₁ : vol₁.backend.external = false := by rw [hbackend, hext]
  have hans₁ : ∀ j, Answers env s₁ dest (.ready j) := fun j => (hsans _).mpr (hans j)
  have hcall : call env s₁ dest (.ensure vol₁.id) (.ok (d.ensureLocal env dest vol₁)) =
      .ok (d.ensureLocal env dest vol₁) := by
    cases hc : call env s₁ dest (.ensure vol₁.id) (.ok (d.ensureLocal env dest vol₁)) with
    | error err => simp [hc] at h
    | ok made => rw [(Except.ok.inj (call_ok hc).2)]
  rw [hcall] at h
  obtain ⟨hdfiles, hdget⟩ := Host.volumeFile_ensureLocal env dest d hext₁
  generalize hens : (d.ensureLocal env dest vol₁).1 = d₁ at hdfiles hdget
  have hpair : d.ensureLocal env dest vol₁ = (d₁, (d.ensureLocal env dest vol₁).2) := by
    rw [← hens]
  rw [hpair] at h
  simp only at h
  let there := (d.files (.disk vol₁.id vol₁.format)).getD (Host.blank env dest vol₁)
  have hthere : d₁.files (.disk vol₁.id vol₁.format) = some there := by
    rw [hdfiles, Function.update_self]
  have hstored : d₁.getVolume vol₁.id = some vol₁.localize := by rw [hdget, if_pos rfl]
  have hremote : d₁.volumeFile vol₁.id = some there := by
    rw [Host.volumeFile_of_get hstored, shape_localize _ hext₁]
    exact hthere
  have hready := remoteReady_iff (hans₁ vol₁.id) hremote
  have harrive : arriving env dest s d vol =
      if len there = 0 then (s₁.files (.disk vol₁.id vol₁.format)).getD there else there := by
    rw [← arriving_congr env dest d hsfiles hvshape]
    rfl
  have hkeep : len there ≠ 0 ∨ s₁.files (.disk vol₁.id vol₁.format) = none →
      d₁.files = Function.update d.files (.disk vol.id vol.format)
        (some (arriving env dest s d vol)) := by
    intro hcase
    have hsame : arriving env dest s d vol = there := by
      rw [harrive]
      rcases hcase with hne | hnone
      · rw [if_neg hne]
      · simp [hnone]
    rw [hsame, hdfiles, hid, hformat]
    simp only [there, hid, hformat]
  split at h
  · rename_i hpush
    simp only [Bool.and_eq_true, Bool.not_eq_eq_eq_not, Bool.not_true] at hpush
    obtain ⟨hlocal, hnot⟩ := hpush
    have hzero : len there = 0 := by
      by_contra hne
      have := hready.mpr (Nat.pos_of_ne_zero hne)
      rw [this] at hnot
      cases hnot
    obtain ⟨file, hfile⟩ := Option.isSome_iff_exists.mp hlocal
    have hgets : s₁.getVolume vol₁.id = some vol₁ := by rw [hid]; exact hsget
    have hpath := Host.path_of_getVolume hgets hext₁
    split at h
    · cases h
    · rename_i d₂ hput
      simp only [Prod.mk.injEq, and_true] at h
      obtain ⟨rfl, rfl⟩ := h
      refine ⟨hsfiles, hans₁, hsshape, ?_⟩
      have hsrc : s₁.files vol₁.path = some file := by rw [hpath]; exact hfile
      rcases peerPutBlob_ok hgets hext₁ hsrc hput with ⟨hsame, -⟩ | ⟨-, -, stored, hwrite⟩
      · obtain ⟨hpos, -, old, hold, hlen⟩ := sameSize_iff.mp hsame
        obtain rfl : there = old := Option.some.inj (hremote.symm.trans hold)
        omega
      · obtain ⟨record, hrec, -, hfiles, -⟩ := Host.writeBlobFromPath_ok hwrite
        obtain rfl : vol₁.localize = record := Option.some.inj (hstored.symm.trans hrec)
        rw [shape_localize _ hext₁] at hfiles
        rw [harrive, if_pos hzero, hfile, hfiles, hdfiles, hid, hformat]
        simp
  · rename_i hno
    simp only [Prod.mk.injEq, and_true] at h
    obtain ⟨rfl, rfl⟩ := h
    refine ⟨hsfiles, hans₁, hsshape, hkeep ?_⟩
    cases hlocal : s₁.files (.disk vol₁.id vol₁.format) with
    | none => exact .inr rfl
    | some file =>
      left
      have hhas : s₁.hasLocal vol₁.id vol₁.format = true := by simp [Host.hasLocal, hlocal]
      simp only [hhas, Bool.true_and, Bool.not_eq_eq_eq_not, Bool.not_true,
        Bool.not_eq_false] at hno
      exact Nat.pos_iff_ne_zero.mp (hready.mp hno)

/-- A replica volume that one of the disks is on. -/
def DiskVolume (s : Host β) (disks : List DiskSpec) (vol : VolumeRecord) : Prop :=
  vol.backend = .replica ∧ s.getVolume vol.id = some vol ∧
    ∃ disk ∈ disks, disk.volumeId = some vol.id

theorem DiskVolume.of_shape {disk : DiskSpec}
    (hshape : ∀ j, (s'.getVolume j).map shape = (s.getVolume j).map shape)
    (h : DiskVolume s (disk :: disks) vol) :
    disk.volumeId = some vol.id ∨ ∃ vol', shape vol' = shape vol ∧ DiskVolume s' disks vol' := by
  obtain ⟨hb, hv, e, he, hid⟩ := h
  rcases List.mem_cons.mp he with rfl | he
  · exact .inl hid
  · right
    have hmap := hshape vol.id
    rw [hv, Option.map_some] at hmap
    obtain ⟨vol', hv', hs⟩ := Option.map_eq_some_iff.mp hmap
    obtain ⟨hid', -, -, hb'⟩ := shape_fields hs
    exact ⟨vol', hs, hb'.trans hb, by rw [hid', hv'], e, he, by rw [hid', hid]⟩

theorem DiskVolume.to_shape (disk : DiskSpec)
    (hshape : ∀ j, (s'.getVolume j).map shape = (s.getVolume j).map shape)
    (h : DiskVolume s' disks vol') :
    ∃ vol, shape vol' = shape vol ∧ DiskVolume s (disk :: disks) vol := by
  obtain ⟨hb, hv, e, he, hid⟩ := h
  have hmap := hshape vol'.id
  rw [hv, Option.map_some] at hmap
  obtain ⟨vol, hvol, hs⟩ := Option.map_eq_some_iff.mp hmap.symm
  obtain ⟨hid', -, -, hb'⟩ := shape_fields hs
  exact ⟨vol, hs.symm, hb'.trans hb, by rw [hid', hvol], e, List.mem_cons_of_mem _ he,
    by rw [hid', hid]⟩

/-- The loop over the disks: the file of each replica volume arrives, and no other file of the
destination changes. -/
structure Ensured (env : Env) (dest : NodeId) (s d d' : Host β) (disks : List DiskSpec) :
    Prop where
  landed : ∀ vol, DiskVolume s disks vol →
    d'.files (.disk vol.id vol.format) = some (arriving env dest s d vol)
  kept : ∀ path, (∀ vol, DiskVolume s disks vol → path ≠ .disk vol.id vol.format) →
    d'.files path = d.files path

theorem Ensured.skip {disk : DiskSpec} (h : Ensured env dest s d d' disks)
    (hno : ∀ vol, DiskVolume s (disk :: disks) vol → DiskVolume s disks vol) :
    Ensured env dest s d d' (disk :: disks) :=
  ⟨fun vol hv => h.landed vol (hno vol hv),
    fun path hp => h.kept path (fun vol hv => by
      obtain ⟨hb, hget, e, he, hid⟩ := hv
      exact hp vol ⟨hb, hget, e, List.mem_cons_of_mem _ he, hid⟩)⟩

/-- One volume, and then the rest of the disks, which may have it again. -/
theorem Ensured.cons {disk : DiskSpec} {s₁ d₁ : Host β} (h : Ensured env dest s₁ d₁ d' disks)
    (hid : disk.volumeId = some vol.id) (hv : s.getVolume vol.id = some vol)
    (hb : vol.backend = .replica) (hsfiles : s₁.files = s.files)
    (hshape : ∀ j, (s₁.getVolume j).map shape = (s.getVolume j).map shape)
    (hdfiles : d₁.files = Function.update d.files (.disk vol.id vol.format)
      (some (arriving env dest s d vol))) :
    Ensured env dest s d d' (disk :: disks) := by
  have hself : DiskVolume s (disk :: disks) vol := ⟨hb, hv, disk, List.mem_cons_self, hid⟩
  have hfirst : d₁.files (.disk vol.id vol.format) = some (arriving env dest s d vol) := by
    rw [hdfiles, Function.update_self]
  have hlater : ∀ v v', shape v' = shape v → DiskVolume s (disk :: disks) v →
      DiskVolume s₁ disks v' →
      d'.files (.disk v.id v.format) = some (arriving env dest s d v) := by
    intro v v' hs hdisk hv'
    obtain ⟨hid', hformat', -, -⟩ := shape_fields hs
    have hland := h.landed v' hv'
    rw [hid', hformat', arriving_congr _ _ _ hsfiles hs] at hland
    rw [hland]
    by_cases hsame : v.id = vol.id
    · have hvv : v = vol := by
        have := hdisk.2.1
        rw [hsame, hv] at this
        exact (Option.some.inj this).symm
      subst hvv
      rw [arriving_again hfirst]
    · have hother : d₁.files (.disk v.id v.format) = d.files (.disk v.id v.format) := by
        rw [hdfiles, Function.update_of_ne]
        intro heq
        exact hsame (PathBuf.disk.inj heq).1
      simp only [arriving, hother]
  refine ⟨?_, ?_⟩
  · intro v hdisk
    rcases hdisk.of_shape hshape with hhead | ⟨v', hs, hv'⟩
    · have hvv : v = vol := by
        have hids : v.id = vol.id := Option.some.inj (hhead.symm.trans hid)
        have := hdisk.2.1
        rw [hids, hv] at this
        exact (Option.some.inj this).symm
      subst hvv
      by_cases hagain : ∃ v', shape v' = shape v ∧ DiskVolume s₁ disks v'
      · obtain ⟨v', hs, hv'⟩ := hagain
        exact hlater v v' hs hdisk hv'
      · rw [h.kept, hfirst]
        rintro v' hv' heq
        obtain ⟨u, hs, hu⟩ := hv'.to_shape disk hshape
        obtain ⟨hid', -, -, -⟩ := shape_fields hs
        have hids : u.id = v.id := hid'.symm.trans (PathBuf.disk.inj heq).1.symm
        have huv : u = v := by
          have := hu.2.1
          rw [hids, hv] at this
          exact (Option.some.inj this).symm
        exact hagain ⟨v', huv ▸ hs, hv'⟩
    · exact hlater v v' hs hdisk hv'
  · intro path hpath
    rw [h.kept, hdfiles, Function.update_of_ne (hpath vol hself)]
    intro v' hv' heq
    obtain ⟨u, hs, hu⟩ := hv'.to_shape disk hshape
    obtain ⟨hid', hformat', -, -⟩ := shape_fields hs
    exact hpath u hu (by rw [heq, hid', hformat'])

theorem ensureVolumes_ok (hans : ∀ j, Answers env s dest (.ready j))
    (h : ensureVolumes env dest disks s d = (s', d', .ok ())) :
    Ensured env dest s d d' disks ∧ s'.files = s.files := by
  induction disks generalizing s d with
  | nil =>
    simp only [ensureVolumes, Prod.mk.injEq, and_true] at h
    obtain ⟨rfl, rfl⟩ := h
    exact ⟨⟨fun vol ⟨_, _, e, he, _⟩ => by simp at he, fun _ _ => rfl⟩, rfl⟩
  | cons disk disks ih =>
    have skip : ensureVolumes env dest disks s d = (s', d', .ok ()) →
        (∀ vol, s.getVolume vol.id = some vol → vol.backend = .replica →
          disk.volumeId ≠ some vol.id) →
        Ensured env dest s d d' (disk :: disks) ∧ s'.files = s.files := by
      intro hrest hno
      obtain ⟨hens, hfiles⟩ := ih hans hrest
      refine ⟨hens.skip ?_, hfiles⟩
      rintro vol ⟨hb, hv, e, he, hid⟩
      rcases List.mem_cons.mp he with rfl | he
      · exact absurd hid (hno vol hv hb)
      · exact ⟨hb, hv, e, he, hid⟩
    unfold ensureVolumes at h
    cases hget : disk.volumeId.bind s.getVolume with
    | none =>
      simp only [hget] at h
      refine skip h ?_
      intro vol hv _ hid
      simp [hid, hv] at hget
    | some vol =>
      obtain ⟨id, hid, hv⟩ := Option.bind_eq_some_iff.mp hget
      obtain rfl : vol.id = id := Host.id_of_getVolume hv
      simp only [hget] at h
      have other : vol.backend ≠ .replica →
          ∀ v, s.getVolume v.id = some v → v.backend = .replica → disk.volumeId ≠ some v.id := by
        intro hne v hv' hb' hid'
        have hids : vol.id = v.id := Option.some.inj (hid.symm.trans hid')
        rw [← hids, hv] at hv'
        cases hv'
        exact hne hb'
      cases hb : vol.backend with
      | rbd =>
        simp only [hb] at h
        exact skip h (other (by simp [hb]))
      | zfs => simp [hb] at h
      | replica =>
        simp only [hb] at h
        split at h
        · cases h
        · rename_i s₁ d₁ hstep
          obtain ⟨hsfiles, hans₁, hshape, hdfiles⟩ := ensureVolume_ok hv hb hans hstep
          obtain ⟨hens, hfiles⟩ := ih hans₁ h
          exact ⟨hens.cons hid hv hb hsfiles hshape hdfiles, hfiles.trans hsfiles⟩

/-- `b` is the backing volume of `a` in this node's inventory. -/
def Backs (s : Host β) (a b : VolumeRecord) : Prop :=
  a.backingId = some b.id ∧ s.getVolume b.id = some b

/-- What the file of a volume has to be before the call. For a volume that is itself a disk of
the guest, what arrives at the destination has to be the file of the node where the guest last
ran; for any other volume the destination has to have that file already. -/
def ArrivesAs (env : Env) (w : Fleet β) (self dest src : NodeId) (disks : List DiskSpec)
    (c : VolumeRecord) : Prop :=
  (∀ vol, dest ≠ self → DiskVolume (w self) disks vol → c.path = .disk vol.id vol.format →
    (w src).files c.path = some (arriving env dest (w self) (w dest) vol)) ∧
  ((∀ vol, dest ≠ self → DiskVolume (w self) disks vol → c.path ≠ .disk vol.id vol.format) →
    (w src).files c.path = (w dest).files c.path)

theorem ensureVolumesOnNode_file {w w' : Fleet β} {spec : VmSpec}
    (hans : ∀ r, Answers env (w self) dest r)
    (h : ensureVolumesOnNode env w self spec dest = (w', .ok ())) (src : NodeId)
    (c : VolumeRecord) :
    (w' dest).files c.path = (w src).files c.path ↔
      ArrivesAs env w self dest src spec.disks c := by
  unfold ensureVolumesOnNode at h
  split at h
  · rename_i heq
    cases h
    simp [ArrivesAs, heq, eq_comm]
  · rename_i hne
    simp only [Prod.mk.injEq] at h
    obtain ⟨rfl, hok⟩ := h
    have hens : Ensured env dest (w self) (w dest)
        (ensureVolumes env dest spec.disks (w self) (w dest)).2.1 spec.disks :=
      (ensureVolumes_ok (fun j => hans (.ready j)) (by rw [← hok])).1
    rw [Function.update_self]
    by_cases hdisk : ∃ vol, DiskVolume (w self) spec.disks vol ∧
        c.path = .disk vol.id vol.format
    · obtain ⟨vol, hv, hpath⟩ := hdisk
      have hland := hens.landed vol hv
      rw [← hpath] at hland
      rw [hland]
      constructor
      · intro hsrc
        refine ⟨?_, fun hno => absurd hpath (hno vol hne hv)⟩
        intro v _ hv' hpath'
        have hids := (PathBuf.disk.inj (hpath.symm.trans hpath')).1
        have hvv : vol = v := by
          have := hv.2.1
          rw [hids, hv'.2.1] at this
          exact (Option.some.inj this).symm
        rw [← hvv, ← hsrc]
      · rintro ⟨hsrc, -⟩
        exact (hsrc vol hne hv hpath).symm
    · have hno : ∀ vol, DiskVolume (w self) spec.disks vol →
          c.path ≠ .disk vol.id vol.format := fun vol hv hp => hdisk ⟨vol, hv, hp⟩
      rw [hens.kept c.path hno]
      constructor
      · intro hsrc
        exact ⟨fun vol _ hv hp => absurd hp (hno vol hv), fun _ => hsrc.symm⟩
      · rintro ⟨-, hsrc⟩
        exact (hsrc (fun vol _ hv => hno vol hv)).symm

end Pertisk.Storage
