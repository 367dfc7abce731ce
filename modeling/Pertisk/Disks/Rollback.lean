import Pertisk.Disks.Isolated
import Pertisk.Disks.Notes
import Pertisk.Disks.Restores

namespace Pertisk.Disks
open Lib Storage Volume Backup

namespace VolumePool

variable {β : Type} {a : Site} {p q : VolumePool β} {d : Depot β} {r : VolumeRecord} {id : VolumeId}
  {s : Spot} {image : Image β} {luck : ℕ → Luck β} {bump : Option String}

/-- A volume reads as the image that its place has. -/
theorem contents_eq (hget : p.getVolume id = .ok r) (hspot : p.spot r = .ok s) :
    p.contents id = (p.images s).map Image.active := by
  unfold contents
  rw [hget]
  dsimp only
  rw [hspot]

/-- What takes the place of an image that reads the same changes no volume. -/
theorem contents_set_same (hsame : (p.images s).map Image.active = some image.active) :
    (p.set s (some image)).contents id = p.contents id := by
  cases hget : p.getVolume id with
  | error fault =>
    have hget' : (p.set s (some image)).getVolume id = .error fault := hget
    unfold contents
    rw [hget, hget']
  | ok r =>
    cases hspot : p.spot r with
    | error text =>
      have hget' : (p.set s (some image)).getVolume id = .ok r := hget
      have hspot' : (p.set s (some image)).spot r = .error text := hspot
      unfold contents
      rw [hget, hget']
      dsimp only
      rw [hspot, hspot']
    | ok t =>
      rw [contents_eq hget hspot, contents_eq (p := p.set s (some image)) hget hspot]
      by_cases heq : t = s
      · rw [heq, set_images_self, hsame]
        rfl
      · rw [set_images_ne heq]

theorem contents_set_self (image : Image β) (hget : p.getVolume id = .ok r)
    (hspot : p.spot r = .ok s) : (p.set s (some image)).contents id = some image.active := by
  rw [contents_eq (p := p.set s (some image)) hget hspot, set_images_self]
  rfl

theorem exportImage_active : (p.exportImage image).active = image.active := by
  unfold exportImage
  split <;> rfl

/-- A volume that a backup can be put back on. -/
def Local (p : VolumePool β) (vol : VolumeRecord) : Prop :=
  p.getVolume vol.id = .ok vol ∧ vol.backend.external = false

theorem Local.spot (h : p.Local r) : p.spot r = .ok (.file (p.localPath r.id r.format)) := by
  unfold VolumePool.spot
  cases hbackend : r.backend with
  | replica => rfl
  | rbd | zfs =>
    have hexternal := h.2
    rw [hbackend] at hexternal
    cases hexternal

/-- Images that read as the disks do take their places. -/
theorem replaceEach_same {jobs : List (Image β × VolumeRecord)}
    (hjobs : ∀ job ∈ jobs, p.Local job.2 ∧ p.contents job.2.id = some job.1.active) :
    (p.replaceEach jobs luck).1.contents id = p.contents id := by
  induction jobs generalizing p luck with
  | nil => rfl
  | cons job jobs ih =>
    obtain ⟨image, vol⟩ := job
    obtain ⟨hlocal, hreads⟩ := hjobs (image, vol) List.mem_cons_self
    rw [contents_eq hlocal.1 hlocal.spot, ← exportImage_active (p := p)] at hreads
    unfold replaceEach
    split
    · rfl
    · dsimp only
      rw [ih (fun other hother => ?_), contents_set_same hreads]
      obtain ⟨hthere, hsame⟩ := hjobs other (List.mem_cons_of_mem _ hother)
      exact ⟨hthere, (contents_set_same hreads).trans hsame⟩

/-- Everything goes well as far as one disk, and nothing after it. -/
def stopAfter (n : ℕ) (i : ℕ) : Luck β :=
  if i ≤ n then {} else { command := some ("No space left on device (os error 28)", none) }

theorem replaceEach_stopAfter {vol : VolumeRecord} (hlocal : p.Local vol) (image : Image β)
    (before after : List (Image β × VolumeRecord)) (text : String) :
    ∃ fault, (finish (p.replaceEach (before ++ (image, vol) :: after) (stopAfter before.length))
        (some text)).2 = .error fault ∧
      (p.replaceEach (before ++ (image, vol) :: after) (stopAfter before.length)).1.contents
        vol.id = some image.active := by
  induction before generalizing p with
  | nil =>
    have hreads := contents_set_self (p.exportImage image) hlocal.1 hlocal.spot
    rw [exportImage_active] at hreads
    cases after with
    | nil => exact ⟨_, rfl, hreads⟩
    | cons job after => exact ⟨_, rfl, hreads⟩
  | cons job before ih =>
    obtain ⟨other, vol'⟩ := job
    have hlocal' : (p.set (.file (p.localPath vol'.id vol'.format))
      (some (p.exportImage other))).Local vol := hlocal
    have hshift : (fun i => stopAfter (β := β) (before.length + 1) (i + 1)) =
        stopAfter before.length := by
      funext i
      simp only [stopAfter, Nat.add_le_add_iff_right]
    obtain ⟨fault, herror, hreads⟩ := ih hlocal'
    rw [← hshift] at herror hreads
    exact ⟨fault, herror, hreads⟩

/-- What is to be replaced is a disk of the guest, in a file of the node. -/
theorem backupJobs_mem {vm : VmRecord} {disks : List VmBackupDisk}
    {jobs : List (Image β × VolumeRecord)} (h : p.backupJobs a d vm disks = .ok jobs)
    {job : Image β × VolumeRecord} (hmem : job ∈ jobs) :
    p.Local job.2 ∧ ∃ disk ∈ vm.spec.disks, disk.volumeId = some job.2.id := by
  induction disks generalizing jobs with
  | nil =>
    cases h
    cases hmem
  | cons disk disks ih =>
    unfold backupJobs at h
    cases hstored : d.stored disk.path with
    | none => simp only [hstored, reduceCtorEq] at h
    | some image =>
      simp only [hstored] at h
      split at h
      · cases h
      · rename_i hattached
        split at h
        · cases h
        · cases h
        · rename_i vol hidle hget
          split at h
          · cases h
          · rename_i hlocal
            split at h
            · cases h
            · rename_i rest hrest
              cases h
              rcases List.mem_cons.mp hmem with rfl | hrestMem
              · obtain ⟨v, hv, hrecord, hid⟩ := getVolume_ok hget
                rw [Bool.not_eq_true', Bool.not_eq_false, List.any_eq_true] at hattached
                obtain ⟨spec, hspec, hboth⟩ := hattached
                rw [Bool.and_eq_true, beq_iff_eq] at hboth
                refine ⟨⟨?_, by simpa using hlocal⟩, spec, hspec, ?_⟩
                · rw [hid]
                  exact hget
                · rw [hid]
                  exact hboth.2
              · exact ih hrest hrestMem

theorem restoreVmBackup_of {vmId : VmId} {backupId : Uuid} {jobs : List (Image β × VolumeRecord)}
    (h : RestoreCall.Replaces a p d vmId backupId jobs) :
    p.restoreVmBackup a d luck bump vmId backupId = finish (p.replaceEach jobs luck) bump := by
  obtain ⟨vm, all, backup, hguest, htemplate, hstopped, hall, hfind, hdisks, hjobs⟩ := h
  unfold restoreVmBackup requireGuest
  rw [hguest]
  dsimp only
  rw [if_neg (by rw [htemplate]; exact Bool.false_ne_true), if_neg hstopped, hall]
  dsimp only
  rw [hfind]
  dsimp only
  rw [if_neg (by rw [hdisks]; exact Bool.false_ne_true), hjobs]

/-- A restore that replaces nothing leaves everything as it was. -/
theorem restoreVmBackup_cases (luck : ℕ → Luck β) (bump : Option String) (vmId : VmId)
    (backupId : Uuid) :
    (p.restoreVmBackup a d luck bump vmId backupId).1 = p ∨
      ∃ jobs, RestoreCall.Replaces a p d vmId backupId jobs := by
  unfold restoreVmBackup
  cases hguest : requireGuest a vmId with
  | error fault => exact .inl rfl
  | ok vm =>
    dsimp only
    split
    · exact .inl rfl
    · rename_i htemplate
      split
      · exact .inl rfl
      · rename_i hstopped
        split
        · exact .inl rfl
        · rename_i all hall
          split
          · exact .inl rfl
          · rename_i backup hfind
            split
            · exact .inl rfl
            · rename_i hdisks
              split
              · exact .inl rfl
              · rename_i jobs hjobs
                refine .inr ⟨jobs, vm, all, backup, ?_, by simpa using htemplate, hstopped, hall,
                  hfind, by simpa using hdisks, hjobs⟩
                unfold requireGuest at hguest
                split at hguest
                · cases hguest
                · rename_i hget
                  cases hguest
                  exact hget

theorem backup_allOrNothing_iff {vmId : VmId} {backupId : Uuid} :
    (RestoreCall.backup vmId backupId).AllOrNothing a p d ↔
      (RestoreCall.backup vmId backupId).Harmless a p d := by
  constructor
  · intro h jobs hreplaces job hjob
    have hreplaces' := hreplaces
    obtain ⟨vm, all, backup, hguest, -, -, -, -, -, hjobs⟩ := hreplaces'
    obtain ⟨hlocal, disk, hdisk, hid⟩ := backupJobs_mem hjobs hjob
    obtain ⟨before, after, rfl⟩ := List.append_of_mem hjob
    obtain ⟨image, vol⟩ := job
    obtain ⟨fault, herror, hreads⟩ :=
      replaceEach_stopAfter hlocal image before after "membership not written"
    have hrun : (RestoreCall.backup vmId backupId).run a p d (stopAfter before.length)
        (some "membership not written") =
          finish (p.replaceEach (before ++ (image, vol) :: after) (stopAfter before.length))
            (some "membership not written") := restoreVmBackup_of hreplaces
    have hsame := h _ _ fault (hrun ▸ herror) vm hguest disk hdisk vol.id hid
    rw [hrun, finish_fst, hreads] at hsame
    exact hsame.symm
  · intro h luck bump fault _ vm hguest disk hdisk id hid
    rcases restoreVmBackup_cases (a := a) (p := p) (d := d) luck bump vmId backupId with hsame | ⟨jobs, hreplaces⟩
    · exact congrArg (contents · id) hsame
    · have hreplaces' := hreplaces
      obtain ⟨_, _, _, _, _, _, _, _, _, hjobs⟩ := hreplaces'
      unfold RestoreCall.run
      dsimp only
      rw [restoreVmBackup_of hreplaces, finish_fst]
      exact replaceEach_same fun job hjob =>
        ⟨(backupJobs_mem hjobs hjob).1, h jobs hreplaces job hjob⟩

/-- The snapshot is a disk's of the guest. -/
theorem snapshotVolumes_mem {name : String} {disks : List DiskSpec} {ids : List VolumeId}
    (h : p.snapshotVolumes name disks = .ok ids) (hmem : id ∈ ids) :
    ∃ disk ∈ disks, disk.volumeId = some id := by
  induction disks generalizing ids with
  | nil =>
    cases h
    cases hmem
  | cons disk disks ih =>
    have later : ∀ {ids}, p.snapshotVolumes name disks = .ok ids → id ∈ ids →
        ∃ other ∈ disk :: disks, other.volumeId = some id := by
      intro ids h hmem
      obtain ⟨other, hother, hid⟩ := ih h hmem
      exact ⟨other, List.mem_cons_of_mem _ hother, hid⟩
    unfold snapshotVolumes at h
    split at h
    · exact later h hmem
    · exact later h hmem
    · rename_i own hcdrom hvolume
      split at h
      · cases h
      · cases h
      · rename_i record rest hget hrest
        cases h
        split at hmem
        · rcases List.mem_cons.mp hmem with rfl | hmem
          · exact ⟨disk, List.mem_cons_self, hvolume⟩
          · exact later hrest hmem
        · exact later hrest hmem

theorem restoreVmSnapshot_of {vmId : VmId} {name : String} {vm : VmRecord} {first : VolumeId}
    {ids : List VolumeId} (hquorum : a.node.cluster.quorumError a.now = none)
    (hname : (trimmed name).isEmpty = false) (hguest : a.node.store.get vmId = some vm)
    (hstopped : vm.state ≠ .running)
    (hvolumes : p.snapshotVolumes (trimmed name) vm.spec.disks = .ok (first :: ids)) :
    p.restoreVmSnapshot a luck vmId name =
      restoreEach a (trimmed name) p (first :: ids) luck := by
  unfold restoreVmSnapshot requireGuest
  rw [hquorum, hguest]
  dsimp only
  rw [if_neg (by rw [hname]; exact Bool.false_ne_true), if_neg hstopped, hvolumes]

theorem restoreSnapshot_of {record : VolumeRecord} {name : String} {snap : VolumeSnapshot}
    (hget : p.getVolume id = .ok record)
    (hfind : record.snapshots.find? (fun snap => snap.name == name) = some snap)
    (hspot : p.spot record = .ok s) (himage : p.restoredImage s record snap = .ok image)
    {text : String} {left : Image β} :
    p.restoreSnapshot { command := some (text, some left) } id name =
      (p.set s (some left), .error (.failed text)) := by
  unfold restoreSnapshot
  rw [hget]
  dsimp only
  rw [hfind, hspot]
  dsimp only
  rw [himage]
  rfl

/-- A restore of a volume that stops before the volume is written. -/
theorem restoreSnapshot_cases (luck : Luck β) (id : VolumeId) (name : String) :
    (∃ fault, p.restoreSnapshot luck id name = (p, .error fault)) ∨
      ∃ record snap s image, p.getVolume id = .ok record ∧
        record.snapshots.find? (fun snap => snap.name == name) = some snap ∧
        p.spot record = .ok s ∧ p.restoredImage s record snap = .ok image := by
  unfold restoreSnapshot
  split
  · exact .inl ⟨_, rfl⟩
  · rename_i record hget
    split
    · exact .inl ⟨_, rfl⟩
    · exact .inl ⟨_, rfl⟩
    · rename_i snap s hfind hspot
      split
      · exact .inl ⟨_, rfl⟩
      · rename_i image himage
        exact .inr ⟨record, snap, s, image, hget, hfind, hspot, himage⟩

theorem restoreVmSnapshot_cases (luck : ℕ → Luck β) (vmId : VmId) (name : String) :
    (p.restoreVmSnapshot a luck vmId name).1 = p ∨ RestoreCall.Begins a p vmId name := by
  unfold restoreVmSnapshot
  split
  · exact .inl rfl
  · rename_i hquorum
    split
    · exact .inl rfl
    · rename_i hname
      cases hguest : requireGuest a vmId with
      | error fault => exact .inl rfl
      | ok vm =>
        dsimp only
        split
        · exact .inl rfl
        · rename_i hstopped
          split
          · exact .inl rfl
          · exact .inl rfl
          · rename_i first ids hvolumes
            unfold restoreEach restoreVolume
            cases hidle : a.node.requireVolumeIdle first with
            | error text => exact .inl rfl
            | ok u =>
              rcases restoreSnapshot_cases (p := p) (luck 0) first
                (trimmed name) with ⟨fault, hfault⟩ |
                  ⟨record, snap, s, image, hget, hfind, hspot, himage⟩
              · dsimp only
                rw [hfault]
                exact .inl rfl
              · refine .inr ⟨vm, first, ids, record, snap, s, image, hquorum, by simpa using hname,
                  ?_, hstopped, hvolumes, hidle, hget, hfind, hspot, himage⟩
                unfold requireGuest at hguest
                split at hguest
                · cases hguest
                · rename_i hstored
                  cases hguest
                  exact hstored

theorem snapshot_allOrNothing_iff [Nontrivial β] {vmId : VmId} {name : String} :
    (RestoreCall.snapshot vmId name).AllOrNothing a p d ↔
      (RestoreCall.snapshot vmId name).Harmless a p d := by
  constructor
  · rintro h ⟨vm, first, ids, record, snap, s, image, hquorum, hname, hguest, hstopped, hvolumes,
      hidle, hget, hfind, hspot, himage⟩
    obtain ⟨contents, hother⟩ : ∃ contents, p.contents first ≠ some contents := by
      cases hcontents : p.contents first with
      | none => exact (exists_ne (Classical.arbitrary β)).imp fun _ _ => nofun
      | some old => exact (exists_ne old).imp fun _ hne heq => hne (Option.some.inj heq).symm
    have hrun : (RestoreCall.snapshot vmId name).run a p d
        (fun _ => { command := some ("short write", some (plain contents)) }) none =
        (p.set s (some (plain contents)), .error (.failed "short write")) := by
      unfold RestoreCall.run
      dsimp only
      rw [restoreVmSnapshot_of hquorum hname hguest hstopped hvolumes]
      unfold restoreEach restoreVolume
      rw [hidle]
      dsimp only
      rw [restoreSnapshot_of hget hfind hspot himage]
      rfl
    obtain ⟨disk, hdisk, hid⟩ := snapshotVolumes_mem hvolumes List.mem_cons_self
    have hsame := h _ _ _ (congrArg Prod.snd hrun) vm hguest disk hdisk first hid
    rw [hrun, contents_set_self _ hget hspot] at hsame
    exact hother hsame.symm
  · intro h luck bump fault _ vm hguest disk hdisk id hid
    rcases restoreVmSnapshot_cases (a := a) (p := p) luck vmId name with hsame | hbegins
    · exact congrArg (contents · id) hsame
    · exact absurd hbegins h

end VolumePool

/-- A failed restore leaves every disk of the guest as it was if and only if none is written before
it can fail, or only with what it reads as. -/
theorem RestoreCall.all_or_nothing_iff {β : Type} [Nontrivial β] (a : Site) (p : VolumePool β)
    (d : Depot β) (call : RestoreCall) : call.AllOrNothing a p d ↔ call.Harmless a p d := by
  cases call with
  | backup id backupId => exact VolumePool.backup_allOrNothing_iff
  | snapshot id name => exact VolumePool.snapshot_allOrNothing_iff

/-- A stopped guest with two raw disks. -/
def twoDiskGuest : VmRecord where
  id := .numeric 100
  spec :=
    { name := "vm"
      disks := [{ path := .disk 7 .raw, volumeId := some 7 },
        { path := .disk 8 .raw, volumeId := some 8 }] }
  state := .stopped
  nodeId := some 1

def twoDiskSite : Site := { loneSite with node := (Node.fresh 1).upsertVm twoDiskGuest }

def moreRecord : VolumeRecord := { diskRecord with id := 8, name := "more", path := .disk 8 .raw }

/-- Disk 7 reads 1, and disk 8 reads 2. -/
def twoDiskPool : VolumePool Nat where
  root := []
  qemu := true
  rbd := Rbd.new none
  zfs := Zfs.new none
  volumes := (Table.empty.insert (.ofRecord diskRecord)).insert (.ofRecord moreRecord)
  isos := .empty
  images s :=
    if s = .file ["disks".toList, "00000000-0000-0000-0000-000000000007.raw".toList] then
      some { active := 1, saved := [] }
    else if s = .file ["disks".toList, "00000000-0000-0000-0000-000000000008.raw".toList] then
      some { active := 2, saved := [] }
    else none

def zeroImage : Image Nat := { active := 0, saved := [] }

/-- A backup in which both read 0. -/
def zeroBackup : Depot Nat where
  catalogue := .ok [{
    id := 5
    vmId := .numeric 100
    name := "backup"
    createdUnix := 0
    disks := [{ volumeId := 7, name := "data", path := .own (.numeric 100) 5 7 .raw, sizeBytes := 8 },
      { volumeId := 8, name := "more", path := .own (.numeric 100) 5 8 .raw, sizeBytes := 8 }] }]
  stored _ := some zeroImage

theorem refused_restore_keeps :
    (RestoreCall.snapshot (.numeric 100) "daily").AllOrNothing twoDiskSite twoDiskPool
      zeroBackup := by
  refine (RestoreCall.all_or_nothing_iff _ _ _ _).mpr ?_
  rintro ⟨vm, first, ids, -, -, -, -, -, -, hguest, -, hvolumes, -⟩
  have hstored : twoDiskSite.node.store.get (.numeric 100) = some twoDiskGuest := by
    decide +kernel
  cases hguest.symm.trans hstored
  have hnone : (twoDiskPool.snapshotVolumes (trimmed "daily") twoDiskGuest.spec.disks).toOption =
      some [] := by decide +kernel
  rw [hvolumes] at hnone
  cases hnone

theorem zeroBackup_replaces :
    RestoreCall.Replaces twoDiskSite twoDiskPool zeroBackup (.numeric 100) 5
      [(zeroImage, diskRecord), (zeroImage, moreRecord)] :=
  ⟨twoDiskGuest, _, _, by decide +kernel, rfl, nofun, rfl, rfl, rfl, rfl⟩

/-- The second disk has no space left once the first is replaced. -/
theorem half_restored :
    ¬ ∀ (a : Site) (p : VolumePool Nat) (d : Depot Nat) (call : RestoreCall),
      call.AllOrNothing a p d := by
  intro h
  have hlocal : twoDiskPool.Local diskRecord := ⟨rfl, rfl⟩
  obtain ⟨fault, hfails, hreads⟩ := VolumePool.replaceEach_stopAfter hlocal zeroImage []
    [(zeroImage, moreRecord)] "membership not written"
  have hrun : (RestoreCall.backup (.numeric 100) 5).run twoDiskSite twoDiskPool zeroBackup
      (VolumePool.stopAfter 0) (some "membership not written") =
        VolumePool.finish (twoDiskPool.replaceEach [(zeroImage, diskRecord),
          (zeroImage, moreRecord)] (VolumePool.stopAfter 0)) (some "membership not written") := by
    unfold RestoreCall.run
    exact VolumePool.restoreVmBackup_of zeroBackup_replaces
  have hsame := h twoDiskSite twoDiskPool zeroBackup (.backup (.numeric 100) 5) _ _ fault
    ((congrArg Prod.snd hrun).trans hfails) twoDiskGuest (by decide +kernel)
    { path := .disk 7 .raw, volumeId := some 7 } List.mem_cons_self 7 rfl
  have hone : twoDiskPool.contents 7 = some 1 := by decide +kernel
  rw [hrun, VolumePool.finish_fst, hone] at hsame
  cases hsame.symm.trans hreads

end Pertisk.Disks
