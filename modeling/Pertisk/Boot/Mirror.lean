import Pertisk.Boot.Snapshot
import Pertisk.Record.Changes

namespace Pertisk.Boot
open Lib Service Record

/-- What the destination of a live migration makes of the record: the spec with which it spawns a
QEMU that listens, and the drives that it exports. -/
def applyIncoming (driver : DriverKind) (inv : Inventory) (len : Lengths) (extract : Extract)
    (record : VmRecord) : Except String (VmSpec × List MirrorExport) := do
  if driver ≠ .qemu then .error "cluster peer: live migration requires the qemu driver"
  else
    let boot ← bootSpec driver len extract (inv.localizeDisks record).spec
    return (boot, mirrorExports boot)

/-- The drives that the source mirrors, unless the destination's are others. -/
def mirrorPlan (driver : DriverKind) (len : Lengths) (extract : Extract) (record : VmRecord)
    (prepared : List MirrorExport) : Except String (List MirrorExport) := do
  let boot ← bootSpec driver len extract record.spec
  if mirrorExports boot ≠ prepared then
    .error ("cluster peer: live migration drive layout does not match the running guest; " ++
      "stop and start it, then migrate again")
  else return mirrorExports boot

/-- The disk as the destination finds it. -/
def localDisk (inv : Inventory) (disk : DiskSpec) : DiskSpec := { disk with path := inv.pathOf disk }

/-- The name of a disk's file there says of it what it says here. -/
def Alike (disk disk' : DiskSpec) : Prop :=
  isoIsCidata disk' = isoIsCidata disk ∧ isoIsMetal disk' = isoIsMetal disk ∧
    isRbd disk'.path = isRbd disk.path

def isMirrored (disk : DiskSpec) : Bool := !(disk.cdrom || isRbd disk.path)

/-- Each export is of the file that is the destination's for the disk that the running guest has
under the same id. -/
def MirroredOntoItself (inv : Inventory) (source dest : List Drive) (exports : List MirrorExport) :
    Prop :=
  ∀ e ∈ exports, ∃ s d, driveNamed source e.device = some s ∧ driveNamed dest e.device = some d ∧
    d.disk = localDisk inv s.disk

variable {driver : DriverKind} {len len' lenDest : Lengths} {extract extract' : Extract}
  {spec boot : VmSpec} {aarch64 : Bool} {l : List DiskSpec} {running : List Drive} {i k : Nat}
  {record : VmRecord} {inv : Inventory} {exports prepared : List MirrorExport} {disk : DiskSpec}

theorem driveNamed_zipIdx (h : running.map (fun d => (d.disk, d.id)) =
    (l.zipIdx k).map (fun e => (e.1, driveId e.2))) :
    (driveNamed running (driveId (i + k))).map Drive.disk = l[i]? := by
  induction l generalizing running i k with
  | nil =>
    obtain rfl := List.map_eq_nil_iff.mp h
    rfl
  | cons disk l ih =>
    obtain ⟨d, ds, rfl, hd, hds⟩ := List.map_eq_cons_iff.mp h
    obtain ⟨rfl, hid⟩ := Prod.mk.inj hd
    unfold driveNamed
    rw [List.find?_cons, hid]
    cases i with
    | zero => simp
    | succ i =>
      have hne : (driveId k == driveId (i + 1 + k)) = false := by
        rw [beq_eq_false_iff_ne]
        intro he
        have heq := driveId_injective he
        omega
      have hrest := ih (i := i) hds
      have hindex : i + (k + 1) = i + 1 + k := by omega
      simp only [hne, List.getElem?_cons_succ]
      rw [← hrest, hindex]
      rfl

/-- A drive's id finds the disk at its place. -/
theorem driveNamed_drives :
    (driveNamed (drives aarch64 len spec) (driveId i)).map Drive.disk = (ordered spec)[i]? :=
  driveNamed_zipIdx (k := 0) drives_disks

theorem mem_mirrorExports {e : MirrorExport} : e ∈ mirrorExports spec ↔
    ∃ i disk, (ordered spec)[i]? = some disk ∧ isMirrored disk = true ∧
      e = ⟨driveId i, driveFormat disk.path⟩ := by
  unfold mirrorExports
  rw [List.mem_filterMap]
  constructor
  · rintro ⟨⟨disk, i⟩, hmem, he⟩
    have hget : (ordered spec)[i]? = some disk := List.mk_mem_zipIdx_iff_getElem?.mp hmem
    refine ⟨i, disk, hget, ?_⟩
    unfold isMirrored
    split at he
    · cases he
    · rename_i hno
      cases he
      exact ⟨by simpa using hno, rfl⟩
  · rintro ⟨i, disk, hget, hmirrored, rfl⟩
    refine ⟨(disk, i), List.mk_mem_zipIdx_iff_getElem?.mpr hget, ?_⟩
    unfold isMirrored at hmirrored
    rw [if_neg (by simpa using hmirrored)]

theorem driveNamed_some {s : Drive}
    (h : driveNamed (drives aarch64 len spec) (driveId i) = some s) :
    (ordered spec)[i]? = some s.disk := by
  have hget : (driveNamed (drives aarch64 len spec) (driveId i)).map Drive.disk = (ordered spec)[i]? :=
    driveNamed_drives
  rw [← hget, h]
  rfl

theorem exists_driveNamed (aarch64 : Bool) (len : Lengths) (h : (ordered spec)[i]? = some disk) :
    ∃ s, driveNamed (drives aarch64 len spec) (driveId i) = some s ∧ s.disk = disk := by
  have hget : (driveNamed (drives aarch64 len spec) (driveId i)).map Drive.disk = (ordered spec)[i]? :=
    driveNamed_drives
  rw [h] at hget
  exact Option.map_eq_some_iff.mp hget

/-- What is exported is mirrored onto itself when it stands at the same place on both sides. -/
theorem mirrored_iff {start dest : VmSpec} : MirroredOntoItself inv (drives aarch64 len start)
      (drives aarch64 len' dest) (mirrorExports dest) ↔
    ∀ (i : ℕ) (disk : DiskSpec), (ordered dest)[i]? = some disk → isMirrored disk = true →
      ∃ own, (ordered start)[i]? = some own ∧ disk = localDisk inv own := by
  constructor
  · intro h i disk hget hmirrored
    obtain ⟨s, d, hs, hd, hlocal⟩ := h _ (mem_mirrorExports.mpr ⟨i, disk, hget, hmirrored, rfl⟩)
    have hdest := driveNamed_some hd
    rw [hget] at hdest
    cases hdest
    exact ⟨s.disk, driveNamed_some hs, hlocal⟩
  · intro h e he
    obtain ⟨i, disk, hget, hmirrored, rfl⟩ := mem_mirrorExports.mp he
    obtain ⟨own, hown, hlocal⟩ := h i disk hget hmirrored
    obtain ⟨s, hs, rfl⟩ := exists_driveNamed aarch64 len hown
    obtain ⟨d, hd, rfl⟩ := exists_driveNamed aarch64 len' hget
    exact ⟨s, d, hs, hd, hlocal⟩

theorem localizeDisks_disks :
    (inv.localizeDisks record).spec.disks = record.spec.disks.map (localDisk inv) := rfl

/-- The CD-ROMs of a start that leaves installers' ISOs out, or does not. -/
def stay (out : Bool) (spec : VmSpec) : List DiskSpec :=
  if out then (spec.disks.filter isInstaller).filter keptAtBoot else spec.disks.filter isInstaller

def HasInstaller (spec : VmSpec) : Prop :=
  ∃ disk ∈ spec.disks, isInstaller disk = true ∧ isoIsMetal disk = false

theorem cdroms_eq : cdroms len spec = stay (installed len spec.disks) spec := by
  unfold cdroms preferDiskBootSpec stay
  split
  · rw [List.filter_filter, List.filter_filter]
    exact List.filter_congr (fun disk _ => Bool.and_comm _ _)
  · rfl

theorem leavesOut_iff : LeavesOut len spec ↔ installed len spec.disks = true ∧ HasInstaller spec := by
  rw [installed_iff]
  rfl

theorem stay_length : (stay true spec).length = (stay false spec).length ↔ ¬ HasInstaller spec := by
  unfold stay HasInstaller
  simp only [if_true, Bool.false_eq_true, if_false, List.length_filter_eq_length_iff,
    List.mem_filter, and_imp, not_exists, not_and]
  refine forall₃_congr (fun disk _ hinstaller => ?_)
  rw [keptAtBoot_installer hinstaller, Bool.not_eq_false]

theorem stay_eq {out out' : Bool} (h : (stay out spec).length = (stay out' spec).length) :
    stay out spec = stay out' spec := by
  have hsub : (stay true spec).Sublist (stay false spec) := List.filter_sublist
  cases out with
  | false =>
    cases out' with
    | false => rfl
    | true => exact (hsub.eq_of_length h.symm).symm
  | true =>
    cases out' with
    | false => exact hsub.eq_of_length h
    | true => rfl

/-- Two starts have as many CD-ROMs exactly when both leave one out, or neither does. -/
theorem stay_length_iff {out out' : Bool} : (stay out spec).length = (stay out' spec).length ↔
    (out = true ∧ HasInstaller spec ↔ out' = true ∧ HasInstaller spec) := by
  cases out with
  | false =>
    cases out' with
    | false => simp
    | true => rw [eq_comm, stay_length]; simp
  | true =>
    cases out' with
    | false => rw [stay_length]; simp
    | true => simp

theorem map_filter_local {q : DiskSpec → Bool}
    (h : ∀ disk ∈ record.spec.disks, q (localDisk inv disk) = q disk) :
    (record.spec.disks.map (localDisk inv)).filter q =
      (record.spec.disks.filter q).map (localDisk inv) := by
  rw [List.filter_map]
  exact congrArg (List.map (localDisk inv)) (List.filter_congr h)

section alike

variable (halike : ∀ disk ∈ record.spec.disks, Alike disk (localDisk inv disk))
include halike

theorem isInstaller_local (h : disk ∈ record.spec.disks) :
    isInstaller (localDisk inv disk) = isInstaller disk := by
  unfold isInstaller
  rw [(halike disk h).1]
  rfl

theorem keptAtBoot_local (h : disk ∈ record.spec.disks) :
    keptAtBoot (localDisk inv disk) = keptAtBoot disk := by
  unfold keptAtBoot
  rw [(halike disk h).1, (halike disk h).2.1]
  rfl

theorem isMirrored_local (h : disk ∈ record.spec.disks) :
    isMirrored (localDisk inv disk) = isMirrored disk := by
  unfold isMirrored
  rw [(halike disk h).2.2]
  rfl

theorem stay_local (out : Bool) :
    stay out (inv.localizeDisks record).spec = (stay out record.spec).map (localDisk inv) := by
  unfold stay
  rw [localizeDisks_disks, map_filter_local (fun disk h => isInstaller_local halike h)]
  split
  · rw [List.filter_map]
    refine congrArg (List.map (localDisk inv)) (List.filter_congr (fun disk h => ?_))
    exact keptAtBoot_local halike (List.mem_filter.mp h).1
  · rfl

theorem hasInstaller_local : HasInstaller (inv.localizeDisks record).spec ↔ HasInstaller record.spec := by
  unfold HasInstaller
  rw [localizeDisks_disks]
  constructor
  · rintro ⟨disk, hmem, hinstaller, hmetal⟩
    obtain ⟨own, hown, rfl⟩ := List.mem_map.mp hmem
    exact ⟨own, hown, (isInstaller_local halike hown) ▸ hinstaller, (halike own hown).2.1 ▸ hmetal⟩
  · rintro ⟨own, hown, hinstaller, hmetal⟩
    exact ⟨_, List.mem_map_of_mem hown, (isInstaller_local halike hown).trans hinstaller,
      (halike own hown).2.1.trans hmetal⟩

/-- The destination puts the disks as a start on the source would, but for the CD-ROMs. -/
theorem ordered_local (hboot : bootSpec driver len extract (inv.localizeDisks record).spec = .ok boot) :
    ordered boot = (stay (installed len (inv.localizeDisks record).spec.disks) record.spec ++
      dataDisks record.spec ++ seeds record.spec).map (localDisk inv) := by
  have hdata : dataDisks (inv.localizeDisks record).spec =
      (dataDisks record.spec).map (localDisk inv) := map_filter_local (fun _ _ => rfl)
  have hseeds : seeds (inv.localizeDisks record).spec =
      (seeds record.spec).map (localDisk inv) := by
    refine map_filter_local (fun disk h => ?_)
    rw [(halike disk h).1]
    rfl
  rw [ordered_boot hboot, cdroms_eq, stay_local halike, hdata, hseeds, List.map_append,
    List.map_append]

end alike

theorem stay_subset {out : Bool} (h : disk ∈ stay out spec) :
    disk ∈ spec.disks ∧ disk.cdrom = true := by
  unfold stay at h
  split at h
  · have hmem := List.mem_filter.mp (List.mem_filter.mp h).1
    exact ⟨hmem.1, installer_cdrom hmem.2⟩
  · have hmem := List.mem_filter.mp h
    exact ⟨hmem.1, installer_cdrom hmem.2⟩

theorem layout_subset {out : Bool} (h : disk ∈ stay out spec ++ dataDisks spec ++ seeds spec) :
    disk ∈ spec.disks := by
  rcases List.mem_append.mp h with h | h
  · rcases List.mem_append.mp h with h | h
    · exact (stay_subset h).1
    · exact (List.mem_filter.mp h).1
  · exact (List.mem_filter.mp h).1

theorem not_mirrored_cdrom (h : disk.cdrom = true) : ¬ isMirrored disk = true := by
  simp [isMirrored, h]

theorem applyIncoming_ok {dest : VmSpec}
    (h : applyIncoming driver inv len extract record = .ok (dest, prepared)) :
    bootSpec driver len extract (inv.localizeDisks record).spec = .ok dest ∧
      prepared = mirrorExports dest := by
  unfold applyIncoming at h
  split at h
  · cases h
  · obtain ⟨boot, hboot, h⟩ := bind_ok h
    cases h
    exact ⟨hboot, rfl⟩

/-- The check compares with what the destination exports. -/
theorem mirrorPlan_ok (h : mirrorPlan driver len extract record prepared = .ok exports) :
    exports = prepared := by
  obtain ⟨boot, -, h⟩ := bind_ok h
  split at h
  · cases h
  · rename_i hsame
    cases h
    exact not_not.mp hsame

/-- A live migration that passes its check mirrors each disk onto itself exactly when it mirrors
none, as all are RBD images, or when the start on the source and that on the destination both leave
an installer's ISO out, or neither does. -/
theorem mirrors_iff (halike : ∀ disk ∈ record.spec.disks, Alike disk (localDisk inv disk))
    {started : VmSpec} (hstarted : bootSpec .qemu len extract record.spec = .ok started)
    {extractDest : Extract} {dest : VmSpec}
    (hdest : applyIncoming .qemu inv lenDest extractDest record = .ok (dest, prepared))
    {lenNow : Lengths} (hplan : mirrorPlan .qemu lenNow extract' record prepared = .ok exports) :
    MirroredOntoItself inv (drives aarch64 len started) (drives aarch64 lenDest dest) exports ↔
      (∀ disk ∈ record.spec.disks, disk.cdrom = false → isRbd disk.path = true) ∨
      (LeavesOut len record.spec ↔ LeavesOut lenDest (inv.localizeDisks record).spec) := by
  obtain ⟨hboot, hprepared⟩ := applyIncoming_ok hdest
  rw [mirrorPlan_ok hplan, hprepared, mirrored_iff, ordered_boot hstarted, cdroms_eq,
    ordered_local halike hboot, leavesOut_iff, leavesOut_iff, hasInstaller_local halike,
    ← stay_length_iff]
  generalize installed len record.spec.disks = out
  generalize installed lenDest (inv.localizeDisks record).spec.disks = out'
  constructor
  · intro h
    by_contra hnot
    obtain ⟨hlocal, hlength⟩ := not_or.mp hnot
    push Not at hlocal
    obtain ⟨disk, hmem, hdata, hrbd⟩ := hlocal
    have hmid : ∃ b ∈ dataDisks record.spec, isMirrored b = true :=
      ⟨disk, List.mem_filter.mpr ⟨hmem, by simp [hdata]⟩, by simp [isMirrored, hdata, hrbd]⟩
    have hfront : ∀ b ∈ stay out record.spec, ¬ isMirrored b = true :=
      fun b hb => not_mirrored_cdrom (stay_subset hb).2
    have hback : ∀ b ∈ seeds record.spec, ¬ isMirrored b = true :=
      fun b hb => not_mirrored_cdrom (Bool.and_eq_true_iff.mp (List.mem_filter.mp hb).2).1
    obtain ⟨i, b, hget, hb, hnone⟩ := shifted hlength hmid hfront hback
    have hbmem := layout_subset (List.mem_of_getElem? hget)
    obtain ⟨own, hown, hsame⟩ := h i (localDisk inv b) (by rw [List.getElem?_map, hget]; rfl)
      ((isMirrored_local halike hbmem).trans hb)
    have hmirrored : isMirrored own = isMirrored b := by
      rw [← isMirrored_local halike (layout_subset (List.mem_of_getElem? hown)), ← hsame,
        isMirrored_local halike hbmem]
    exact hnone own hown (hmirrored.trans hb)
  · rintro (hall | hlength) i disk hget hmirrored
    · obtain ⟨own, hown, rfl⟩ := List.mem_map.mp (List.mem_of_getElem? hget)
      have hmem := layout_subset hown
      rw [isMirrored_local halike hmem] at hmirrored
      unfold isMirrored at hmirrored
      cases hcdrom : own.cdrom with
      | true => simp [hcdrom] at hmirrored
      | false => simp [hall own hmem hcdrom] at hmirrored
    · rw [← stay_eq hlength, List.getElem?_map] at hget
      obtain ⟨own, hown, hlocal⟩ := Option.map_eq_some_iff.mp hget
      exact ⟨own, hown, hlocal.symm⟩

def guestOf (spec : VmSpec) : VmRecord :=
  { id := .numeric 100, spec := spec, state := .running, nodeId := some 1 }

/-- The other node's volumes and ISOs. -/
def otherInventory : Inventory where
  volumes := [rootVolume,
    { id := 2, name := "data", format := .qcow2, sizeBytes := 2 ^ 34, path := .disk 2 .qcow2 }]
  isos := [⟨"alpine.iso", .iso "alpine.iso", 1, none⟩, ⟨"web-cidata.iso", .iso "web-cidata.iso", 1, none⟩]

/-- The disks as they are before a system is installed. -/
def blank : Lengths := fun _ => some 200000

theorem applyIncoming_qemu (h : bootSpec .qemu len extract (inv.localizeDisks record).spec = .ok boot) :
    applyIncoming .qemu inv len extract record = .ok (boot, mirrorExports boot) := by
  unfold applyIncoming
  rw [if_neg (by simp), h]
  rfl

theorem mirrorPlan_same (h : bootSpec driver len extract record.spec = .ok boot)
    (hsame : mirrorExports boot = prepared) :
    mirrorPlan driver len extract record prepared = .ok prepared := by
  unfold mirrorPlan
  rw [h, ← hsame]
  exact if_neg (by simp)

theorem cloud_mirrored : ∃ dest exports,
    applyIncoming .qemu otherInventory grown noKernel (guestOf cloudSpec) = .ok (dest, exports) ∧
    mirrorPlan .qemu grown noKernel (guestOf cloudSpec) exports = .ok exports ∧
    MirroredOntoItself otherInventory (drives false blank cloudSpec) (drives false grown dest)
      exports := by
  have halike : ∀ disk ∈ (guestOf cloudSpec).spec.disks,
      Alike disk (localDisk otherInventory disk) := by
    unfold Alike
    decide +kernel
  have hlocal : (otherInventory.localizeDisks (guestOf cloudSpec)).spec = cloudSpec := by
    decide +kernel
  have hnone : ∀ disk ∈ cloudSpec.disks, isInstaller disk = false := by decide +kernel
  have hleft : ∀ len, ¬ LeavesOut len cloudSpec := by
    rintro len ⟨-, disk, hdisk, hinstaller, -⟩
    rw [hnone disk hdisk] at hinstaller
    cases hinstaller
  have hstarted : bootSpec .qemu blank noKernel (guestOf cloudSpec).spec =
      .ok (preferDiskBootSpec blank cloudSpec) := rfl
  have hgrown : bootSpec .qemu grown noKernel (guestOf cloudSpec).spec =
      .ok (preferDiskBootSpec grown cloudSpec) := rfl
  have hdest := applyIncoming_qemu (hlocal.symm ▸ hgrown)
  have hplan := mirrorPlan_same hgrown rfl
  have hblank : preferDiskBootSpec blank cloudSpec = cloudSpec := by decide +kernel
  refine ⟨_, _, hdest, hplan, hblank ▸ (mirrors_iff halike hstarted hdest hplan).mpr (.inr ?_)⟩
  rw [hlocal]
  exact iff_of_false (hleft _) (hleft _)

/-- The guest was started to be installed, with the installer's ISO as its first drive. Its disk has
grown since, and neither side leaves the ISO in: the ISO is mirrored onto the root disk. -/
theorem installer_mirrored_onto_root : ∃ started dest exports,
    bootSpec .qemu blank noKernel (guestOf installedSpec).spec = .ok started ∧
    applyIncoming .qemu otherInventory grown noKernel (guestOf installedSpec) = .ok (dest, exports) ∧
    mirrorPlan .qemu grown noKernel (guestOf installedSpec) exports = .ok exports ∧
    ⟨"disk0", "qcow2"⟩ ∈ exports ∧
    (driveNamed (drives false blank started) "disk0").map Drive.disk = some installerDisk ∧
    (driveNamed (drives false grown dest) "disk0").map Drive.disk = some rootDisk ∧
    ¬ MirroredOntoItself otherInventory (drives false blank started) (drives false grown dest)
      exports := by
  have hlocal : (otherInventory.localizeDisks (guestOf installedSpec)).spec = installedSpec := by
    decide +kernel
  have hstarted : bootSpec .qemu blank noKernel (guestOf installedSpec).spec =
      .ok (preferDiskBootSpec blank installedSpec) := rfl
  have hgrown : bootSpec .qemu grown noKernel (guestOf installedSpec).spec =
      .ok (preferDiskBootSpec grown installedSpec) := rfl
  have hdest : applyIncoming .qemu otherInventory grown noKernel (guestOf installedSpec) =
      .ok (preferDiskBootSpec grown installedSpec,
        mirrorExports (preferDiskBootSpec grown installedSpec)) :=
    applyIncoming_qemu (by rw [hlocal]; exact hgrown)
  have hexport : ⟨"disk0", "qcow2"⟩ ∈ mirrorExports (preferDiskBootSpec grown installedSpec) := by
    decide +kernel
  have hsource : (driveNamed (drives false blank (preferDiskBootSpec blank installedSpec))
      "disk0").map Drive.disk = some installerDisk := by decide +kernel
  have htarget : (driveNamed (drives false grown (preferDiskBootSpec grown installedSpec))
      "disk0").map Drive.disk = some rootDisk := by decide +kernel
  refine ⟨_, _, _, hstarted, hdest, mirrorPlan_same hgrown rfl, hexport, hsource, htarget,
    fun h => ?_⟩
  obtain ⟨s, d, hs, hd, hsame⟩ := h _ hexport
  rw [hs] at hsource
  rw [hd] at htarget
  rw [Option.some.inj htarget, Option.some.inj hsource] at hsame
  exact absurd (congrArg DiskSpec.cdrom hsame) (by decide)

end Pertisk.Boot
