import Pertisk.Boot.Drives

namespace Pertisk.Boot
open Lib Service

/-- How to snapshot a volume that a running guest still has open. -/
inductive RunningSnapshot
  | storage
  | qemu (device : String)
  | refuse (text : String)

def runningSnapshotPlan (backend : StorageBackend) (format : VolumeFormat) (driver : DriverKind)
    (device : Option String) : RunningSnapshot :=
  match backend with
  | .rbd | .zfs => .storage
  | .replica =>
    if format ≠ .qcow2 then .refuse "raw disks cannot be snapshotted while a guest is running"
    else if driver ≠ .qemu then .refuse "live snapshot requires the qemu driver"
    else
      match device with
      | some device => .qemu device
      | none => .refuse "volume is not a disk on the running guest"

/-- The drive of a running QEMU that a command with this id is about. -/
def driveNamed (running : List Drive) (device : String) : Option Drive :=
  running.find? (fun d => d.id == device)

/-- The drive that a live snapshot of the volume goes to. -/
def snapshotDrive (driver : DriverKind) (spec : VmSpec) (volume : VolumeRecord)
    (running : List Drive) : Option Drive :=
  match runningSnapshotPlan volume.backend volume.format driver (diskDeviceId spec volume.id) with
  | .qemu device => driveNamed running device
  | .storage | .refuse _ => none

def isDiskOf (volumeId : VolumeId) (disk : DiskSpec) : Bool :=
  !(disk.cdrom || disk.volumeId != some volumeId)

/-- The drive with which QEMU was started for the volume. -/
def driveOf (running : List Drive) (volumeId : VolumeId) : Option Drive :=
  running.find? (fun d => isDiskOf volumeId d.disk)

/-- The start leaves an installer's ISO out, as a disk looks installed. -/
def LeavesOut (len : Lengths) (spec : VmSpec) : Prop :=
  (∃ disk ∈ spec.disks, disk.cdrom = false ∧ diskLikelyBootable len disk.path = true) ∧
    ∃ disk ∈ spec.disks, isInstaller disk = true ∧ isoIsMetal disk = false

variable {driver : DriverKind} {len len' : Lengths} {extract : Extract} {spec boot : VmSpec}
  {aarch64 : Bool} {v : VolumeId} {l front rest : List DiskSpec} {running : List Drive} {k : Nat}

def deviceIn (l : List DiskSpec) (volumeId : VolumeId) : Option String :=
  (l.findIdx? (isDiskOf volumeId)).map driveId

theorem findSome_zipIdx : (l.zipIdx k).findSome? (fun entry =>
    if entry.1.cdrom || entry.1.volumeId != some v then none else some (driveId entry.2)) =
    (l.findIdx? (isDiskOf v)).map (fun j => driveId (j + k)) := by
  induction l generalizing k with
  | nil => rfl
  | cons disk l ih =>
    rw [List.zipIdx_cons, List.findSome?_cons, List.findIdx?_cons, ih]
    unfold isDiskOf
    cases disk.cdrom || disk.volumeId != some v
    · simp
    · simp only [if_true, Bool.not_true, Bool.false_eq_true, if_false, Option.map_map]
      refine congrArg (fun f => Option.map f _) (funext fun j => ?_)
      show driveId (j + (k + 1)) = driveId (j + 1 + k)
      rw [Nat.add_right_comm, Nat.add_assoc]

theorem diskDeviceId_eq : diskDeviceId spec v = deviceIn (ordered spec) v := findSome_zipIdx

theorem driveOf_cons {d : Drive} : driveOf (d :: running) v =
    if isDiskOf v d.disk then some d else driveOf running v := by
  unfold driveOf
  rw [List.find?_cons]
  cases isDiskOf v d.disk <;> rfl

theorem driveOf_zipIdx (h : running.map (fun d => (d.disk, d.id)) =
    (l.zipIdx k).map (fun e => (e.1, driveId e.2))) :
    (driveOf running v).map Drive.id = (l.zipIdx k).findSome? (fun entry =>
      if entry.1.cdrom || entry.1.volumeId != some v then none else some (driveId entry.2)) := by
  induction l generalizing running k with
  | nil =>
    obtain rfl := List.map_eq_nil_iff.mp h
    rfl
  | cons disk l ih =>
    obtain ⟨d, ds, rfl, hd, hds⟩ := List.map_eq_cons_iff.mp h
    obtain ⟨rfl, hid⟩ := Prod.mk.inj hd
    rw [driveOf_cons, List.zipIdx_cons, List.findSome?_cons, ← ih hds]
    unfold isDiskOf
    cases d.disk.cdrom || d.disk.volumeId != some v
    · simpa using hid
    · rfl

/-- The drive of a volume has the id of its place among the disks. -/
theorem driveOf_drives :
    (driveOf (drives aarch64 len spec) v).map Drive.id = deviceIn (ordered spec) v :=
  (driveOf_zipIdx drives_disks).trans findSome_zipIdx

/-- Behind CD-ROMs, a volume's place is as much further back as there are CD-ROMs. -/
theorem deviceIn_append (h : ∀ disk ∈ front, disk.cdrom = true) :
    deviceIn (front ++ rest) v =
      (rest.findIdx? (isDiskOf v)).map (fun j => driveId (j + front.length)) := by
  have hnone : front.findIdx? (isDiskOf v) = none :=
    List.findIdx?_eq_none_iff.mpr (fun disk hdisk => by simp [isDiskOf, h disk hdisk])
  rw [deviceIn, List.findIdx?_append, hnone, Option.none_or, Option.map_map]
  rfl

theorem installer_cdrom {disk : DiskSpec} (h : isInstaller disk = true) : disk.cdrom = true := by
  unfold isInstaller at h
  exact (Bool.and_eq_true_iff.mp h).1

theorem keptAtBoot_installer {disk : DiskSpec} (h : isInstaller disk = true) :
    keptAtBoot disk = isoIsMetal disk := by
  simp only [isInstaller, Bool.and_eq_true, Bool.not_eq_true'] at h
  simp [keptAtBoot, h.1, h.2]

theorem installed_iff : installed len spec.disks = true ↔
    ∃ disk ∈ spec.disks, disk.cdrom = false ∧ diskLikelyBootable len disk.path = true := by
  simp [installed, List.any_eq_true]

/-- A start has fewer CD-ROMs than the record when it leaves one out. -/
theorem cdroms_length_iff :
    (spec.disks.filter isInstaller).length = (cdroms len spec).length ↔ ¬ LeavesOut len spec := by
  unfold cdroms preferDiskBootSpec LeavesOut
  rw [← installed_iff]
  split
  · rename_i hinstalled
    simp only [List.filter_filter, hinstalled, true_and]
    rw [eq_comm, List.filter_congr (fun disk _ => Bool.and_comm _ _), ← List.filter_filter,
      List.length_filter_eq_length_iff]
    simp only [List.mem_filter, and_imp]
    constructor
    · rintro hkept ⟨disk, hdisk, hinstaller, hmetal⟩
      have hkeep := hkept disk hdisk hinstaller
      rw [keptAtBoot_installer hinstaller, hmetal] at hkeep
      cases hkeep
    · intro hnone disk hdisk hinstaller
      rw [keptAtBoot_installer hinstaller]
      by_contra hmetal
      exact hnone ⟨disk, hdisk, hinstaller, Bool.eq_false_iff.mpr hmetal⟩
  · rename_i hinstalled
    exact iff_of_true rfl (fun h => hinstalled h.1)

theorem ordered_boot (hboot : bootSpec driver len extract spec = .ok boot) :
    ordered boot = cdroms len spec ++ dataDisks spec ++ seeds spec := by
  rw [← ordered_prefer, ordered, ordered, bootSpec_disks hboot]

/-- The id that a live snapshot computes from the record is the one under which QEMU was started
with the volume exactly when that start left no installer's ISO out. -/
theorem snapshot_device_iff (hdisk : ∃ disk ∈ spec.disks, disk.cdrom = false ∧ disk.volumeId = some v)
    (hboot : bootSpec driver len extract spec = .ok boot) :
    diskDeviceId spec v = (driveOf (drives aarch64 len' boot) v).map Drive.id ↔
      ¬ LeavesOut len spec := by
  have hcdroms : ∀ disk ∈ cdroms len spec, disk.cdrom = true :=
    fun disk h => installer_cdrom (List.mem_filter.mp h).2
  have hinstallers : ∀ disk ∈ spec.disks.filter isInstaller, disk.cdrom = true :=
    fun disk h => installer_cdrom (List.mem_filter.mp h).2
  obtain ⟨j, hj⟩ : ∃ j, (dataDisks spec ++ seeds spec).findIdx? (isDiskOf v) = some j := by
    obtain ⟨disk, hmem, hdata, hvolume⟩ := hdisk
    refine Option.isSome_iff_exists.mp ?_
    rw [List.findIdx?_isSome, List.any_eq_true]
    refine ⟨disk, List.mem_append_left _ (List.mem_filter.mpr ⟨hmem, by simp [hdata]⟩), ?_⟩
    simp [isDiskOf, hdata, hvolume]
  rw [diskDeviceId_eq, driveOf_drives, ordered_boot hboot, ordered_eq, List.append_assoc,
    List.append_assoc, deviceIn_append hinstallers, deviceIn_append hcdroms, hj,
    ← cdroms_length_iff]
  simp only [Option.map_some, Option.some.injEq, driveId_injective.eq_iff, Nat.add_left_cancel_iff]

def rootDisk : DiskSpec := { path := .disk 1 .qcow2, volumeId := some 1 }

def dataDisk : DiskSpec := { path := .disk 2 .qcow2, volumeId := some 2 }

def installerDisk : DiskSpec :=
  { path := .iso "alpine.iso", readonly := true, cdrom := true, isoName := some "alpine.iso" }

def seedDisk : DiskSpec :=
  { path := .iso "web-cidata.iso", readonly := true, cdrom := true,
    isoName := some "web-cidata.iso" }

def rootVolume : VolumeRecord :=
  { id := 1, name := "root", format := .qcow2, sizeBytes := 2 ^ 34, path := .disk 1 .qcow2 }

/-- The root disk has grown to a gibibyte. -/
def grown : Lengths := fun path => if path = rootDisk.path then some (2 ^ 30) else none

/-- Nothing is found to boot by its kernel. -/
def noKernel : Extract := ⟨fun _ => .ok none, fun _ => .ok none⟩

/-- A guest that was set up from its cloud image. -/
def cloudSpec : VmSpec := { name := "web", disks := [seedDisk, rootDisk, dataDisk] }

theorem cloud_device : ∃ boot, bootSpec .qemu grown noKernel cloudSpec = .ok boot ∧
    diskDeviceId cloudSpec 1 = (driveOf (drives false grown boot) 1).map Drive.id := by
  have hnone : ∀ disk ∈ cloudSpec.disks, isInstaller disk = false := by decide +kernel
  have hboot : bootSpec .qemu grown noKernel cloudSpec =
      .ok (preferDiskBootSpec grown cloudSpec) := rfl
  refine ⟨_, hboot, (snapshot_device_iff ⟨rootDisk, by decide +kernel⟩ hboot).mpr ?_⟩
  rintro ⟨-, disk, hdisk, hinstaller, -⟩
  rw [hnone disk hdisk] at hinstaller
  cases hinstaller

/-- A guest that still has its installer. -/
def installedSpec : VmSpec := { name := "web", disks := [installerDisk, rootDisk, dataDisk] }

/-- The installer's ISO is left out when the guest starts, as its disk has grown, and the snapshot
of its root disk goes to its data disk. -/
theorem snapshot_of_other_disk : ∃ boot, bootSpec .qemu grown noKernel installedSpec = .ok boot ∧
    diskDeviceId installedSpec 1 = some "disk1" ∧
    (driveOf (drives false grown boot) 1).map Drive.id = some "disk0" ∧
    (snapshotDrive .qemu installedSpec rootVolume (drives false grown boot)).map Drive.disk =
      some dataDisk :=
  ⟨preferDiskBootSpec grown installedSpec, rfl, by decide +kernel, by decide +kernel, by decide +kernel⟩

end Pertisk.Boot
