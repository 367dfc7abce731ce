import Pertisk.Lib.Calls
import Pertisk.Lib.Ranked
import Pertisk.Service.Power

namespace Pertisk.Boot
open Lib Service

/-- The lengths of a node's files. -/
abbrev Lengths := PathBuf → Option Nat

def startsWith (path : PathBuf) (word : String) : Bool :=
  match path with
  | .text s => decide (word.toList <+: s.toList)
  | _ => false

def isRbd (path : PathBuf) : Bool := startsWith path "rbd:"

/-- A file larger than a blank volume usually has an installed system. -/
def diskLikelyBootable (len : Lengths) (path : PathBuf) : Bool :=
  startsWith path "rbd:" || startsWith path "zfs:" ||
    (len path).any (fun bytes => decide (512 * 1024 * 1024 < bytes))

/-- The block device of a ZFS path, and else the path itself. -/
def guestDiskPath (path : PathBuf) : PathBuf :=
  match path with
  | .text s =>
    if startsWith path "zfs:" then
      let dataset := String.ofList ((s.toList.drop 4).dropWhile (· == '/'))
      .text s!"/dev/zvol/{dataset}"
    else path
  | _ => path

def driveFormat (path : PathBuf) : String :=
  if ".qcow2".toList <:+ (fileNameOf path).toList.map Char.toLower then "qcow2" else "raw"

/-- Installers that firmware cannot boot, and that are booted by their kernel. -/
def isoIsMetal (disk : DiskSpec) : Bool :=
  let name := disk.isoName.getD (fileNameOf disk.path)
  mentions name "talos" || mentions name "metal-amd" || mentions name "metal-arm"

def isInstaller (disk : DiskSpec) : Bool := disk.cdrom && !isoIsCidata disk

/-- CD-ROMs first, and cloud-init seeds last. -/
def bootRank (disk : DiskSpec) : Nat :=
  if isInstaller disk then 0 else if !disk.cdrom then 1 else 2

def installed (len : Lengths) (disks : List DiskSpec) : Bool :=
  disks.any (fun disk => !disk.cdrom && diskLikelyBootable len disk.path)

def driveId (index : Nat) : String := s!"disk{index}"

inductive Device
  | virtioBlk
  | seed
  | ideCd (bus : Nat)
  deriving DecidableEq

/-- A drive in QEMU's arguments, with the disk of the spec that it is for. -/
structure Drive where
  disk : DiskSpec
  id : String
  file : PathBuf
  format : String
  readonly : Bool := false
  cdrom : Bool := false
  unlocked : Bool := false
  device : Device := .virtioBlk
  bootindex : Option Nat := none
  deriving DecidableEq

/-- An empty disk must not outrank the installer; `next` is the next index. -/
def driveBootindex (disk : DiskSpec) (diskBootable : Bool) (next : Nat) : Option Nat :=
  if isoIsCidata disk || (disk.cdrom && diskBootable) then none else some next

def drive (aarch64 diskBootable : Bool) (index next cd : Nat) (disk : DiskSpec) : Drive :=
  if isoIsCidata disk then
    { disk := disk, id := driveId index, file := disk.path, format := "raw", readonly := true,
      device := .seed }
  else if disk.cdrom then
    { disk := disk, id := driveId index, file := disk.path, format := driveFormat disk.path,
      readonly := true, cdrom := true, device := if aarch64 then .virtioBlk else .ideCd cd
      bootindex := driveBootindex disk diskBootable next }
  else
    { disk := disk, id := driveId index, file := guestDiskPath disk.path,
      format := driveFormat disk.path, unlocked := isRbd disk.path
      bootindex := driveBootindex disk diskBootable next }

/-- The drives in their order; the counters are bytes that stay at their highest value. -/
def drivesFrom (aarch64 diskBootable : Bool) (index next cd : Nat) : List DiskSpec → List Drive
  | [] => []
  | disk :: rest =>
    let bump := if (driveBootindex disk diskBootable next).isSome then 1 else 0
    let used := if isInstaller disk && !aarch64 then 1 else 0
    drive aarch64 diskBootable index next cd disk ::
      drivesFrom aarch64 diskBootable (index + 1) (min 255 (next + bump)) (min 255 (cd + used)) rest

def ordered (spec : VmSpec) : List DiskSpec := sortByKey bootRank spec.disks

/-- The drives with which QEMU is spawned. -/
def drives (aarch64 : Bool) (len : Lengths) (spec : VmSpec) : List Drive :=
  drivesFrom aarch64 (installed len (ordered spec)) 0 1 0 (ordered spec)

/-- Drive id that QEMU was given for this volume, after the same sort as in a spawn. -/
def diskDeviceId (spec : VmSpec) (volumeId : VolumeId) : Option String :=
  (ordered spec).zipIdx.findSome? (fun entry =>
    if entry.1.cdrom || entry.1.volumeId != some volumeId then none else some (driveId entry.2))

structure MirrorExport where
  device : String
  format : String
  deriving DecidableEq

def mirrorExports (spec : VmSpec) : List MirrorExport :=
  (ordered spec).zipIdx.filterMap (fun entry =>
    if entry.1.cdrom || isRbd entry.1.path then none
    else some ⟨driveId entry.2, driveFormat entry.1.path⟩)

/-- What stays in the boot spec of a guest whose disk looks installed. -/
def keptAtBoot (disk : DiskSpec) : Bool := !disk.cdrom || isoIsCidata disk || isoIsMetal disk

/-- Drop installer ISOs from the boot config once the VM disk looks installed. -/
def preferDiskBootSpec (len : Lengths) (spec : VmSpec) : VmSpec :=
  if installed len spec.disks then { spec with disks := spec.disks.filter keptAtBoot } else spec

/-- A kernel that was found on an ISO. -/
structure LinuxBoot where
  kernel : PathBuf
  initrdMib : Nat
  talos : Bool

/-- The guest holds the compressed initramfs and its unpacked copy. -/
def LinuxBoot.neededMib (boot : LinuxBoot) : Nat :=
  if boot.talos then 2048 else max (boot.initrdMib * 8) 1024

/-- What is found when a disk's boot partition or an ISO is looked into. -/
structure Extract where
  shim : DiskSpec → Except String (Option PathBuf)
  linux : DiskSpec → Except String (Option LinuxBoot)

/-- The ISO's name without its last extension. -/
def isoStem (disk : DiskSpec) : String :=
  match disk.isoName with
  | none => "iso"
  | some name =>
    let file := (fileNameOf (.text name)).toList
    match (file.reverse.dropWhile (· ≠ '.')).tail.reverse with
    | [] => String.ofList file
    | stem => String.ofList stem

def installerBoot (extract : Extract) (disk : DiskSpec) (spec : VmSpec) : Except String VmSpec := do
  let name := isoStem disk
  match ← extract.linux disk with
  | some boot =>
    let needed := boot.neededMib
    let initrd := boot.initrdMib
    let memory := spec.memoryMib
    if spec.memoryMib < boot.neededMib then
      .error (invalidSpec (s!"{name} boots a {initrd} MiB initramfs and needs at least " ++
        s!"{needed} MiB of guest memory (VM has {memory}); " ++
        "Linux installers realistically want 2048+ MiB")).text
    else .ok { spec with kernel := some boot.kernel }
  | none =>
    if isoIsMetal disk then
      .error (invalidSpec (s!"{name} is a Talos/metal ISO but no /boot/vmlinuz was found to " ++
        "kernel-boot; OVMF cannot load the ~100MiB UKI and drops to the EFI shell")).text
    else .ok spec

def isoLinuxBootSpec (driver : DriverKind) (len : Lengths) (extract : Extract) (spec : VmSpec) :
    Except String VmSpec := do
  if spec.kernel.isSome || driver = .mock then .ok spec
  else
    let shim ← (match driver, spec.disks.find? (fun disk => !disk.cdrom) with
      | .cloudHypervisor, some disk => extract.shim disk
      | _, _ => .ok none)
    match shim, spec.disks.find? isInstaller with
    | some kernel, _ => .ok { spec with kernel := some kernel }
    | none, none => .ok spec
    | none, some disk =>
      if !isoIsMetal disk && installed len spec.disks then .ok spec
      else installerBoot extract disk spec

/-- The spec that QEMU is spawned with. -/
def bootSpec (driver : DriverKind) (len : Lengths) (extract : Extract) (spec : VmSpec) :
    Except String VmSpec :=
  (isoLinuxBootSpec driver len extract spec).map (preferDiskBootSpec len)

variable {driver : DriverKind} {len : Lengths} {extract : Extract} {spec boot : VmSpec}
  {disk : DiskSpec} {aarch64 bootable : Bool} {disks : List DiskSpec} {index next cd : Nat}

theorem installerBoot_disks (h : installerBoot extract disk spec = .ok boot) :
    boot.disks = spec.disks := by
  obtain ⟨found, -, h⟩ := bind_ok h
  cases found with
  | none =>
    simp only at h
    split at h <;> cases h
    rfl
  | some linux =>
    simp only at h
    split at h <;> cases h
    rfl

/-- The kernel of an installer leaves the disks. -/
theorem isoLinuxBootSpec_disks (h : isoLinuxBootSpec driver len extract spec = .ok boot) :
    boot.disks = spec.disks := by
  unfold isoLinuxBootSpec at h
  split at h
  · cases h
    rfl
  · obtain ⟨shim, -, h⟩ := bind_ok h
    cases shim with
    | some kernel =>
      cases h
      rfl
    | none =>
      cases hfound : spec.disks.find? isInstaller with
      | none =>
        simp only [hfound] at h
        cases h
        rfl
      | some disk =>
        simp only [hfound] at h
        split at h
        · cases h
          rfl
        · exact installerBoot_disks h

theorem preferDiskBootSpec_disks (h : boot.disks = spec.disks) :
    (preferDiskBootSpec len boot).disks = (preferDiskBootSpec len spec).disks := by
  unfold preferDiskBootSpec
  rw [h]
  split
  · rfl
  · exact h

theorem bootSpec_disks (h : bootSpec driver len extract spec = .ok boot) :
    boot.disks = (preferDiskBootSpec len spec).disks := by
  unfold bootSpec at h
  cases hlinux : isoLinuxBootSpec driver len extract spec with
  | error text =>
    rw [hlinux] at h
    cases h
  | ok linux =>
    rw [hlinux] at h
    cases h
    exact preferDiskBootSpec_disks (isoLinuxBootSpec_disks hlinux)

theorem bootRank_lt (disk : DiskSpec) : bootRank disk < 3 := by
  unfold bootRank
  split
  · omega
  · split <;> omega

theorem bootRank_zero : bootRank disk = 0 ↔ isInstaller disk = true := by
  unfold bootRank
  split
  · simp [*]
  · split <;> simp [*]

theorem bootRank_one : bootRank disk = 1 ↔ disk.cdrom = false := by
  unfold bootRank isInstaller
  cases disk.cdrom <;> cases isoIsCidata disk <;> simp

theorem bootRank_two : bootRank disk = 2 ↔ disk.cdrom = true ∧ isoIsCidata disk = true := by
  unfold bootRank isInstaller
  cases disk.cdrom <;> cases isoIsCidata disk <;> simp

/-- The CD-ROMs of a start with these lengths. -/
def cdroms (len : Lengths) (spec : VmSpec) : List DiskSpec :=
  (preferDiskBootSpec len spec).disks.filter isInstaller

def dataDisks (spec : VmSpec) : List DiskSpec := spec.disks.filter (fun disk => !disk.cdrom)

def seeds (spec : VmSpec) : List DiskSpec :=
  spec.disks.filter (fun disk => disk.cdrom && isoIsCidata disk)

theorem ordered_eq (spec : VmSpec) :
    ordered spec = spec.disks.filter isInstaller ++ dataDisks spec ++ seeds spec := by
  have hzero : spec.disks.filter (fun b => bootRank b = 0) = spec.disks.filter isInstaller :=
    List.filter_congr (fun disk _ => by simp only [bootRank_zero, Bool.decide_eq_true])
  have hone : spec.disks.filter (fun b => bootRank b = 1) = dataDisks spec :=
    List.filter_congr (fun disk _ => by simp [bootRank_one])
  have htwo : spec.disks.filter (fun b => bootRank b = 2) = seeds spec :=
    List.filter_congr (fun disk _ => by simp [bootRank_two])
  rw [ordered, sortByKey_eq (fun disk _ => bootRank_lt disk)]
  simp only [byRank, List.range_succ, List.range_zero, List.nil_append, List.flatMap_append,
    List.flatMap_cons, List.flatMap_nil, List.append_nil, hzero, hone, htwo]

theorem dataDisks_prefer : dataDisks (preferDiskBootSpec len spec) = dataDisks spec := by
  unfold preferDiskBootSpec
  split
  · rw [dataDisks, List.filter_filter]
    refine List.filter_congr (fun disk _ => ?_)
    unfold keptAtBoot
    cases disk.cdrom <;> simp
  · rfl

theorem seeds_prefer : seeds (preferDiskBootSpec len spec) = seeds spec := by
  unfold preferDiskBootSpec
  split
  · rw [seeds, List.filter_filter]
    refine List.filter_congr (fun disk _ => ?_)
    unfold keptAtBoot
    cases isoIsCidata disk <;> simp
  · rfl

/-- A start puts the CD-ROMs that it leaves first, then the disks, and the seeds last. -/
theorem ordered_prefer :
    ordered (preferDiskBootSpec len spec) = cdroms len spec ++ dataDisks spec ++ seeds spec := by
  rw [ordered_eq, dataDisks_prefer, seeds_prefer]
  rfl

theorem drivesFrom_disks : (drivesFrom aarch64 bootable index next cd disks).map
    (fun d => (d.disk, d.id)) = (disks.zipIdx index).map (fun e => (e.1, driveId e.2)) := by
  induction disks generalizing index next cd with
  | nil => rfl
  | cons disk rest ih =>
    have hdrive : (drive aarch64 bootable index next cd disk).disk = disk ∧
        (drive aarch64 bootable index next cd disk).id = driveId index := by
      unfold drive
      split
      · exact ⟨rfl, rfl⟩
      · split <;> exact ⟨rfl, rfl⟩
    rw [drivesFrom, List.map_cons, ih, List.zipIdx_cons, List.map_cons, hdrive.1, hdrive.2]

/-- The drives are those of the disks in their order, numbered from zero. -/
theorem drives_disks : (drives aarch64 len spec).map (fun d => (d.disk, d.id)) =
    (ordered spec).zipIdx.map (fun e => (e.1, driveId e.2)) := drivesFrom_disks

theorem driveId_injective : Function.Injective driveId := by
  intro i j h
  have hdigits : toString i = toString j := by
    simpa [driveId, String.append_right_inj] using h
  have hdecimal : Nat.toDigits 10 i = Nat.toDigits 10 j := by
    simpa [Nat.toString_eq_repr] using congrArg String.toList hdigits
  simpa only [Nat.ofDigitChars_ten_toDigits] using
    congrArg (fun cs => Nat.ofDigitChars 10 cs 0) hdecimal

end Pertisk.Boot
