import Pertisk.Boot.Recognised
import Pertisk.Lib.Text
import Pertisk.Lib.Options
import Pertisk.Storage.Host

namespace Pertisk.Boot
open Lib Service Storage

/-- The values of a flag among flags that each take one. -/
def valuesOf (flag : String) : List String → List String
  | name :: value :: rest =>
    if name = flag then value :: valuesOf flag rest else valuesOf flag rest
  | _ => []

/-- The file of a disk in QEMU's arguments. -/
def drivePath (disk : DiskSpec) : PathBuf :=
  if disk.cdrom || isoIsCidata disk then disk.path else guestDiskPath disk.path

/-- The options that a disk gets besides its file, by its kind. -/
def fixedOptions (id : String) (disk : DiskSpec) : List (String × String) :=
  [("if", "none"), ("id", id)] ++
    if isoIsCidata disk then [("readonly", "on"), ("format", "raw")]
    else if disk.cdrom then
      [("media", "cdrom"), ("readonly", "on"), ("format", driveFormat disk.path)]
    else
      [("format", driveFormat disk.path), ("cache", "writeback"), ("aio", "threads"),
        ("detect-zeroes", "off")] ++ if isRbd disk.path then [("file.locking", "off")] else []

def chars (o : String × String) : List Char × List Char := (o.1.toList, o.2.toList)

/-- What a disk's argument has to say to QEMU. -/
def intendedOptions (h : Host) (id : String) (disk : DiskSpec) : List (List Char × List Char) :=
  (("file", h.display (drivePath disk)) :: fixedOptions id disk).map chars

/-- QEMU reads for each disk its path and the options of its kind. -/
def ReadsDisks (h : Host) (spec : LaunchSpec) : Prop :=
  (valuesOf "-drive" (driveArguments h spec)).map (fun arg => options arg.toList) =
    (ordered spec.toVmSpec).zipIdx.map (fun e => intendedOptions h (driveId e.2) e.1)

/-- Paths that the service gives its disks. -/
inductive FromService : PathBuf → Prop
  | volume (id : VolumeId) (format : VolumeFormat) : FromService (.disk id format)
  | iso {explicit name : String} (h : Host.isoName explicit = .ok name) : FromService (.iso name)
  | rbd (r : Volume.Rbd) (name : String) : FromService (r.imagePath name)
  | zvol (z : Volume.Zfs) (name : String) : FromService (z.imagePath name)

/-- The argument of a disk's drive. -/
def Drive.value (h : Host) (d : Drive) : String :=
  let file := h.display d.file
  let id := d.id
  let format := d.format
  let locking := if d.unlocked then ",file.locking=off" else ""
  if d.device = .seed then s!"file={file},if=none,id={id},readonly=on,format=raw"
  else if d.cdrom then s!"file={file},if=none,id={id},media=cdrom,readonly=on,format={format}"
  else s!"file={file},if=none,id={id},format={format}" ++
    s!",cache=writeback,aio=threads,detect-zeroes=off{locking}"

section value
variable {h : Host} {aarch64 bootable : Bool} {index next cd : Nat} {disk : DiskSpec}

theorem drive_arguments (h : Host) (aarch64 bootable : Bool) (index next cd : Nat)
    (disk : DiskSpec) : ∃ device, (drive aarch64 bootable index next cd disk).arguments h =
    ["-drive", (drive aarch64 bootable index next cd disk).value h, "-device", device] := by
  unfold drive
  split
  · exact ⟨_, rfl⟩
  · split
    · cases aarch64 <;> exact ⟨_, rfl⟩
    · exact ⟨_, rfl⟩

/-- The argument of a drive is its disk's options as they stand. -/
theorem value_drive : ((drive aarch64 bootable index next cd disk).value h).toList =
    writeOptions (intendedOptions h (driveId index) disk) := by
  have hself : ∀ s : String, toString s = s := fun _ => rfl
  unfold drive intendedOptions drivePath fixedOptions
  by_cases hseed : isoIsCidata disk = true
  · simp [hseed, hself, Drive.value, writeOptions, writeOption, chars]
  · by_cases hcd : disk.cdrom = true
    · cases aarch64 <;> simp [hseed, hcd, hself, Drive.value, writeOptions, writeOption, chars]
    · cases isRbd disk.path <;>
        simp [hseed, hcd, hself, Drive.value, writeOptions, writeOption, chars]

theorem valuesOf_drive (rest : List String) :
    valuesOf "-drive" ((drive aarch64 bootable index next cd disk).arguments h ++ rest) =
      (drive aarch64 bootable index next cd disk).value h :: valuesOf "-drive" rest := by
  obtain ⟨device, hargs⟩ := drive_arguments h aarch64 bootable index next cd disk
  rw [hargs]
  rfl

theorem valuesOf_drivesFrom (disks : List DiskSpec) (rest : List String) :
    (valuesOf "-drive" ((drivesFrom aarch64 bootable index next cd disks).flatMap
        (Drive.arguments h) ++ rest)).map String.toList =
      (disks.zipIdx index).map (fun e => writeOptions (intendedOptions h (driveId e.2) e.1)) ++
        (valuesOf "-drive" rest).map String.toList := by
  induction disks generalizing index next cd with
  | nil => rfl
  | cons disk disks ih =>
    rw [drivesFrom, List.flatMap_cons, List.append_assoc, valuesOf_drive, List.map_cons, ih,
      value_drive, List.zipIdx_cons, List.map_cons, List.cons_append]

theorem valuesOf_driveArguments (h : Host) (spec : LaunchSpec) :
    (valuesOf "-drive" (driveArguments h spec)).map String.toList =
      (ordered spec.toVmSpec).zipIdx.map
        (fun e => writeOptions (intendedOptions h (driveId e.2) e.1)) := by
  have hfront : ∀ (b : Bool) (rest : List String), valuesOf "-drive"
      ((if b = true then ["-device", "ich9-ahci,id=ahci"] else []) ++ rest) =
        valuesOf "-drive" rest := by
    intro b rest
    cases b <;> rfl
  have hback : ∀ (b : Bool) (order : String), valuesOf "-drive"
      (if b = true then ["-boot", order] else []) = [] := by
    intro b order
    cases b <;> rfl
  unfold driveArguments drives
  rw [List.append_assoc, hfront, valuesOf_drivesFrom, hback, List.map_nil, List.append_nil]

/-! ### What is read back -/

theorem comma_notMem_driveId (index : ℕ) : ',' ∉ (driveId index).toList := by
  intro hmem
  have hsplit : driveId index = "disk" ++ toString index := rfl
  rw [hsplit, String.toList_append] at hmem
  rcases List.mem_append.mp hmem with hmem | hmem
  · revert hmem
    decide
  · exact notMem_toString rfl hmem

theorem driveFormat_cases (path : PathBuf) :
    driveFormat path = "qcow2" ∨ driveFormat path = "raw" := by
  unfold driveFormat
  split
  · exact .inl rfl
  · exact .inr rfl

theorem clean_chars {k v : String} (hkey : ',' ∉ k.toList) (hplain : '=' ∉ k.toList)
    (hvalue : ',' ∉ v.toList) : CleanOption (chars (k, v)) := ⟨hkey, hplain, hvalue⟩

theorem clean_fixedOptions : ∀ o ∈ fixedOptions (driveId index) disk, CleanOption (chars o) := by
  have hid : CleanOption (chars ("id", driveId index)) :=
    clean_chars (by decide) (by decide) (comma_notMem_driveId index)
  have hif : CleanOption (chars ("if", "none")) := clean_chars (by decide) (by decide) (by decide)
  have hformat : CleanOption (chars ("format", driveFormat disk.path)) := by
    rcases driveFormat_cases disk.path with heq | heq
    · rw [heq]
      exact clean_chars (by decide) (by decide) (by decide)
    · rw [heq]
      exact clean_chars (by decide) (by decide) (by decide)
  have hreadonly : CleanOption (chars ("readonly", "on")) :=
    clean_chars (by decide) (by decide) (by decide)
  unfold fixedOptions
  rw [List.forall_mem_append]
  refine ⟨?_, ?_⟩
  · exact List.forall_mem_cons.mpr ⟨hif, List.forall_mem_cons.mpr ⟨hid, nofun⟩⟩
  · split
    · refine List.forall_mem_cons.mpr ⟨hreadonly, List.forall_mem_cons.mpr ⟨?_, nofun⟩⟩
      exact clean_chars (by decide) (by decide) (by decide)
    · split
      · refine List.forall_mem_cons.mpr ⟨?_, List.forall_mem_cons.mpr ⟨hreadonly,
          List.forall_mem_cons.mpr ⟨hformat, nofun⟩⟩⟩
        exact clean_chars (by decide) (by decide) (by decide)
      · rw [List.forall_mem_append]
        refine ⟨List.forall_mem_cons.mpr ⟨hformat, ?_⟩, ?_⟩
        · refine List.forall_mem_cons.mpr ⟨?_, List.forall_mem_cons.mpr ⟨?_,
            List.forall_mem_cons.mpr ⟨?_, nofun⟩⟩⟩
          all_goals exact clean_chars (by decide) (by decide) (by decide)
        · split
          · refine List.forall_mem_cons.mpr ⟨?_, nofun⟩
            exact clean_chars (by decide) (by decide) (by decide)
          · nofun

theorem options_intended_iff (h : Host) (index : ℕ) (disk : DiskSpec) :
    options (writeOptions (intendedOptions h (driveId index) disk)) =
        intendedOptions h (driveId index) disk ↔
      ',' ∉ (h.display (drivePath disk)).toList := by
  have hkey : ',' ∉ "file".toList := by decide
  have hplain : '=' ∉ "file".toList := by decide
  refine options_write_iff hkey hplain ?_ ?_
  · unfold fixedOptions
    simp
  · intro o ho
    obtain ⟨p, hp, rfl⟩ := List.mem_map.mp ho
    exact clean_fixedOptions p hp

end value

theorem comma_mem_dropWhile (t : List Char) : ',' ∈ t.dropWhile (· == '/') ↔ ',' ∈ t := by
  refine ⟨fun hmem => (List.dropWhile_sublist _).subset hmem, fun hmem => ?_⟩
  rw [← List.takeWhile_append_dropWhile (p := (· == '/')) (l := t)] at hmem
  exact (List.mem_append.mp hmem).resolve_left fun hin =>
    absurd (List.mem_takeWhile_imp hin) (by decide)

/-- The name of a ZFS volume's block device has the commas of its path. -/
theorem comma_mem_guestDiskPath (h : Host) (path : PathBuf) :
    ',' ∈ (h.display (guestDiskPath path)).toList ↔ ',' ∈ (h.display path).toList := by
  cases path with
  | disk id format => rfl
  | iso name => rfl
  | text s =>
    by_cases hzfs : startsWith (.text s) "zfs:" = true
    · obtain ⟨t, ht⟩ := of_decide_eq_true hzfs
      have hpath : guestDiskPath (.text s) =
          .text ("/dev/zvol/" ++ String.ofList ((s.toList.drop 4).dropWhile (· == '/'))) :=
        if_pos hzfs
      have hdrop : s.toList.drop 4 = t := by
        rw [← ht]
        rfl
      have hchars : (String.ofList (t.dropWhile (· == '/'))).toList = t.dropWhile (· == '/') :=
        String.toList_ofList
      have hdev : ',' ∉ "/dev/zvol/".toList := by decide
      have hprefix : ',' ∉ "zfs:".toList := by decide
      rw [hpath, hdrop]
      simp only [Host.display]
      rw [String.toList_append, hchars, ← ht, List.mem_append, List.mem_append,
        comma_mem_dropWhile, or_iff_right hdev, or_iff_right hprefix]
    · have hpath : guestDiskPath (.text s) = .text s := if_neg hzfs
      rw [hpath]

theorem comma_mem_drivePath (h : Host) (disk : DiskSpec) :
    ',' ∈ (h.display (drivePath disk)).toList ↔ ',' ∈ (h.display disk.path).toList := by
  unfold drivePath
  split
  · rfl
  · exact comma_mem_guestDiskPath h disk.path

theorem mem_zipIdx_ordered (spec : VmSpec) (disk : DiskSpec) :
    (∃ index, (disk, index) ∈ (ordered spec).zipIdx) ↔ disk ∈ spec.disks := by
  unfold ordered sortByKey
  simp only [List.mem_zipIdx_iff_getElem?]
  rw [← List.mem_iff_getElem?, List.mem_insertionSort]

theorem readsDisks_iff (h : Host) (spec : LaunchSpec) :
    ReadsDisks h spec ↔ ∀ disk ∈ spec.disks, ',' ∉ (h.display disk.path).toList := by
  have hargs : (valuesOf "-drive" (driveArguments h spec)).map (fun arg => options arg.toList) =
      (ordered spec.toVmSpec).zipIdx.map
        (fun e => options (writeOptions (intendedOptions h (driveId e.2) e.1))) := by
    have hvalues := congrArg (List.map options) (valuesOf_driveArguments h spec)
    rwa [List.map_map, List.map_map] at hvalues
  unfold ReadsDisks
  rw [hargs, List.map_inj_left]
  simp only [options_intended_iff, comma_mem_drivePath, Prod.forall]
  constructor
  · intro hall disk hdisk
    obtain ⟨index, hmem⟩ := (mem_zipIdx_ordered spec.toVmSpec disk).mpr hdisk
    exact hall disk index hmem
  · intro hall disk index hmem
    exact hall disk ((mem_zipIdx_ordered spec.toVmSpec disk).mp ⟨index, hmem⟩)

/-! ### Which of the service's paths have a comma -/

section paths
variable {h : Host}

/-- The file of a volume has no comma of its own, -/
theorem comma_notMem_volume (hroot : ',' ∉ h.volumesRoot.toList) (id : VolumeId)
    (format : VolumeFormat) : ',' ∉ (h.display (.disk id format)).toList := by
  have hid : ',' ∉ (uuidText id).toList := by
    intro hmem
    have hchar := isIdChar_text (a := .legacy id) hmem
    exact absurd hchar (by decide)
  have hself : ∀ s : String, toString s = s := fun _ => rfl
  have hdisks : ',' ∉ "/disks/".toList := by decide
  have hdot : ',' ∉ ".".toList := by decide
  have hext : ',' ∉ "raw".toList ∧ ',' ∉ "qcow2".toList := by decide
  unfold Host.display fileNameOf
  cases format with
  | raw =>
    simp only [hself, String.toList_append, List.mem_append, not_or]
    exact ⟨⟨hroot, hdisks⟩, ⟨hid, hdot⟩, hext.1⟩
  | qcow2 =>
    simp only [hself, String.toList_append, List.mem_append, not_or]
    exact ⟨⟨hroot, hdisks⟩, ⟨hid, hdot⟩, hext.2⟩

/-- and neither has that of a ZFS volume, whose name is cleaned; -/
theorem comma_notMem_zvol {z : Volume.Zfs} (hparent : ',' ∉ z.parent.toList) (name : String) :
    ',' ∉ (h.display (z.imagePath name)).toList := by
  have hpath : (h.display (z.imagePath name)).toList = "zfs:".toList ++
      (Volume.trimMatches (· = '/') z.parent.toList ++ '/' :: Volume.sanitize name.toList) := by
    have hdisplay : h.display (z.imagePath name) = "zfs:" ++ z.datasetName name := rfl
    rw [hdisplay, String.toList_append]
    exact congrArg _ String.toList_ofList
  have hzfs : ',' ∉ "zfs:".toList := by decide
  rw [hpath]
  intro hmem
  rcases List.mem_append.mp hmem with hmem | hmem
  · exact hzfs hmem
  · rcases List.mem_append.mp hmem with hmem | hmem
    · exact hparent ((List.dropWhile_sublist _).subset (Volume.mem_trimEnd hmem))
    · rcases List.mem_cons.mp hmem with heq | hmem
      · cases heq
      · exact absurd (Volume.sanitize_char hmem) (by decide)

/-- an ISO's and an RBD image's have the commas of their names. -/
theorem comma_mem_iso (hroot : ',' ∉ h.volumesRoot.toList) (name : String) :
    ',' ∈ (h.display (.iso name)).toList ↔ ',' ∈ name.toList := by
  have hpath : h.display (.iso name) = h.volumesRoot ++ "/iso/" ++ name := rfl
  have hiso : ',' ∉ "/iso/".toList := by decide
  rw [hpath, String.toList_append, String.toList_append, List.mem_append, List.mem_append,
    or_iff_right (not_or.mpr ⟨hroot, hiso⟩)]

theorem comma_mem_rbd {r : Volume.Rbd} (hpool : ',' ∉ r.pool.toList) (name : String) :
    ',' ∈ (h.display (r.imagePath name)).toList ↔ ',' ∈ name.toList := by
  have hpath : h.display (r.imagePath name) = "rbd:" ++ (r.pool ++ "/" ++ name) := rfl
  have hrbd : ',' ∉ "rbd:".toList := by decide
  have hslash : ',' ∉ "/".toList := by decide
  rw [hpath, String.toList_append, String.toList_append, String.toList_append, List.mem_append,
    List.mem_append, List.mem_append, or_iff_right hrbd, or_iff_right (not_or.mpr ⟨hpool, hslash⟩)]

end paths

/-- An ISO whose name sets an option of its drive. -/
def commaIso : DiskSpec :=
  { path := .iso "a,snapshot=on.iso", readonly := true, cdrom := true,
    isoName := some "a,snapshot=on.iso" }

def commaSpec : LaunchSpec := { name := "web", disks := [commaIso] }

theorem iso_name_sets_option :
    ¬ ∀ h spec, (∀ disk ∈ spec.disks, FromService disk.path) → ReadsDisks h spec := by
  intro hall
  have hname : Host.isoName "a,snapshot=on.iso" = .ok "a,snapshot=on.iso" := by decide +kernel
  have hservice : ∀ disk ∈ commaSpec.disks, FromService disk.path := by
    intro disk hdisk
    rw [List.mem_singleton.mp hdisk]
    exact .iso hname
  have hreads := hall plainHost commaSpec hservice
  unfold ReadsDisks at hreads
  revert hreads
  decide +kernel

end Pertisk.Boot
