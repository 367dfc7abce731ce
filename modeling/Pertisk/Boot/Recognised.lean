import Pertisk.Boot.Launch
import Pertisk.Store.Ids

namespace Pertisk.Boot
open Lib Service

def needle (id : VmId) : List Char := ("process=pertisk-" ++ id.text).toList

/-- `/proc/<pid>/cmdline`: each argument with a NUL behind it. -/
def procCmdline (args : List String) : List Char :=
  [nul].intercalate (args.map String.toList ++ [[]])

def cmdlineHasQemuId (cmdline : List Char) (id : VmId) : Bool :=
  (cmdline.splitOn nul).any (fun part =>
    part == needle id || decide ((',' :: needle id) <:+ part))

/-- The text is taken for the name of the guest's process. -/
def Names (text : String) (id : VmId) : Prop :=
  text.toList = needle id ∨ (',' :: needle id) <:+ text.toList

instance (text : String) (id : VmId) : Decidable (Names text id) :=
  inferInstanceAs (Decidable (_ ∨ _))

/-- What the spec says that ends an argument: what its kernel is started with, -/
def LaunchSpec.kernelTexts (spec : LaunchSpec) (h : Host) : List String :=
  match spec.kernel with
  | none => []
  | some kernel => h.display kernel :: (spec.initramfs.map h.display).toList ++ spec.cmdline.toList

/-- and the addresses of its NICs. -/
def LaunchSpec.macs (spec : LaunchSpec) : List String :=
  (spec.nets.filter (fun net => net.tap.isSome)).filterMap NetSpec.mac

/-- Some text of the spec or of the host's configuration is taken for the process name of `b`. -/
def Mentions (h : Host) (spec : LaunchSpec) (b : VmId) : Prop :=
  (∃ text ∈ h.binary :: spec.kernelTexts h, Names text b) ∨
    ∃ mac ∈ spec.macs, (',' :: needle b) <:+ mac.toList

/-- A uuid has 128 bits. -/
def Sized : VmId → Prop
  | .numeric _ => True
  | .legacy uuid => uuid < 2 ^ 128

section ids
variable {a b : VmId} {c : Char} {n : ℕ}

theorem ofDigitChars_toString : Nat.ofDigitChars 10 (toString n).toList 0 = n := by
  rw [Nat.toString_eq_repr, Nat.toList_repr, Nat.ofDigitChars_ten_toDigits]

theorem text_inj (ha : Sized a) (hb : Sized b) (h : a.text = b.text) : a = b := by
  cases a with
  | numeric n =>
    cases b with
    | numeric m =>
      have hread := congrArg (fun s : String => Nat.ofDigitChars 10 s.toList 0) h
      exact congrArg VmId.numeric (ofDigitChars_toString.symm.trans (hread.trans
        ofDigitChars_toString))
    | legacy uuid =>
      have hdigits := Store.text_digits n
      rw [show toString n = uuidText uuid from h, Store.uuid_not_digits] at hdigits
      cases hdigits
  | legacy uuid =>
    cases b with
    | numeric m =>
      have hdigits := Store.text_digits m
      rw [show toString m = uuidText uuid from h.symm, Store.uuid_not_digits] at hdigits
      cases hdigits
    | legacy uuid' => exact congrArg VmId.legacy (Store.uuidText_inj ha hb h)

theorem needle_inj (ha : Sized a) (hb : Sized b) (h : needle a = needle b) : a = b := by
  refine text_inj ha hb (String.toList_inj.mp ?_)
  unfold needle at h
  rw [String.toList_append, String.toList_append] at h
  exact List.append_cancel_left h

/-- The characters of an id. -/
def isIdChar (c : Char) : Bool := c.isDigit || decide ('a' ≤ c ∧ c ≤ 'f') || c == '-'

theorem isIdChar_toString (h : c ∈ (toString n).toList) : isIdChar c = true := by
  have hdigit := List.all_eq_true.mp (Store.text_digits n) c h
  simp [isIdChar, hdigit]

theorem isIdChar_uuidDigits {uuid : Uuid} (h : c ∈ Store.uuidDigits uuid) : isIdChar c = true := by
  rcases List.mem_append.mp h with h | h
  · rw [List.eq_of_mem_replicate h]
    decide
  · obtain ⟨d, hd, rfl⟩ := Store.mem_toDigits h
    have hdigits : ∀ d < 16, isIdChar (Nat.digitChar d) = true := by decide
    exact hdigits d hd

theorem isIdChar_text (h : c ∈ a.text.toList) : isIdChar c = true := by
  cases a with
  | numeric n => exact isIdChar_toString h
  | legacy uuid =>
    rw [show (VmId.legacy uuid).text = uuidText uuid from rfl, Store.uuidText_toList] at h
    simp only [List.append_assoc, List.cons_append, List.mem_append, List.mem_cons] at h
    have hdigits := @isIdChar_uuidDigits c uuid
    rcases h with h | rfl | h | rfl | h | rfl | h | rfl | h
    all_goals first | rfl | exact hdigits (List.mem_of_mem_drop (List.mem_of_mem_take h)) |
      exact hdigits (List.mem_of_mem_take h)

theorem notMem_needle (h : c ∉ "process=pertisk-".toList) (hc : isIdChar c = false) :
    c ∉ needle a := by
  unfold needle
  rw [String.toList_append]
  intro hmem
  rcases List.mem_append.mp hmem with hmem | hmem
  · exact h hmem
  · rw [isIdChar_text hmem] at hc
    cases hc

theorem comma_notMem_needle : ',' ∉ needle a := notMem_needle (by decide) (by decide)

theorem names_iff {text : String} : Names text a ↔ lastField ',' text.toList = needle a :=
  (lastField_eq_iff comma_notMem_needle).symm

end ids

/-- An argument that names no guest. -/
def Harmless (arg : String) : Prop := ∀ b, ¬ Names arg b

section harmless
variable {arg x u t : String} {c : Char}

/-- What a process name begins with stands nowhere else. -/
theorem harmless_of_head (h : (lastField ',' arg.toList).head? ≠ some 'p') : Harmless arg := by
  intro b hb
  rw [names_iff.mp hb] at h
  exact h (by simp [needle, String.toList_append])

theorem harmless_of_mem (hc : c ∈ lastField ',' arg.toList) (h : c ∉ "process=pertisk-".toList)
    (hid : isIdChar c = false) : Harmless arg := by
  intro b hb
  rw [names_iff.mp hb] at hc
  exact notMem_needle h hid hc

theorem harmless_of_notMem (h : 'p' ∉ arg.toList) : Harmless arg := by
  refine harmless_of_head (fun hhead => h ?_)
  exact lastField_suffix.subset (List.mem_of_mem_head? hhead)

/-- An argument is harmless for what stands behind its last comma. -/
theorem harmless_append (h : ',' ∈ t.toList) (ht : (lastField ',' t.toList).head? ≠ some 'p') :
    Harmless (u ++ t) := by
  refine harmless_of_head ?_
  rwa [String.toList_append, lastField_append_of_mem h]

theorem comma_notMem_toString (n : ℕ) : ',' ∉ (toString n).toList := fun h => by
  have hc := isIdChar_toString h
  revert hc
  decide

theorem p_notMem_toString (n : ℕ) : 'p' ∉ (toString n).toList := fun h => by
  have hc := isIdChar_toString h
  revert hc
  decide

theorem harmless_toString (n : ℕ) : Harmless (toString n) :=
  harmless_of_notMem (p_notMem_toString n)

/-- An option whose value has no comma. -/
theorem harmless_value (h : (lastField ',' u.toList).head?.any (· ≠ 'p')) (ht : ',' ∉ t.toList) :
    Harmless (u ++ t) := by
  refine harmless_of_head ?_
  rw [String.toList_append, lastField_append_of_notMem ht, List.head?_append]
  intro hhead
  cases hu : (lastField ',' u.toList).head? with
  | none =>
    rw [hu] at h
    cases h
  | some c =>
    rw [hu] at h hhead
    simp_all

/-- And one behind other options. -/
theorem harmless_append_value (hu : ',' ∈ u.toList)
    (h : (lastField ',' u.toList).head?.any (· ≠ 'p')) (ht : ',' ∉ t.toList) :
    Harmless (x ++ u ++ t) := by
  refine harmless_value ?_ ht
  rwa [String.toList_append, lastField_append_of_mem hu]

end harmless

/-- None of the arguments names a guest. -/
def AllHarmless (args : List String) : Prop := ∀ arg ∈ args, Harmless arg

section groups
variable {h : Host} {id b : VmId} {spec : LaunchSpec} {args rest : List String} {arg x : String}

@[simp] theorem allHarmless_nil : AllHarmless [] := nofun

@[simp] theorem allHarmless_cons :
    AllHarmless (arg :: args) ↔ Harmless arg ∧ AllHarmless args := List.forall_mem_cons

@[simp] theorem allHarmless_append :
    AllHarmless (args ++ rest) ↔ AllHarmless args ∧ AllHarmless rest := List.forall_mem_append

/-- Fixed arguments are looked at one by one. -/
theorem allHarmless_of_heads (hheads : args.all (fun arg =>
    (lastField ',' arg.toList).head? ≠ some 'p') = true) : AllHarmless args :=
  fun arg harg => harmless_of_head (by simpa using List.all_eq_true.mp hheads arg harg)

theorem p_notMem_compactCpuList (ranges : List (Nat × Nat)) :
    'p' ∉ (Host.compactCpuList ranges).toList := by
  have hrange : ∀ range, 'p' ∉ (Host.formatCpuRange range).toList := by
    intro range
    unfold Host.formatCpuRange
    split
    · exact p_notMem_toString _
    · simp only [String.toList_append, List.mem_append, not_or]
      exact ⟨⟨p_notMem_toString _, by decide⟩, p_notMem_toString _⟩
  unfold Host.compactCpuList
  induction ranges with
  | nil => decide
  | cons range ranges ih =>
    cases ranges with
    | nil => simpa using hrange range
    | cons other ranges =>
      rw [List.map_cons, List.map_cons, String.intercalate_cons_cons, ← List.map_cons]
      simp only [String.toList_append, List.mem_append, not_or]
      exact ⟨⟨hrange range, by decide⟩, ih⟩

/-- Only the path of QEMU itself can name a guest. -/
theorem qemuCommand_names (harg : arg ∈ h.qemuCommand) : arg = h.binary ∨ Harmless arg := by
  unfold Host.qemuCommand at harg
  split at harg
  · rename_i ranges taskset _ htaskset
    have hfixed : AllHarmless ["/usr/bin/taskset", "/bin/taskset", "-c"] :=
      allHarmless_of_heads (by decide)
    simp only [List.mem_cons, List.not_mem_nil, or_false] at harg
    rcases harg with rfl | rfl | rfl | rfl
    · have hmem := List.mem_of_find?_eq_some htaskset
      exact .inr (hfixed arg (List.mem_append_left ["-c"] hmem))
    · exact .inr (hfixed _ (by simp))
    · exact .inr (harmless_of_notMem (p_notMem_compactCpuList ranges))
    · exact .inl rfl
  · exact .inl (List.mem_singleton.mp harg)

theorem binary_mem : h.binary ∈ h.qemuCommand := by
  unfold Host.qemuCommand
  split <;> simp

theorem nameArguments_names (harg : arg ∈ nameArguments h id spec) :
    arg = qemuGuestName id spec.toVmSpec ∨ Harmless arg := by
  have hmachine : Harmless h.qemuMachine := by
    unfold Host.qemuMachine
    split <;> exact harmless_of_head (by decide)
  have hfixed : AllHarmless ["-name", "-machine", "-m", "-smp", "-nodefaults", "-display", "none",
      "-S"] := allHarmless_of_heads (by decide)
  simp only [allHarmless_cons, allHarmless_nil] at hfixed
  simp only [nameArguments, List.mem_cons, List.not_mem_nil, or_false] at harg
  rcases harg with rfl | rfl | rfl | rfl | rfl | rfl | rfl | rfl | rfl | rfl | rfl | rfl
  · exact .inr hfixed.1
  · exact .inl rfl
  · exact .inr hfixed.2.1
  · exact .inr hmachine
  · exact .inr hfixed.2.2.1
  · exact .inr (harmless_toString _)
  · exact .inr hfixed.2.2.2.1
  · exact .inr (harmless_toString _)
  · exact .inr hfixed.2.2.2.2.1
  · exact .inr hfixed.2.2.2.2.2.1
  · exact .inr hfixed.2.2.2.2.2.2.1
  · exact .inr hfixed.2.2.2.2.2.2.2.1

theorem comma_notMem_text : ',' ∉ id.text.toList := fun hmem => by
  have hc := isIdChar_text hmem
  revert hc
  decide

/-- The guest's name ends in its process name. -/
theorem qemuGuestName_names : Names (qemuGuestName id spec.toVmSpec) b ↔ needle id = needle b := by
  rw [names_iff]
  unfold qemuGuestName
  change lastField ',' (_ ++ ",process=pertisk-" ++ id.text).toList = needle b ↔ _
  rw [String.toList_append, String.toList_append,
    lastField_append_of_notMem comma_notMem_text, lastField_append_of_mem (by decide)]
  have hneedle : lastField ',' ",process=pertisk-".toList ++ id.text.toList = needle id := by
    unfold needle
    rw [String.toList_append]
    rfl
  rw [hneedle]

theorem allHarmless_socketArguments (incoming : Option Nat) :
    AllHarmless (socketArguments h id incoming) := by
  have hincoming : ∀ port : Nat, Harmless ("tcp:0.0.0.0:" ++ toString port) :=
    fun port => harmless_value (by decide) (comma_notMem_toString port)
  have hfixed : AllHarmless ["-incoming", "-qmp", "-serial", "-vnc", "-chardev"] :=
    allHarmless_of_heads (by decide)
  simp only [allHarmless_cons, allHarmless_nil] at hfixed
  have hsockets : ∀ path : String, Harmless ("unix:" ++ path ++ ",server,nowait") ∧
      Harmless ("unix:" ++ path ++ ",share=force-shared") ∧
      Harmless ("socket,path=" ++ path ++ ",server=on,wait=off,id=qga0") :=
    fun path => ⟨harmless_append (by decide) (by decide), harmless_append (by decide) (by decide),
      harmless_append (by decide) (by decide)⟩
  unfold socketArguments
  simp only [allHarmless_append, allHarmless_cons, allHarmless_nil]
  refine ⟨?_, hfixed.2.1, (hsockets _).1, hfixed.2.2.1, (hsockets _).1, hfixed.2.2.2.1,
    (hsockets _).2.1, hfixed.2.2.2.2.1, (hsockets _).2.2, trivial⟩
  cases incoming with
  | none => exact allHarmless_nil
  | some port => exact allHarmless_cons.mpr ⟨hfixed.1, allHarmless_cons.mpr
      ⟨hincoming port, allHarmless_nil⟩⟩

theorem allHarmless_deviceArguments : AllHarmless (deviceArguments h) := by
  unfold deviceArguments Host.graphicsInputDevices
  cases h.aarch64 <;> cases h.kvm <;> exact allHarmless_of_heads (by decide)

theorem allHarmless_firmwareArguments : AllHarmless (firmwareArguments h id spec) := by
  have hcodes : AllHarmless (h.uefiPairs.map (fun pair =>
      "if=pflash,format=raw,readonly=on,file=" ++ pair.1)) := by
    unfold Host.uefiPairs
    cases h.aarch64 <;> exact allHarmless_of_heads (by decide)
  unfold firmwareArguments
  split
  · rename_i code vars _ hfound
    have hmem := List.mem_of_find?_eq_some hfound
    have hflag : Harmless "-drive" := harmless_of_head (by decide)
    simp only [allHarmless_cons, allHarmless_nil]
    refine ⟨hflag, hcodes _ (List.mem_map.mpr ⟨_, hmem, rfl⟩), hflag, ?_, trivial⟩
    refine harmless_of_mem (c := '.') ?_ (by decide) (by decide)
    change '.' ∈ lastField ',' ("if=pflash,format=raw,file=" ++ (_ ++ "OVMF_VARS.fd")).toList
    rw [← String.append_assoc, String.toList_append, lastField_append_of_notMem (by decide)]
    exact List.mem_append_right _ (by decide)
  · exact allHarmless_nil

theorem kernelArguments_names (harg : arg ∈ kernelArguments h spec) :
    arg ∈ spec.kernelTexts h ∨ Harmless arg := by
  have hflag : arg = "-kernel" ∨ arg = "-initrd" ∨ arg = "-append" → Harmless arg := by
    rintro (rfl | rfl | rfl) <;> exact harmless_of_head (by decide)
  unfold kernelArguments at harg
  unfold LaunchSpec.kernelTexts
  cases hkernel : spec.kernel with
  | none =>
    rw [hkernel] at harg
    cases harg
  | some kernel =>
    simp only [hkernel, List.mem_append, List.mem_cons, List.not_mem_nil, or_false] at harg ⊢
    rcases harg with (harg | harg) | harg
    · exact harg.elim (fun hk => .inr (hflag (.inl hk))) (fun hk => .inl (.inl (.inl hk)))
    · cases hinitramfs : spec.initramfs with
      | none =>
        rw [hinitramfs] at harg
        cases harg
      | some initramfs =>
        simp only [hinitramfs, List.mem_cons, List.not_mem_nil, or_false] at harg
        exact harg.elim (fun hk => .inr (hflag (.inr (.inl hk)))) (fun hk => .inl (.inl (.inr (by
          simp [hk]))))
    · cases hcmdline : spec.cmdline with
      | none =>
        rw [hcmdline] at harg
        cases harg
      | some cmdline =>
        simp only [hcmdline, List.mem_cons, List.not_mem_nil, or_false] at harg
        exact harg.elim (fun hk => .inr (hflag (.inr (.inr hk)))) (fun hk => .inl (.inr (by
          simp [hk])))

theorem kernelTexts_subset : spec.kernelTexts h ⊆ kernelArguments h spec := by
  unfold kernelArguments LaunchSpec.kernelTexts
  cases spec.kernel with
  | none => exact List.Subset.refl _
  | some kernel =>
    cases spec.initramfs <;> cases spec.cmdline <;> simp

theorem drivesFrom_named {aarch64 bootable : Bool} {disks : List DiskSpec} {index next cd : Nat}
    {d : Drive} (hd : d ∈ drivesFrom aarch64 bootable index next cd disks) :
    ',' ∉ d.id.toList ∧ ',' ∉ d.format.toList := by
  have hid : ∀ index, ',' ∉ (driveId index).toList := by
    intro index
    change ',' ∉ ("disk" ++ toString index).toList
    rw [String.toList_append, List.mem_append, not_or]
    exact ⟨by decide, comma_notMem_toString index⟩
  have hformat : ∀ path, ',' ∉ (driveFormat path).toList := by
    intro path
    unfold driveFormat
    split <;> decide
  induction disks generalizing index next cd with
  | nil => cases hd
  | cons disk disks ih =>
    unfold drivesFrom at hd
    rcases List.mem_cons.mp hd with rfl | hd
    · unfold drive
      split
      · exact ⟨hid index, show ',' ∉ "raw".toList by decide⟩
      · split <;> exact ⟨hid index, hformat _⟩
    · exact ih hd

theorem harmless_boot {u : String} (hu : Harmless u) (bootindex : Option Nat) :
    Harmless (u ++ match bootindex with
      | some index => ",bootindex=" ++ toString index
      | none => "") := by
  cases bootindex with
  | none => simpa using hu
  | some index =>
    rw [← String.append_assoc]
    exact harmless_append_value (by decide) (by decide) (comma_notMem_toString index)

theorem allHarmless_drive {d : Drive} (hid : ',' ∉ d.id.toList) (hformat : ',' ∉ d.format.toList) :
    AllHarmless (d.arguments h) := by
  have hfixed : AllHarmless ["-drive", "-device"] := allHarmless_of_heads (by decide)
  simp only [allHarmless_cons, allHarmless_nil] at hfixed
  have hcd : Harmless ("file=" ++ h.display d.file ++ ",if=none,id=" ++ d.id ++
      ",media=cdrom,readonly=on,format=" ++ d.format) :=
    harmless_append_value (by decide) (by decide) hformat
  have hvirtio : Harmless ("virtio-blk-pci,drive=" ++ d.id) :=
    harmless_value (by decide) hid
  unfold Drive.arguments
  cases d.device with
  | seed =>
    simp only [allHarmless_cons, allHarmless_nil]
    exact ⟨hfixed.1, harmless_append (by decide) (by decide), hfixed.2.1,
      harmless_append (by decide) (by decide), trivial⟩
  | ideCd bus =>
    simp only [allHarmless_cons, allHarmless_nil]
    have hbus : Harmless ("ide-cd,drive=" ++ d.id ++ ",bus=ahci." ++ toString bus) :=
      harmless_append_value (by decide) (by decide) (comma_notMem_toString bus)
    exact ⟨hfixed.1, hcd, hfixed.2.1, harmless_boot hbus d.bootindex, trivial⟩
  | virtioBlk =>
    simp only [allHarmless_cons, allHarmless_nil]
    refine ⟨hfixed.1, ?_, hfixed.2.1, harmless_boot hvirtio d.bootindex, trivial⟩
    split
    · exact hcd
    · refine harmless_append ?_ ?_ <;> cases d.unlocked <;> decide

theorem allHarmless_driveArguments : AllHarmless (driveArguments h spec) := by
  unfold driveArguments
  simp only [allHarmless_append]
  refine ⟨⟨?_, fun arg harg => ?_⟩, ?_⟩
  · split
    · exact allHarmless_of_heads (by decide)
    · exact allHarmless_nil
  · obtain ⟨d, hd, harg⟩ := List.mem_flatMap.mp harg
    obtain ⟨hid, hformat⟩ := drivesFrom_named hd
    exact allHarmless_drive hid hformat arg harg
  · split
    · split <;> exact allHarmless_of_heads (by decide)
    · exact allHarmless_nil

/-- A NIC's address ends its argument. -/
theorem mac_names {mac : String} : Names (x ++ ",mac=" ++ mac) b ↔
    (',' :: needle b) <:+ mac.toList := by
  by_cases hmac : ',' ∈ mac.toList
  · rw [names_iff, String.toList_append, lastField_append_of_mem hmac,
      lastField_eq_iff comma_notMem_needle]
    refine ⟨fun h => h.resolve_left fun heq => ?_, .inr⟩
    rw [heq] at hmac
    exact comma_notMem_needle hmac
  · refine iff_of_false (harmless_append_value (by decide) (by decide) hmac b) (fun h => hmac ?_)
    exact h.subset List.mem_cons_self

theorem nicArguments_names {index : Nat} {net : NetSpec} :
    (∃ arg ∈ nicArguments index net, Names arg b) ↔
      net.tap.isSome ∧ ∃ mac ∈ net.mac, (',' :: needle b) <:+ mac.toList := by
  unfold nicArguments
  cases htap : net.tap with
  | none => simp
  | some tap =>
    have hflags : ¬ Names "-netdev" b ∧ ¬ Names "-device" b :=
      ⟨harmless_of_head (by decide) b, harmless_of_head (by decide) b⟩
    have hnetdev : ¬ Names ("tap,id=net" ++ toString index ++ ",ifname=" ++ tap ++
        ",script=no,downscript=no") b := harmless_append (by decide) (by decide) b
    have hnic : ¬ Names ("virtio-net-pci,netdev=net" ++ toString index ++ ",romfile=") b :=
      harmless_append (by decide) (by decide) b
    simp only [List.mem_cons, List.not_mem_nil, or_false, exists_eq_or_imp, exists_eq_left,
      Option.isSome_some, true_and]
    cases hmac : net.mac with
    | none =>
      refine iff_of_false ?_ (by simp)
      rintro (h | h | h | h)
      · exact hflags.1 h
      · exact hnetdev h
      · exact hflags.2 h
      · exact hnic h
    | some mac =>
      simp only [Option.mem_def, Option.some.injEq, exists_eq_left']
      refine Iff.trans ⟨?_, fun h => .inr (.inr (.inr h))⟩ mac_names
      rintro (h | h | h | h)
      · exact absurd h hflags.1
      · exact absurd h hnetdev
      · exact absurd h hflags.2
      · exact h

theorem nicsArguments_names : (∃ arg ∈ nicsArguments spec, Names arg b) ↔
    ∃ mac ∈ spec.macs, (',' :: needle b) <:+ mac.toList := by
  unfold nicsArguments LaunchSpec.macs
  constructor
  · rintro ⟨arg, harg, hnames⟩
    obtain ⟨⟨net, index⟩, hnet, harg⟩ := List.mem_flatMap.mp harg
    obtain ⟨htap, mac, hmac, hends⟩ := nicArguments_names.mp ⟨arg, harg, hnames⟩
    have hmem := List.mem_of_getElem? (List.mem_zipIdx_iff_getElem?.mp hnet)
    exact ⟨mac, List.mem_filterMap.mpr ⟨net, List.mem_filter.mpr ⟨hmem, htap⟩, hmac⟩, hends⟩
  · rintro ⟨mac, hmac, hends⟩
    obtain ⟨net, hnet, hmac⟩ := List.mem_filterMap.mp hmac
    obtain ⟨hmem, htap⟩ := List.mem_filter.mp hnet
    obtain ⟨index, hindex⟩ := List.mem_iff_getElem?.mp hmem
    have hnic : ∃ arg ∈ nicArguments index net, Names arg b :=
      nicArguments_names.mpr ⟨htap, mac, hmac, hends⟩
    obtain ⟨arg, harg, hnames⟩ := hnic
    exact ⟨arg, List.mem_flatMap.mpr ⟨(net, index), List.mem_zipIdx_iff_getElem?.mpr hindex, harg⟩,
      hnames⟩

/-- Which guests the arguments name. -/
theorem arguments_names (incoming : Option Nat) :
    (∃ arg ∈ arguments h id spec incoming, Names arg b) ↔
      needle id = needle b ∨ Mentions h spec b := by
  unfold arguments Mentions
  constructor
  · rintro ⟨arg, harg, hnames⟩
    simp only [List.mem_append] at harg
    rcases harg with ((((((harg | harg) | harg) | harg) | harg) | harg) | harg) | harg
    · rcases qemuCommand_names harg with rfl | hno
      · exact .inr (.inl ⟨_, List.mem_cons_self, hnames⟩)
      · exact absurd hnames (hno b)
    · rcases nameArguments_names harg with rfl | hno
      · exact .inl (qemuGuestName_names.mp hnames)
      · exact absurd hnames (hno b)
    · exact absurd hnames (allHarmless_socketArguments incoming arg harg b)
    · exact absurd hnames (allHarmless_deviceArguments arg harg b)
    · exact absurd hnames (allHarmless_firmwareArguments arg harg b)
    · rcases kernelArguments_names harg with htext | hno
      · exact .inr (.inl ⟨arg, List.mem_cons_of_mem _ htext, hnames⟩)
      · exact absurd hnames (hno b)
    · exact absurd hnames (allHarmless_driveArguments arg harg b)
    · exact .inr (.inr (nicsArguments_names.mp ⟨arg, harg, hnames⟩))
  · simp only [List.mem_append]
    rintro (hsame | ⟨text, htext, hnames⟩ | hmac)
    · exact ⟨qemuGuestName id spec.toVmSpec, by simp [nameArguments],
        qemuGuestName_names.mpr hsame⟩
    · rcases List.mem_cons.mp htext with rfl | htext
      · exact ⟨_, by simp [binary_mem], hnames⟩
      · exact ⟨text, by simp [kernelTexts_subset htext], hnames⟩
    · obtain ⟨arg, harg, hnames⟩ := nicsArguments_names.mpr hmac
      exact ⟨arg, .inr harg, hnames⟩

end groups

section
variable {h : Host} {id b : VmId} {spec : LaunchSpec} {args : List String} {incoming : Option Nat}

/-- Cutting `/proc/<pid>/cmdline` gives the arguments back. -/
theorem recognised_iff (hlaunch : launch h id spec incoming = .ok args) :
    cmdlineHasQemuId (procCmdline args) b = true ↔ needle id = needle b ∨ Mentions h spec b := by
  have hargs : arguments h id spec incoming = args ∧ ∀ arg ∈ args, nul ∉ arg.toList := by
    unfold launch at hlaunch
    split at hlaunch
    · cases hlaunch
    · split at hlaunch
      · cases hlaunch
      · rename_i hnul
        cases hlaunch
        refine ⟨rfl, fun arg harg hmem => hnul (List.any_eq_true.mpr ⟨arg, harg, ?_⟩)⟩
        simpa using hmem
  obtain ⟨rfl, hnul⟩ := hargs
  have hparts : ∀ part, part ∈ (procCmdline (arguments h id spec incoming)).splitOn nul ↔
      part ∈ (arguments h id spec incoming).map String.toList ∨ part = [] := fun part =>
    mem_splitOn_terminated (List.forall_mem_map.mpr hnul)
  rw [← arguments_names incoming]
  unfold cmdlineHasQemuId
  simp only [List.any_eq_true, Bool.or_eq_true, beq_iff_eq, decide_eq_true_eq]
  constructor
  · rintro ⟨part, hpart, hnames⟩
    rcases (hparts part).mp hpart with hmem | rfl
    · obtain ⟨arg, harg, rfl⟩ := List.mem_map.mp hmem
      exact ⟨arg, harg, hnames⟩
    · have hempty : Harmless "" := harmless_of_head (by decide)
      exact absurd hnames (hempty b)
  · rintro ⟨arg, harg, hnames⟩
    exact ⟨arg.toList, (hparts _).mpr (.inl (List.mem_map.mpr ⟨arg, harg, rfl⟩)), hnames⟩

/-- The process of a guest is taken for no other guest's exactly when nothing that it is launched
with ends in the process name of another one. -/
theorem recognised_only_iff (hid : Sized id) (hlaunch : launch h id spec incoming = .ok args) :
    (∀ b, Sized b → (cmdlineHasQemuId (procCmdline args) b = true ↔ id = b)) ↔
      ∀ b, Sized b → Mentions h spec b → b = id := by
  constructor
  · intro honly b hb hmentions
    exact ((honly b hb).mp ((recognised_iff hlaunch).mpr (.inr hmentions))).symm
  · intro hnone b hb
    rw [recognised_iff hlaunch]
    constructor
    · rintro (hsame | hmentions)
      · exact needle_inj hid hb hsame
      · exact (hnone b hb hmentions).symm
    · rintro rfl
      exact .inl rfl

end

/-- A host with KVM, and no other file than QEMU's own. -/
def plainHost : Host where
  aarch64 := false
  kvm := true
  cpuset := none
  isFile _ := false
  lengths _ := none
  binary := "/usr/bin/qemu-system-x86_64"
  runDir := "/run/pertisk"
  volumesRoot := "/var/lib/pertisk"

/-- A guest without disks that boots a kernel of its own. -/
def kernelGuest (cmdline : String) : LaunchSpec where
  name := "rocky"
  kernel := some (.text "/srv/vmlinuz")
  cmdline := some cmdline

theorem recognised_only_itself :
    cmdlineHasQemuId (procCmdline
      (arguments plainHost (.numeric 104) (kernelGuest "console=ttyS0") none)) (.numeric 10) =
        true ↔ VmId.numeric 104 = .numeric 10 := by
  have hlaunch : launch plainHost (.numeric 104) (kernelGuest "console=ttyS0") none =
      .ok (arguments plainHost (.numeric 104) (kernelGuest "console=ttyS0") none) := rfl
  have hsized : ∀ n, Sized (.numeric n) := fun _ => trivial
  have htexts : AllHarmless (plainHost.binary ::
      (kernelGuest "console=ttyS0").kernelTexts plainHost) := allHarmless_of_heads (by decide)
  refine (recognised_only_iff (hsized 104) hlaunch).mpr (fun b _ hmentions => ?_) (.numeric 10)
    (hsized 10)
  rcases hmentions with ⟨text, htext, hnames⟩ | ⟨mac, hmac, -⟩
  · exact absurd hnames (htexts text htext b)
  · cases hmac

theorem another_guest_in_cmdline :
    ¬ ∀ (h : Host) (a b : VmId) (spec : LaunchSpec) (incoming : Option Nat) (args : List String),
      Sized a → Sized b → validate spec.toVmSpec = .ok () → launch h a spec incoming = .ok args →
        (cmdlineHasQemuId (procCmdline args) b = true ↔ a = b) := by
  intro h
  have hiff := h plainHost (.numeric 104) (.numeric 105) (kernelGuest "process=pertisk-105") none
    (arguments plainHost (.numeric 104) (kernelGuest "process=pertisk-105") none) trivial trivial
    rfl rfl
  exact absurd (hiff.mp (by decide +kernel)) (by decide)

end Pertisk.Boot
