import Pertisk.Boot.Drives
import Pertisk.Lib.Text

namespace Pertisk.Boot
open Lib Service

/-- What a start of QEMU reads from its host. `cpuset` are the CPUs of the largest cluster when the
host has more than one. -/
structure Host where
  aarch64 : Bool
  kvm : Bool
  cpuset : Option (List (Nat × Nat))
  isFile : String → Bool
  lengths : Lengths
  binary : String
  runDir : String
  volumesRoot : String

/-- A spec with the rest of what its kernel is started with. -/
structure LaunchSpec extends VmSpec where
  initramfs : Option PathBuf := none
  cmdline : Option String := none

namespace Host

variable (h : Host)

def display : PathBuf → String
  | .disk id format =>
    let root := h.volumesRoot
    let name := fileNameOf (.disk id format)
    s!"{root}/disks/{name}"
  | .iso name =>
    let root := h.volumesRoot
    s!"{root}/iso/{name}"
  | .text s => s

def runPath (id : VmId) (ending : String) : String :=
  let dir := h.runDir
  let name := id.text
  s!"{dir}/{name}.{ending}"

def formatCpuRange (range : Nat × Nat) : String :=
  if range.1 = range.2 then toString range.1
  else
    let first := toString range.1
    let last := toString range.2
    s!"{first}-{last}"

def compactCpuList (ranges : List (Nat × Nat)) : String :=
  String.intercalate "," (ranges.map formatCpuRange)

/-- On hosts with unlike cores QEMU is pinned to one cluster. -/
def qemuCommand : List String :=
  match h.cpuset, ["/usr/bin/taskset", "/bin/taskset"].find? h.isFile with
  | some ranges, some taskset => [taskset, "-c", compactCpuList ranges, h.binary]
  | _, _ => [h.binary]

def qemuMachine : String :=
  if h.aarch64 then "virt,gic-version=3,accel=kvm:tcg" else "q35,accel=kvm:tcg"

def graphicsInputDevices : List String :=
  ["-device", "qemu-xhci,id=xhci", "-device", "usb-tablet,bus=xhci.0"] ++
    if h.aarch64 then ["-device", "usb-kbd,bus=xhci.0"] else []

def uefiPairs : List (String × String) :=
  if h.aarch64 then
    [("/usr/share/AAVMF/AAVMF_CODE.fd", "/usr/share/AAVMF/AAVMF_VARS.fd"),
      ("/usr/share/qemu-efi-aarch64/QEMU_EFI.fd", "/usr/share/AAVMF/AAVMF_VARS.fd"),
      ("/usr/share/edk2/aarch64/QEMU_EFI.fd", "/usr/share/edk2/aarch64/QEMU_VARS.fd")]
  else
    [("/usr/share/OVMF/OVMF_CODE_4M.fd", "/usr/share/OVMF/OVMF_VARS_4M.fd"),
      ("/usr/share/edk2/ovmf/OVMF_CODE_4M.fd", "/usr/share/edk2/ovmf/OVMF_VARS_4M.fd"),
      ("/usr/share/OVMF/OVMF_CODE.fd", "/usr/share/OVMF/OVMF_VARS.fd"),
      ("/usr/share/edk2/ovmf/OVMF_CODE.fd", "/usr/share/edk2/ovmf/OVMF_VARS.fd"),
      ("/usr/share/pve-edk2-firmware/OVMF_CODE.fd", "/usr/share/pve-edk2-firmware/OVMF_VARS.fd")]

def findUefi : Option (String × String) :=
  h.uefiPairs.find? (fun pair => h.isFile pair.1 && h.isFile pair.2)

end Host

def isNameChar (c : Char) : Bool := c.isAlphanum || c == '-' || c == '_' || c == '.'

/-- `name.replace("--", "-")`. -/
def replaceDashes : List Char → List Char
  | '-' :: '-' :: rest => '-' :: replaceDashes rest
  | c :: rest => c :: replaceDashes rest
  | [] => []

/-- Each round makes the name shorter, so there are no more of them than it has characters. -/
def squeezeDashes : Nat → List Char → List Char
  | 0, name => name
  | rounds + 1, name =>
    if ['-', '-'] <:+: name then squeezeDashes rounds (replaceDashes name) else name

def qemuGuestName (id : VmId) (spec : VmSpec) : String :=
  let chars := spec.name.toList.map (fun c => if isNameChar c then c else '-')
  let squeezed := squeezeDashes chars.length chars
  let trimmed := (squeezed.dropWhile (· == '-')).rdropWhile (· == '-')
  let idText := id.text
  let name := if trimmed.isEmpty then s!"vm-{idText}" else String.ofList trimmed
  s!"{name},process=pertisk-{idText}"

/-- The options of a drive, and those of the device that shows it to the guest. -/
def Drive.arguments (h : Host) (d : Drive) : List String :=
  let file := h.display d.file
  let id := d.id
  let format := d.format
  let boot := match d.bootindex with
    | some index =>
      let text := toString index
      s!",bootindex={text}"
    | none => ""
  let locking := if d.unlocked then ",file.locking=off" else ""
  match d.device with
  | .seed =>
    ["-drive", s!"file={file},if=none,id={id},readonly=on,format=raw",
      "-device", s!"virtio-blk-pci,drive={id},serial=cidata"]
  | .ideCd bus =>
    let busText := toString bus
    ["-drive", s!"file={file},if=none,id={id},media=cdrom,readonly=on,format={format}",
      "-device", s!"ide-cd,drive={id},bus=ahci.{busText}{boot}"]
  | .virtioBlk =>
    ["-drive",
      if d.cdrom then s!"file={file},if=none,id={id},media=cdrom,readonly=on,format={format}"
      else s!"file={file},if=none,id={id},format={format}" ++
        s!",cache=writeback,aio=threads,detect-zeroes=off{locking}",
      "-device", s!"virtio-blk-pci,drive={id}{boot}"]

/-- The NIC with this number; one without a tap is left out. -/
def nicArguments (index : Nat) (net : NetSpec) : List String :=
  match net.tap with
  | none => []
  | some tap =>
    let i := toString index
    let nic := s!"virtio-net-pci,netdev=net{i},romfile="
    ["-netdev", s!"tap,id=net{i},ifname={tap},script=no,downscript=no", "-device",
      match net.mac with
      | some mac => s!"{nic},mac={mac}"
      | none => nic]

section
variable (h : Host) (id : VmId) (spec : LaunchSpec)

def nameArguments : List String :=
  let memory := toString spec.memoryMib
  let vcpus := toString spec.vcpus
  ["-name", qemuGuestName id spec.toVmSpec, "-machine", h.qemuMachine, "-m", memory,
    "-smp", vcpus, "-nodefaults", "-display", "none", "-S"]

def socketArguments (incoming : Option Nat) : List String :=
  let qmp := h.runPath id "qmp.sock"
  let serial := h.runPath id "serial.sock"
  let graphics := h.runPath id "graphics.sock"
  let qga := h.runPath id "qga.sock"
  (match incoming with
    | some port =>
      let portText := toString port
      ["-incoming", s!"tcp:0.0.0.0:{portText}"]
    | none => []) ++
  ["-qmp", s!"unix:{qmp},server,nowait", "-serial", s!"unix:{serial},server,nowait",
    "-vnc", s!"unix:{graphics},share=force-shared",
    "-chardev", s!"socket,path={qga},server=on,wait=off,id=qga0"]

def deviceArguments : List String :=
  (if h.aarch64 then ["-device", "virtio-gpu-pci"] else ["-vga", "std"]) ++
    h.graphicsInputDevices ++
    ["-device", "virtio-serial-pci,id=virtio-serial0",
      "-device", "virtserialport,chardev=qga0,name=org.qemu.guest_agent.0"] ++
    if h.kvm then ["-enable-kvm", "-cpu", "host"]
    else if h.aarch64 then ["-cpu", "max"] else []

/-- The copy of the variables is made from their template at each start. -/
def firmwareArguments : List String :=
  match spec.kernel, h.findUefi with
  | none, some (code, _) =>
    let vars := h.runPath id "OVMF_VARS.fd"
    ["-drive", s!"if=pflash,format=raw,readonly=on,file={code}",
      "-drive", s!"if=pflash,format=raw,file={vars}"]
  | _, _ => []

def kernelArguments : List String :=
  match spec.kernel with
  | none => []
  | some kernel =>
    ["-kernel", h.display kernel] ++
      (match spec.initramfs with
        | some initramfs => ["-initrd", h.display initramfs]
        | none => []) ++
      match spec.cmdline with
      | some cmdline => ["-append", cmdline]
      | none => []

def driveArguments : List String :=
  let installer := (ordered spec.toVmSpec).any isInstaller
  let bootable := installed h.lengths (ordered spec.toVmSpec)
  (if installer && !h.aarch64 then ["-device", "ich9-ahci,id=ahci"] else []) ++
    (drives h.aarch64 h.lengths spec.toVmSpec).flatMap (Drive.arguments h) ++
    if installer then ["-boot", if bootable then "order=c" else "order=d"] else []

def nicsArguments : List String :=
  spec.nets.zipIdx.flatMap (fun e => nicArguments e.2 e.1)

def arguments (incoming : Option Nat) : List String :=
  h.qemuCommand ++ nameArguments h id spec ++ socketArguments h id incoming ++ deviceArguments h ++
    firmwareArguments h id spec ++ kernelArguments h spec ++ driveArguments h spec ++
    nicsArguments spec

def nul : Char := Char.ofNat 0

/-- The arguments that QEMU is launched with; the operating system takes none with a NUL in it. -/
def launch (incoming : Option Nat) : Except String (List String) :=
  if spec.disks.isEmpty && spec.kernel.isNone then
    .error "qemu needs a kernel or at least one disk"
  else if (arguments h id spec incoming).any (fun arg => arg.toList.contains nul) then
    let log := h.runPath id "qemu.stderr"
    .error s!"qemu spawn: nul byte found in provided data (see {log})"
  else .ok (arguments h id spec incoming)

end

end Pertisk.Boot
