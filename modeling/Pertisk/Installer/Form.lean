import Pertisk.Installer.Kickstart
import Pertisk.Installer.Number
import Pertisk.Lib.Bytes

namespace Pertisk.Installer
open Lib

/-- A network card as the probe lists it: it leaves out what has another name. -/
structure Nic where
  id : String
  plain : many nicChar id.toList = true

structure Machine where
  disks : List Disk
  nics : List Nic

def languages : List String :=
  ["en_US.UTF-8", "en_GB.UTF-8", "de_DE.UTF-8", "fr_FR.UTF-8", "es_ES.UTF-8", "ja_JP.UTF-8"]

def keyboards : List String := ["us", "gb", "de", "fr", "jp"]

/-- `listTimezones`: the browser's names of the IANA zones. -/
structure Zones where
  list : List String
  plain : ∀ z ∈ list, many zoneChar z.toList = true

inductive Mode
  | dhcp
  | static
  deriving DecidableEq, Repr

def Mode.text : Mode → String
  | .dhcp => "dhcp"
  | .static => "static"

/-- What the user fills in; three fields are chosen from lists. -/
structure Form (zones : Zones) where
  lang : String
  lang_mem : lang ∈ languages
  keyboard : String
  keyboard_mem : keyboard ∈ keyboards
  timezone : String
  timezone_mem : timezone ∈ zones.list
  diskId : String
  eraseConfirmed : Bool
  nicId : String
  mode : Mode
  address : String
  pfx : String
  gateway : String
  dns : String
  hostname : String
  peer : String
  adminPassword : String
  adminConfirm : String
  separateRoot : Bool
  rootPassword : String
  rootConfirm : String

variable {zones : Zones}

/-- The form as it is sent. -/
def Form.answers (f : Form zones) : Answers
  | "lang" => .str f.lang
  | "keyboard" => .str f.keyboard
  | "timezone" => .str f.timezone
  | "diskId" => .str f.diskId
  | "eraseConfirmed" => .bool f.eraseConfirmed
  | "nicId" => .str f.nicId
  | "mode" => .str f.mode.text
  | "address" => .str f.address
  | "prefix" => .str f.pfx
  | "gateway" => .str f.gateway
  | "dns" => .str f.dns
  | "hostname" => .str f.hostname
  | "peer" => .str f.peer
  | "adminPassword" => .str f.adminPassword
  | "adminConfirm" => .str f.adminConfirm
  | "separateRoot" => .bool f.separateRoot
  | "rootPassword" => .str f.rootPassword
  | "rootConfirm" => .str f.rootConfirm
  | _ => .none

/-! ### The form's checks -/

inductive Step
  | welcome
  | disk
  | network
  | access
  | review
  deriving DecidableEq, Repr

def steps : List Step := [.welcome, .disk, .network, .access, .review]

structure Issue where
  formError : String
  fields : List (String × String)

def hasIssues (i : Issue) : Bool := i.formError != "" || !i.fields.isEmpty

def findDisk (m : Machine) (id : String) : Option Disk := m.disks.find? (·.id == id)

def findNic (m : Machine) (id : String) : Option Nic := m.nics.find? (·.id == id)

/-- `\d{1,3}`, at most 255. -/
def octetOk (part : List Char) : Bool :=
  !part.isEmpty && decide (part.length ≤ 3) && part.all Char.isDigit &&
    decide (digitValue part ≤ 255)

def octets (s : List Char) : Bool := (s.splitOn '.').length == 4 && (s.splitOn '.').all octetOk

def ipv4 (s : List Char) : Bool := octets (jsTrim s)

/-- A text's length in UTF-16. -/
def jsLength (s : String) : ℕ := (Utf16.encode s.toList).length

def passwordIssue (pw : String) : String :=
  if pw = "" then "Password is required."
  else if jsLength pw < 8 then "Use at least 8 characters."
  else if ':' ∈ pw.toList ∨ '\n' ∈ pw.toList then "Password cannot contain a colon."
  else ""

def diskIssues (m : Machine) (f : Form zones) : Issue :=
  match findDisk m f.diskId with
  | none => ⟨"Select an internal disk.", []⟩
  | some disk =>
    if disk.kind ≠ "disk" then ⟨"Select an internal disk.", []⟩
    else if disk.size < minDisk then ⟨"Choose a disk of at least 24 GiB.", []⟩
    else if f.eraseConfirmed then ⟨"", []⟩
    else ⟨"", [("erase", "Confirm this disk can be erased.")]⟩

def hostnameIssues (f : Form zones) : List (String × String) :=
  let host := jsTrim f.hostname.toList
  if host = [] then [("hostname", "Hostname is required.")]
  else if hostPattern host then []
  else [("hostname", "Use a short name: letters, digits, and hyphens.")]

def staticIssues (f : Form zones) : List (String × String) :=
  (if ipv4 f.address.toList then [] else [("address", "Enter an IPv4 address.")]) ++
    (if prefixOk f.pfx.toList then [] else [("prefix", "Prefix must be 1–32.")]) ++
    (if ipv4 f.gateway.toList then [] else [("gateway", "Enter a gateway.")]) ++
    (if ipv4 f.dns.toList then [] else [("dns", "Enter a DNS server.")])

def peerIssues (f : Form zones) : List (String × String) :=
  let peer := jsTrim f.peer.toList
  if peer ≠ [] ∧ ¬ urlBy jsSpace peer then [("peer", "Use an http:// or https:// URL.")] else []

def networkIssues (m : Machine) (f : Form zones) : Issue where
  formError := if (findNic m f.nicId).isNone then "Select a network interface." else ""
  fields := hostnameIssues f ++ (if f.mode = .static then staticIssues f else []) ++ peerIssues f

/-- A password and what confirms it. -/
def confirmIssues (name confirm pw again : String) : List (String × String) :=
  if passwordIssue pw ≠ "" then [(name, passwordIssue pw)]
  else if again ≠ pw then [(confirm, "Passwords do not match.")]
  else []

def accessIssues (f : Form zones) : Issue where
  formError := ""
  fields := confirmIssues "adminPassword" "adminConfirm" f.adminPassword f.adminConfirm ++
    (if f.separateRoot then
      confirmIssues "rootPassword" "rootConfirm" f.rootPassword f.rootConfirm else [])

def issues (m : Machine) (f : Form zones) : Step → Issue
  | .disk => diskIssues m f
  | .network => networkIssues m f
  | .access => accessIssues f
  | .welcome | .review => ⟨"", []⟩

/-- The first step but the last that has an issue. -/
def firstInvalidStep (m : Machine) (f : Form zones) : ℤ :=
  match steps.dropLast.findIdx? fun s => hasIssues (issues m f s) with
  | none => -1
  | some i => i

/-- `build_kickstart` takes the form's answers, for the disk that it names. -/
def Accepts (lib : Library) (m : Machine) (template firmware : String) (f : Form zones) : Prop :=
  ∃ disk text, findDisk m f.diskId = some disk ∧
    buildKickstart lib template f.answers disk firmware = .ok text

end Pertisk.Installer
