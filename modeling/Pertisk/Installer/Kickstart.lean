import Pertisk.Lib.Calls
import Pertisk.Lib.Text
import Pertisk.Volume.Zfs

namespace Pertisk.Installer
open Lib PeerUrl Volume

/-- `str.isspace` of one character. -/
def isSpace (c : Char) : Bool := isWhiteSpace c || (0x1C ≤ c.toNat && c.toNat ≤ 0x1F)

def strip (s : List Char) : List Char := trimMatches isSpace s

def rstrip (s : List Char) : List Char := trimEnd isSpace s

/-- Where `str.splitlines` ends a line. -/
def isLineBreak (c : Char) : Bool :=
  let n := c.toNat
  (10 ≤ n && n ≤ 13) || (0x1C ≤ n && n ≤ 0x1E) || n = 0x85 || n = 0x2028 || n = 0x2029

/-- A carriage return and the newline after it are one end of a line. -/
def splitlinesFrom (cur : List Char) : List Char → List (List Char)
  | [] => if cur.isEmpty then [] else [cur]
  | '\r' :: '\n' :: s => cur :: splitlinesFrom [] s
  | c :: s => if isLineBreak c then cur :: splitlinesFrom [] s else splitlinesFrom (cur ++ [c]) s

def splitlines (s : List Char) : List (List Char) := splitlinesFrom [] s

/-- `"\n".join`. -/
def joinLines (ls : List (List Char)) : List Char := ['\n'].intercalate ls

/-- The decimal digits of Unicode, with their values. -/
structure Decimals where
  value : Char → Option ℕ
  lt : ∀ {c n}, value c = some n → n < 10
  inked : ∀ {c n}, value c = some n → isSpace c = false ∧ c.toNat ≠ 0xFEFF
  ascii : ∀ {c}, c.toNat < 128 → value c = if c.isDigit then some (c.toNat - 48) else none

/-- Digits, with one underscore at most between two of them. -/
def intDigits (d : Decimals) : List Char → Option (List ℕ)
  | [] => none
  | [c] => (d.value c).map fun n => [n]
  | c :: '_' :: s => (d.value c).bind fun n => (intDigits d s).map (n :: ·)
  | c :: s => (d.value c).bind fun n => (intDigits d s).map (n :: ·)

/-- The digits that `int` takes at most. -/
def maxStrDigits : ℕ := 4300

def natOf (digits : List ℕ) : ℕ := digits.foldl (fun n d => 10 * n + d) 0

/-- `int` of a text. -/
def pyInt (d : Decimals) (s : List Char) : Option ℤ :=
  let s := strip s
  let digits := if s.head? = some '-' ∨ s.head? = some '+' then s.tail else s
  (intDigits d digits).bind fun ds =>
    if maxStrDigits < ds.length then none
    else if s.head? = some '-' then some (-natOf ds) else some (natOf ds)

/-- A value of JSON, by what `bool` and `str` make of it where it is no text. -/
inductive Value
  | none
  | bool (b : Bool)
  | str (s : String)
  | other (text : String) (truthy : Bool)
  deriving DecidableEq, Repr

namespace Value

def truthy : Value → Bool
  | .none => false
  | .bool b => b
  | .str s => s ≠ ""
  | .other _ truthy => truthy

def text : Value → String
  | .none => "None"
  | .bool true => "True"
  | .bool false => "False"
  | .str s => s
  | .other text _ => text

/-- `str(value or default)`. -/
def textOr (v : Value) (default : String) : String := if v.truthy then v.text else default

end Value

/-- A JSON object; what it lacks is `None`. -/
abbrev Answers := String → Value

end Pertisk.Installer

namespace Pertisk.Installer
open PeerUrl (startsWith)

/-- `crypt.crypt` with a salt for SHA-512, a new one for each call; what it makes is written in its
own alphabet. -/
structure Crypt where
  hash : ℕ → String → Option String
  plain : ∀ {call password text}, hash call password = some text →
    ∀ c ∈ text.toList, c.isAlphanum = true ∨ c = '.' ∨ c = '/' ∨ c = '$'

/-- The libraries that the server uses. -/
structure Library where
  decimals : Decimals
  crypt : Crypt

def minDisk : ℤ := 24 * 1024 ^ 3

/-- A disk as the probe lists it: it leaves out what has another name. -/
structure Disk where
  id : String
  kind : String
  size : ℤ
  plain : id ≠ "" ∧ ∀ c ∈ id.toList, c.isAlphanum = true

def ipv4Ok (d : Decimals) (value : List Char) : Bool :=
  let parts := value.splitOn '.'
  parts.length == 4 && parts.all fun part =>
    match pyInt d part with
    | none => false
    | some n => 0 ≤ n && n ≤ 255 && (toString n).toList == part

def netmask (pfx : ℕ) : String :=
  let mask := (0xFFFFFFFF <<< (32 - pfx)) &&& 0xFFFFFFFF
  s!"{(mask >>> 24) &&& 0xFF}.{(mask >>> 16) &&& 0xFF}.{(mask >>> 8) &&& 0xFF}.{mask &&& 0xFF}"

/-! ### The template's part -/

def isEnd (l : List Char) : Prop := strip l = "%end".toList

instance (l : List Char) : Decidable (isEnd l) := inferInstanceAs (Decidable (_ = _))

/-- The lines to the section's end and the rest. -/
def sectionEnd : List (List Char) → Option (List (List Char) × List (List Char))
  | [] => none
  | l :: ls =>
    if isEnd l then some ([l], ls)
    else (sectionEnd ls).map fun p => (l :: p.1, p.2)

theorem length_sectionEnd {ls : List (List Char)} {p : List (List Char) × List (List Char)}
    (h : sectionEnd ls = some p) : p.2.length < ls.length := by
  induction ls generalizing p with
  | nil => cases h
  | cons l ls ih =>
    rw [sectionEnd] at h
    split at h
    · cases h
      exact Nat.lt_succ_self _
    · obtain ⟨q, hq, rfl⟩ := Option.map_eq_some_iff.mp h
      have hlt := ih hq
      exact Nat.lt_succ_of_lt hlt

def prefixes : List String :=
  ["url ", "repo ", "firewall ", "selinux ", "firstboot ", "services ", "bootloader "]

def isPre (l : List Char) : Bool := startsWith (strip l) "%pre"

def isKept (l : List Char) : Bool := ["%addon", "%packages", "%post"].any (startsWith (strip l) ·)

def isCommand (l : List Char) : Bool := prefixes.any (startsWith (strip l) ·)

/-- The lines that `extract_payload` keeps. -/
def keptLines : List (List Char) → Except String (List (List Char))
  | [] => .ok []
  | l :: ls =>
    if isPre l then
      match h : sectionEnd ls with
      | none => .error "kickstart section missing %end"
      | some (_, rest) =>
        have : rest.length < ls.length := length_sectionEnd h
        keptLines rest
    else if isKept l then
      match h : sectionEnd ls with
      | none => .error "kickstart section missing %end"
      | some (body, rest) =>
        have : rest.length < ls.length := length_sectionEnd h
        (keptLines rest).map fun kept => l :: body ++ [] :: kept
    else if isCommand l then (keptLines ls).map (l :: ·)
    else keptLines ls
termination_by ls => ls.length
decreasing_by all_goals (rw [List.length_cons]; omega)

def extractPayload (template : String) : Except String (List Char) :=
  (keptLines (splitlines template.toList)).map fun kept => strip (joinLines kept) ++ ['\n']

/-! ### The answers -/

/-- `re.fullmatch` of one character class, once at least. -/
def many (p : Char → Bool) (s : List Char) : Bool := !s.isEmpty && s.all p

/-- `[A-Za-z0-9](?:[A-Za-z0-9-]{0,61}[A-Za-z0-9])?` -/
def hostPattern : List Char → Bool
  | [] => false
  | c :: s => c.isAlphanum && (s.isEmpty ||
      (s.length ≤ 62 && s.dropLast.all (fun c => c.isAlphanum || c == '-') &&
        s.getLast?.all Char.isAlphanum))

def schemes : List String := ["http://", "https://"]

/-- `https?://\S+`, where `blank` says what `\S` is not. -/
def urlBy (blank : Char → Bool) (s : List Char) : Bool :=
  schemes.any fun scheme =>
    startsWith s scheme && many (fun c => !blank c) (s.drop scheme.length)

def urlPattern (s : List Char) : Bool := urlBy isSpace s

def token (value : String) (pattern : List Char → Bool) (label : String) : Except String String :=
  let text := String.ofList (strip value.toList)
  if pattern text.toList then .ok text else .error s!"Invalid {label}."

def password (value label : String) : Except String String :=
  if value = "" then .error s!"{label} is required."
  else if value.length < 8 then .error s!"{label} must be at least 8 characters."
  else if value.toList.any (fun c => c = ':' ∨ c = '\n' ∨ c = '\r' ∨ c = '\x00') then
    .error s!"{label} cannot contain a colon or a new line."
  else .ok value

def nicChar (c : Char) : Bool := c.isAlphanum || c == '.' || c == '_' || c == '-'
def langChar (c : Char) : Bool := c.isAlphanum || c == '_' || c == '.' || c == '@' || c == '-'
def keyboardChar (c : Char) : Bool := c.isAlphanum || c == '_' || c == '-'
def zoneChar (c : Char) : Bool :=
  c.isAlphanum || c == '_' || c == '+' || c == '/' || c == '-'

/-- The disk's name, when it can be installed on. -/
def chosenDisk (disk : Disk) : Except String String :=
  if disk.kind ≠ "disk" then .error "Select an internal disk."
  else if disk.size < minDisk then .error "Choose a disk of at least 24 GiB."
  else token disk.id (many Char.isAlphanum) "disk"

structure Names where
  nic : String
  hostname : String
  lang : String
  keyboard : String
  timezone : String

def names (a : Answers) : Except String Names := do
  let nic ← token ((a "nicId").textOr "") (many nicChar) "network interface"
  let hostname ← token ((a "hostname").textOr "") hostPattern "hostname"
  let lang ← token ((a "lang").textOr "en_US.UTF-8") (many langChar) "language"
  let keyboard ← token ((a "keyboard").textOr "us") (many keyboardChar) "keyboard"
  let timezone ← token ((a "timezone").textOr "Etc/UTC") (many zoneChar) "time zone"
  return { nic, hostname, lang, keyboard, timezone }

/-- The administrator's password and root's. -/
def passwords (a : Answers) : Except String (String × String) := do
  let admin ← password ((a "adminPassword").textOr "") "Password"
  if a "adminConfirm" ≠ .none ∧ a "adminConfirm" ≠ .str admin then
    .error "Passwords do not match."
  else if (a "separateRoot").truthy then do
    let root ← password ((a "rootPassword").textOr "") "Root password"
    if a "rootConfirm" ≠ .none ∧ a "rootConfirm" ≠ .str root then
      .error "Root passwords do not match."
    else return (admin, root)
  else return (admin, admin)

/-- What a field of the static network says. -/
def trimmedText (a : Answers) (field : String) : String :=
  String.ofList (strip ((a field).textOr "").toList)

def prefixOf (d : Decimals) (a : Answers) : ℤ := (pyInt d (strip (a "prefix").text.toList)).getD 0

def networkMode (a : Answers) : Value := if (a "mode").truthy then a "mode" else .str "dhcp"

def networkLine (d : Decimals) (a : Answers) (n : Names) : Except String String :=
  let mode := networkMode a
  if mode ≠ .str "dhcp" ∧ mode ≠ .str "static" then .error "Unknown network mode."
  else if mode = .str "static" then
    let address := trimmedText a "address"
    let gateway := trimmedText a "gateway"
    let dns := trimmedText a "dns"
    let pfx := prefixOf d a
    if ¬ ipv4Ok d address.toList then .error "Enter an IPv4 address."
    else if ¬ ipv4Ok d gateway.toList then .error "Enter a gateway."
    else if ¬ ipv4Ok d dns.toList then .error "Enter a DNS server."
    else if pfx < 1 ∨ 32 < pfx then .error "Prefix must be 1–32."
    else .ok (s!"network --device={n.nic} --bootproto=static --ip={address} " ++
      s!"--netmask={netmask pfx.toNat} --gateway={gateway} --nameserver={dns} " ++
      s!"--activate --onboot=on --hostname={n.hostname}")
  else .ok
    s!"network --device={n.nic} --bootproto=dhcp --activate --onboot=on --hostname={n.hostname}"

def checkPeer (a : Answers) : Except String Unit :=
  let peer := strip ((a "peer").textOr "").toList
  if peer ≠ [] ∧ ¬ urlPattern peer then .error "Use an http:// or https:// URL." else .ok ()

def hashPassword (c : Crypt) (call : ℕ) (password : String) : Except String String :=
  match c.hash call password with
  | none => .error "crypt failed"
  | some text => .ok text

/-! ### The script -/

def rpmPre : List String :=
  ["%pre --erroronfail --log=/tmp/pertisk-kickstart-pre.log", "#!/bin/bash", "set -euo pipefail",
    "mkdir -p /run/pertisk-repo",
    "RPM=\"$(find /run/install /run/media /media -name 'pertisk-vms-*.rpm' 2>/dev/null | head -n1 || true)\"",
    "if [[ -z \"$\x7bRPM\x7d\" ]]; then",
    "  echo \"pertisk kickstart: ERROR - pertisk-vms RPM not on boot media\" >&2", "  exit 1", "fi",
    "echo \"pertisk kickstart: found $\x7bRPM\x7d\"",
    "cp -a \"$(dirname \"$\x7bRPM\x7d\")/.\" /run/pertisk-repo/", "%end"]

def nochroot : List String :=
  ["%post --nochroot --erroronfail --log=/tmp/pertisk-pass.log", "#!/bin/bash",
    "set -euo pipefail", "mkdir -p /mnt/sysimage/etc/pertisk",
    "touch /mnt/sysimage/etc/pertisk/daemon.env", "chmod 600 /mnt/sysimage/etc/pertisk/daemon.env",
    "if [[ -f /run/pertisk/admin.pass ]]; then",
    "  install -m 600 /run/pertisk/admin.pass /mnt/sysimage/etc/pertisk/admin",
    "  if ! grep -q '^PERTISK_ADMIN_PASSWORD=' /mnt/sysimage/etc/pertisk/daemon.env; then",
    "    printf 'PERTISK_ADMIN_PASSWORD=%s\\n' \"$(head -n1 /run/pertisk/admin.pass)\" >> /mnt/sysimage/etc/pertisk/daemon.env",
    "  fi", "fi", "if [[ -f /run/pertisk/join.url ]]; then",
    "  if ! grep -q '^PERTISK_JOIN=' /mnt/sysimage/etc/pertisk/daemon.env; then",
    "    printf 'PERTISK_JOIN=%s\\n' \"$(head -n1 /run/pertisk/join.url)\" >> /mnt/sysimage/etc/pertisk/daemon.env",
    "  fi", "fi", "%end"]

/-- The lines of commands before the template's part. -/
def commandLines (n : Names) (network rootHash adminHash disk firmware : String) : List String :=
  ["cmdline", s!"lang {n.lang}", s!"keyboard --vckeymap={n.keyboard}",
    s!"timezone {n.timezone} --utc", "eula --agreed", network,
    s!"rootpw --iscrypted '{rootHash}' --allow-ssh",
    s!"user --name=admin --groups=wheel --homedir=/home/admin --iscrypted --password='{adminHash}'",
    s!"ignoredisk --only-use={disk}", "zerombr",
    s!"clearpart --all --initlabel --disklabel=gpt --drives={disk}"] ++
  (if firmware ≠ "uefi" then ["part biosboot --fstype=biosboot --size=1"] else []) ++
  ["part /boot/efi --fstype=efi --size=512", "part /boot --fstype=xfs --size=1024",
    "part swap --fstype=swap --size=2048", "part / --fstype=xfs --size=10240 --maxsize=71680",
    "part /var/lib/pertisk --fstype=xfs --size=10240 --grow"]

/-- The whole script: the commands, the template's part and the two scripts of the installer. -/
def script (commands : List String) (payload : List Char) : List Char :=
  joinLines (commands.map String.toList ++ [[], payload, [], joinLines (rpmPre.map String.toList), [],
    joinLines (nochroot.map String.toList), []]) ++ ['\n']

def buildKickstart (lib : Library) (template : String) (a : Answers) (disk : Disk)
    (firmware : String) : Except String (List Char) := do
  let diskId ← chosenDisk disk
  let n ← names a
  let (admin, root) ← passwords a
  let network ← networkLine lib.decimals a n
  checkPeer a
  let adminHash ← hashPassword lib.crypt 0 admin
  let rootHash ← hashPassword lib.crypt 1 root
  let payload ← extractPayload template
  let text := script (commandLines n network rootHash adminHash diskId firmware) (rstrip payload)
  if "reboot".toList ∈ text.splitOn '\n' then
    .error "generated kickstart must wait for the installer reboot button"
  else return text

end Pertisk.Installer
