import Mathlib.Data.Prod.Lex
import Mathlib.Order.Nat
import Pertisk.Lib.Table

namespace Pertisk

/-- A uuid, as the 128-bit number of its bytes; the derived order is the byte order. -/
abbrev Uuid := Nat

abbrev NodeId := Uuid

abbrev VolumeId := Uuid

/-- A uuid as its `Display` writes it. -/
def uuidText (id : Uuid) : String :=
  let hex := Nat.toDigits 16 id
  let full := List.replicate (32 - hex.length) '0' ++ hex
  let group (start count : Nat) := String.ofList ((full.drop start).take count)
  String.intercalate "-" [group 0 8, group 8 4, group 12 4, group 16 4, group 20 12]

inductive VmId
  | numeric (n : Nat)
  | legacy (id : Uuid)
  deriving DecidableEq, Repr

/-- The derived order: every numeric id before every legacy one. -/
def VmId.rank : VmId → ℕ ×ₗ ℕ
  | .numeric n => toLex (0, n)
  | .legacy id => toLex (1, id)

theorem VmId.rank_injective : Function.Injective VmId.rank := by
  intro a b h
  cases a <;> cases b <;> simp_all [VmId.rank]

instance : LinearOrder VmId := LinearOrder.lift' VmId.rank VmId.rank_injective

def VmId.text : VmId → String
  | .numeric n => toString n
  | .legacy id => uuidText id

inductive VolumeFormat
  | raw
  | qcow2
  deriving DecidableEq, Repr

inductive StorageBackend
  | replica
  | rbd
  | zfs
  deriving DecidableEq, Repr

/-- Bytes live outside the local files directory (Ceph image or ZFS zvol). -/
def StorageBackend.external : StorageBackend → Bool
  | .rbd | .zfs => true
  | .replica => false

def StorageBackend.haDurable : StorageBackend → Bool
  | .rbd => true
  | _ => false

inductive VmState
  | created
  | running
  | stopped
  | failed
  deriving DecidableEq, Repr

def VmState.text : VmState → String
  | created => "created"
  | running => "running"
  | stopped => "stopped"
  | failed => "failed"

inductive DriverKind
  | mock
  | cloudHypervisor
  | qemu
  deriving DecidableEq, Repr

/-- Paths as the daemon builds them: `disks/{id}.{format}` and `iso/{name}` under the storage
root, and any other text (sockets, `rbd:` and `zfs:` images, host files). -/
inductive PathBuf
  | disk (id : VolumeId) (format : VolumeFormat)
  | iso (name : String)
  | text (s : String)
  deriving DecidableEq, Repr

structure DiskSpec where
  path : PathBuf
  readonly : Bool := false
  cdrom : Bool := false
  volumeId : Option VolumeId := none
  isoName : Option String := none
  deriving DecidableEq, Repr

structure NetSpec where
  networkId : Option Uuid := none
  tap : Option String := none
  mac : Option String := none
  ip : Option String := none
  ipv6 : Option String := none
  dualStack : Bool := false
  deriving DecidableEq, Repr

inductive ConsoleType
  | serial
  | graphics
  deriving DecidableEq, Repr

/-- A schedule for backups or for snapshots; `keep = 0` keeps them all. -/
structure VmSchedule where
  enabled : Bool := false
  intervalHours : Nat := 24
  keep : Nat := 3
  lastRunUnix : Nat := 0
  deriving DecidableEq, Repr

structure VmSpec where
  name : String
  vcpus : Nat := 1
  memoryMib : Nat := 512
  kernel : Option PathBuf := none
  disks : List DiskSpec := []
  nets : List NetSpec := []
  serialLog : Option PathBuf := none
  consoleType : ConsoleType := .serial
  ha : Bool := true
  autostart : Bool := false
  autostartDelay : Nat := 0
  autostartOrder : Nat := 0
  sshUser : Option String := none
  group : Option String := none
  backup : Option VmSchedule := none
  snapshot : Option VmSchedule := none
  notes : Option String := none
  deriving DecidableEq, Repr

structure VmRecord where
  id : VmId
  spec : VmSpec
  state : VmState
  pid : Option Nat := none
  apiSocket : Option PathBuf := none
  serialLog : Option PathBuf := none
  consoleSocket : Option PathBuf := none
  graphicsSocket : Option PathBuf := none
  lastError : Option String := none
  nodeId : Option NodeId := none
  template : Bool := false
  deriving DecidableEq, Repr

structure VolumeSnapshot where
  name : String
  createdUnix : Nat
  notes : Option String := none
  path : Option PathBuf := none
  deriving DecidableEq, Repr

structure VolumeRecord where
  id : VolumeId
  name : String
  format : VolumeFormat
  sizeBytes : Nat
  path : PathBuf
  backingId : Option VolumeId := none
  snapshots : List VolumeSnapshot := []
  replicas : List NodeId := []
  replicaCount : Nat := 1
  backend : StorageBackend := .replica
  notes : Option String := none
  deriving DecidableEq, Repr

structure IsoRecord where
  name : String
  path : PathBuf
  sizeBytes : Nat
  notes : Option String := none
  deriving DecidableEq, Repr

structure NodeRecord where
  id : NodeId
  name : String
  peerUrl : String
  cpus : Nat := 0
  memoryMib : Nat := 0
  deriving DecidableEq, Repr

structure WitnessGrant where
  holder : NodeId
  ttlMs : Nat
  deriving DecidableEq, Repr

structure ClusterSnapshot where
  name : String
  secret : String
  generation : Nat
  members : List NodeRecord
  vms : List VmRecord
  volumes : List VolumeRecord
  haArmed : Bool
  deriving DecidableEq, Repr

structure HeartbeatMessage where
  sender : NodeId
  generation : Nat
  member : NodeRecord
  snapshot : Option ClusterSnapshot
  deriving DecidableEq, Repr

end Pertisk

namespace Pertisk

/-- What the hypervisor tells of a process that it has made for a guest. -/
structure Created where
  pid : Option Nat := none
  apiSocket : Option PathBuf := none
  serialLog : Option PathBuf := none
  consoleSocket : Option PathBuf := none
  graphicsSocket : Option PathBuf := none

/-- How the start of a guest ends behind the start gate: it runs, it is refused (no room, or no
disks), or the hypervisor fails. A process that was there already is not made again. -/
inductive Outcome
  | started (created : Option Created) (pid : Option Nat)
  | refused (text : String)
  | failed (created : Option Created) (text : String)

namespace VmRecord

variable (record : VmRecord)

def withCreated : Option Created → VmRecord
  | none => record
  | some created =>
    { record with
      pid := created.pid
      apiSocket := created.apiSocket
      serialLog := created.serialLog.or record.serialLog
      consoleSocket := created.consoleSocket.or record.consoleSocket
      graphicsSocket := created.graphicsSocket.or record.graphicsSocket }

def started (n : NodeId) (created : Option Created) (pid : Option Nat) : VmRecord :=
  let record := record.withCreated created
  { record with
    state := .running
    pid := pid.or record.pid
    lastError := none
    nodeId := record.nodeId.or (some n) }

def failed (text : String) : VmRecord := { record with state := .failed, lastError := some text }

def stopped : VmRecord := { record with state := .stopped, pid := none, lastError := none }

/-- The record that `apply_run` makes of another node's. -/
def toRun (n : NodeId) (runDir : String) : VmRecord :=
  let serial := PathBuf.text s!"{runDir}/{record.id.text}.serial"
  { record with
    nodeId := some n
    pid := none
    apiSocket := none
    consoleSocket := none
    graphicsSocket := none
    serialLog := some serial
    spec := { record.spec with serialLog := some serial }
    state := if record.state = .running then .created else record.state }

/-- What `start_local` checks before it waits at the gate. -/
def startable : Except String Unit :=
  if record.template then .error s!"vm {record.id.text} is a template; cannot start"
  else if record.state = .running then .error "invalid vm state running for start"
  else .ok ()

@[simp] theorem withCreated_id (created : Option Created) :
    (record.withCreated created).id = record.id := by
  cases created <;> rfl

@[simp] theorem started_id (n : NodeId) (created : Option Created) (pid : Option Nat) :
    (record.started n created pid).id = record.id := record.withCreated_id created

@[simp] theorem toRun_id (n : NodeId) (runDir : String) : (record.toRun n runDir).id = record.id :=
  rfl

end VmRecord

end Pertisk
