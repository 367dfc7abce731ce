import Pertisk.Lib.Pairs
import Pertisk.Lib.Pool
import Pertisk.Lib.Run
import Pertisk.Net.Addresses

namespace Pertisk.Net
open Lib

/-- A NIC of a record, and whether the pool chose its address. -/
structure Nic extends NetSpec where
  assigned : Bool := false
  deriving DecidableEq, Repr

/-- What attaching and detaching read of a record. -/
structure Guest where
  id : VmId
  name : String
  node : NodeId
  state : VmState
  nets : List Nic
  deriving DecidableEq, Repr

abbrev Guests := Table Guest Guest.id

structure AttachNicRequest where
  networkId : Uuid
  ip : Option String := none
  dualStack : Bool := false

/-- The networks, and the bytes of the daemon's own id. -/
structure Site where
  networks : Uuid → Option NetworkRecord
  salt : List ℕ

/-- A bridged network has no range of its own. -/
def NetworkRecord.range (network : NetworkRecord) : Except String (Option Ipv4Net) :=
  match network.mode with
  | .bridge => .ok none
  | .nat => (Ipv4Net.parse network.cidr).map some

def nicIp (network : NetworkRecord) (requested : Option String) (used : List String) :
    Except String (Option String) := do
  let net ← network.range
  match requested, net with
  | some ip, net =>
    let addr ← parseIpv4 ip
    if net.any (fun net => !net.contains addr) then
      .error (invalid s!"{ip} is not in {network.cidr}")
    else if network.gateway = some ip then
      .error (invalid s!"{ip} is reserved as the gateway for {network.name}")
    else if ip ∈ used then .error (invalid s!"{ip} already in use")
    else return some (ipv4String addr)
  | none, some net =>
    if network.dhcp then
      return some (ipv4String (← net.allocate network.gateway used))
    else return none
  | none, none => return none

/-- `links` is how the bridge and the tap come up on the host. -/
def allocateNic (site : Site) (networkId : Uuid) (vmId : VmId) (nicIndex : ℕ)
    (requested : Option String) (usedIps usedMacs : List String) (links : Except String Unit) :
    Except String Nic := do
  match site.networks networkId with
  | none => .error s!"network not found: {uuidText networkId}"
  | some network =>
    let tap := tapName vmId nicIndex
    if !validIfname tap then .error (invalid s!"invalid tap name '{tap}'")
    else
      let ip ← nicIp network requested usedIps
      links
      return {
        networkId := some networkId
        tap := some tap
        mac := some (uniqueGuestMac vmId nicIndex usedMacs site.salt)
        ip := ip
        assigned := requested.isNone && ip.isSome }

/-- Where an attach or a detach is. Between two phases the others may take their steps. -/
inductive Phase
  /-- The record has been read. -/
  | attaching (vm : Guest) (req : AttachNicRequest)
  /-- The guests have been listed, and the new NIC is made. -/
  | adding (vm : Guest) (nic : Nic) (usedIps usedMacs : List String)
  | detaching (vm : Guest) (tap : String)

/-- The guests of one inventory, with the calls that are under way. -/
abbrev World := Crew Guests Phase

inductive Action
  /-- `picked` is a number that no guest has. -/
  | create (requested : Option VmId) (picked : VmId) (name : String) (nets : List NetSpec)
      (node : NodeId)
  | attachNic (id : VmId) (req : AttachNicRequest)
  | detachNic (id : VmId) (tap : String)
  | turn (task : ℕ) (links : Except String Unit)

def usedIps (guests : Guests) : List String :=
  (guests.rows.flatMap Guest.nets).filterMap (fun nic => nic.ip)

def usedMacs (guests : Guests) (id : VmId) : List String :=
  ((guests.rows.filter (fun guest => guest.id ≠ id)).flatMap Guest.nets).filterMap (fun nic => nic.mac)

/-- The number of NICs, when it fits in a byte. -/
def nicIndex (vm : Guest) : ℕ := if vm.nets.length < 256 then vm.nets.length else 0

def created (id : VmId) (name : String) (nets : List NetSpec) (node : NodeId) : Guest :=
  { id := id, name := name, node := node, state := .created, nets := nets.map (fun spec => { spec with }) }

def Guest.push (vm : Guest) (nic : Nic) : Guest := { vm with nets := vm.nets ++ [nic] }

def Guest.without (vm : Guest) (tap : String) : Guest :=
  { vm with nets := vm.nets.filter (fun nic => nic.tap ≠ some tap) }

def createGuest (guests : Guests) (requested : Option VmId) (picked : VmId) (name : String)
    (nets : List NetSpec) (node : NodeId) : Except String Guests :=
  let id := requested.getD picked
  if guests.rows.any (fun guest => guest.name == name) then .error s!"name already exists: {name}"
  else if (guests.get id).isSome then .error s!"vm id already exists: {id.text}"
  else .ok (guests.insert (created id name nets node))

def stoppedGuest (guests : Guests) (id : VmId) (op : String) : Except String Guest :=
  match guests.get id with
  | none => .error s!"vm not found: {id.text}"
  | some vm =>
    if vm.state = .running then .error s!"vm {id.text} must be stopped to {op}" else .ok vm

/-- A call that fails on its way ends there. -/
def Phase.turn (site : Site) (guests : Guests) (links : Except String Unit) :
    Phase → Move Guests Phase
  | .attaching vm req =>
    let ips := usedIps guests
    let macs := usedMacs guests vm.id
    match allocateNic site req.networkId vm.id (nicIndex vm) req.ip ips macs links with
    | .error _ => { shared := guests }
    | .ok nic =>
      { shared := guests, next := some (.adding vm { nic with dualStack := req.dualStack } ips macs) }
  | .adding vm nic _ _ => { shared := guests.insert (vm.push nic) }
  | .detaching vm tap => { shared := guests.insert (vm.without tap) }

def step (site : Site) (w : World) : Action → Option World
  | .create requested picked name nets node =>
    (createGuest w.shared requested picked name nets node).toOption.map (fun guests =>
      { w with shared := guests })
  | .attachNic id req =>
    (stoppedGuest w.shared id "attach nic").toOption.map (fun vm =>
      { w with pool := w.pool.spawn (.attaching vm req) })
  | .detachNic id tap =>
    (stoppedGuest w.shared id "detach nic").toOption.map (fun vm =>
      { w with pool := w.pool.spawn (.detaching vm tap) })
  | .turn task links =>
    (w.pool.get task).map (fun p => w.take task (p.turn site w.shared links))

end Pertisk.Net
