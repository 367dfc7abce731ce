import Pertisk.Lib.Calls
import Pertisk.Lib.Table
import Pertisk.Net.Addresses
import Pertisk.PeerUrl

namespace Pertisk.Net
open Lib

/-- A row of the pool's inventory. -/
structure Network extends NetworkRecord where
  bridge : String
  isolate : Bool := true
  notes : Option String := none

abbrev Networks := Table Network (fun network => network.id)

structure CreateNetworkRequest where
  name : String
  cidr : String
  gateway : Option String := none
  bridge : Option String := none
  dhcp : Bool := true
  isolate : Bool := true
  mode : NetworkMode := .nat
  notes : Option String := none

/-- What the pool finds and does on the host; `applyHostLinks` is off where it must do nothing. -/
structure Host where
  applyHostLinks : Bool := false
  interfaceExists : String → Bool := fun _ => false
  overlapsExistingIpv4 : Ipv4Net → Except String Bool := fun _ => .ok false
  ensureLanBridge : String → Except String Unit := fun _ => .ok ()
  ensureBridge : String → Option String → ℕ → Except String Unit := fun _ _ _ => .ok ()
  ensureIpv4Egress : String → Ipv4Net → Except String Unit := fun _ _ => .ok ()

def trimmed (s : String) : String := String.ofList (PeerUrl.trim s.toList)

def cleanNotes : Option String → Except String (Option String)
  | none => .ok none
  | some notes =>
    let notes := trimmed notes
    if 500 < notes.length then .error (invalid "notes are limited to 500 characters")
    else .ok (if notes = "" then none else some notes)

def defaultBridge (name : String) (existing : ℕ) : String :=
  if validIfname name then name else s!"vmbr{existing}"

/-- A bridged network takes over a bridge of the LAN. -/
def createBridged (host : Host) (req : CreateNetworkRequest) (id : Uuid) (bridge : String)
    (notes : Option String) : Except String Network := do
  if host.applyHostLinks then host.ensureLanBridge bridge
  return {
    id := id
    name := req.name
    bridge := bridge
    cidr := if trimmed req.cidr = "" then "0.0.0.0/0" else req.cidr
    gateway := req.gateway
    dhcp := req.dhcp
    isolate := req.isolate
    mode := .bridge
    notes := notes }

/-- A network with a range of its own must not meet one that the host has. -/
def createNat (host : Host) (req : CreateNetworkRequest) (id : Uuid) (bridge : String)
    (notes : Option String) : Except String Network := do
  let net ← Ipv4Net.parse req.cidr
  let gateway ← match req.gateway with
    | some gw => parseIpv4 gw
    | none => .ok (net.nth 1)
  if host.applyHostLinks && host.interfaceExists bridge then
    .error (invalid s!"bridge name '{bridge}' already exists on this host; choose a new bridge name")
  let cidr := net.toCidrString
  if host.applyHostLinks then
    if ← host.overlapsExistingIpv4 net then
      .error (invalid s!"network {cidr} overlaps an IPv4 subnet already configured on this host")
  let record : Network := {
    id := id
    name := req.name
    bridge := bridge
    cidr := cidr
    gateway := some (ipv4String gateway)
    dhcp := req.dhcp
    isolate := req.isolate
    mode := .nat
    notes := notes }
  if host.applyHostLinks then
    host.ensureBridge bridge record.gateway net.pfx
    host.ensureIpv4Egress bridge net
  return record

namespace Networks

variable (pool : Networks)

/-- `id` is a new one. -/
def create (host : Host) (req : CreateNetworkRequest) (id : Uuid) : Except String Network := do
  if trimmed req.name = "" then .error (invalid "network name is required")
  let notes ← cleanNotes req.notes
  if pool.rows.any (fun n => n.name == req.name) then
    .error s!"network name already exists: {req.name}"
  let bridge := req.bridge.getD (defaultBridge req.name pool.rows.length)
  if !validIfname bridge then
    .error (invalid s!"invalid bridge name '{bridge}' (max 15 [A-Za-z0-9_-])")
  match req.mode with
  | .bridge => createBridged host req id bridge notes
  | .nat => createNat host req id bridge notes

def find (id : Uuid) : Except String Network :=
  match pool.get id with
  | some network => .ok network
  | none => .error s!"network not found: {uuidText id}"

/-- The network with the name, and whether it has it already. -/
def rename (id : Uuid) (name : String) : Except String (Network × Bool) := do
  let name := trimmed name
  if name = "" then .error (invalid "network name is required")
  if pool.rows.any (fun n => n.id != id && n.name == name) then
    .error s!"network name already exists: {name}"
  let record ← pool.find id
  return ({ record with name := name }, record.name = name)

end Networks

/-- The calls that change the inventory. -/
inductive PoolCall
  | create (host : Host) (req : CreateNetworkRequest) (id : Uuid)
  | rename (id : Uuid) (name : String)
  | delete (id : Uuid)

def PoolCall.plan (pool : Networks) : PoolCall → Plan Networks (Option Network)
  | .create host req id =>
    match pool.create host req id with
    | .error text => .refuse text
    | .ok record => .change (pool.insert record) (some record)
  | .rename id name =>
    match pool.rename id name with
    | .error text => .refuse text
    | .ok (record, true) => .answer (some record)
    | .ok (record, false) => .change (pool.insert record) (some record)
  | .delete id =>
    match pool.get id with
    | none => .refuse s!"network not found: {uuidText id}"
    | some _ => .change (pool.erase id) none

/-- A call and how the write of the inventory ends. -/
def PoolCall.run (pool : Networks) (c : PoolCall) (disk : Except String Unit) :
    Networks × Except String (Option Network) :=
  (c.plan pool).run pool disk

end Pertisk.Net
