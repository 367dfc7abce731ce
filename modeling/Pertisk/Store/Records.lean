import Pertisk.Store.Ids

namespace Pertisk.Store
open Lib

def stateText : VmState → String
  | .created => "created"
  | .running => "running"
  | .stopped => "stopped"
  | .failed => "failed"

def readState : String → Option VmState
  | "created" => some .created
  | "running" => some .running
  | "stopped" => some .stopped
  | "failed" => some .failed
  | _ => none

def consoleText : ConsoleType → String
  | .serial => "serial"
  | .graphics => "graphics"

def readConsole : String → Option ConsoleType
  | "serial" => some .serial
  | "graphics" => some .graphics
  | _ => none

def stateCodec : Codec VmState :=
  .text stateText readState (fun _ => True) (fun a _ => by cases a <;> rfl)

def consoleCodec : Codec ConsoleType :=
  .text consoleText readConsole (fun _ => True) (fun a _ => by cases a <;> rfl)

/-- A value that is left out where it is the default. -/
def leftOut {α : Type} (c : Codec α) (skip : Bool) (a : α) : Option Json :=
  if skip then none else some (c.ser a)

/-- Backup and snapshot schedules have the same fields. -/
def scheduleCodec : Codec VmSchedule :=
  .struct
    (fun s =>
      field "enabled" (some (.bool s.enabled)) <|
      field "interval_hours" (some (.num s.intervalHours)) <|
      field "keep" (some (.num s.keep)) <|
      field "last_run_unix" (leftOut .num (s.lastRunUnix == 0) s.lastRunUnix) [])
    (fun get => do
      let enabled ← Codec.bool.orDefault false (get "enabled")
      let intervalHours ← Codec.num.orDefault 24 (get "interval_hours")
      let keep ← Codec.num.orDefault 3 (get "keep")
      let lastRunUnix ← Codec.num.orDefault 0 (get "last_run_unix")
      return { enabled, intervalHours, keep, lastRunUnix })
    (fun _ => True)
    (fun s _ => by
      have hlast : Codec.num.orDefault 0 (leftOut .num (s.lastRunUnix == 0) s.lastRunUnix) =
          some s.lastRunUnix := Codec.orDefault_skip (by simp) trivial
      simp [hlast])

section ids
variable (u : UuidCrate)

/-- Node, network and volume ids. -/
def uuidCodec : Codec Uuid := .text uuidText u.parseStr (· < 2 ^ 128) (fun _ h => u.parse_text h)

def idCodec : Codec VmId where
  ser := serialize
  de := deserialize u
  Ok id := parse u id.text = .ok id
  de_ser id h := by
    rw [deserialize_serialize, h]
    rfl
  ser_ne_null id := by cases id <;> exact nofun

variable (path : Codec PathBuf)

def diskCodec : Codec DiskSpec :=
  .struct
    (fun d =>
      field "path" (some (path.ser d.path)) <|
      field "readonly" (some (.bool d.readonly)) <|
      field "cdrom" (some (.bool d.cdrom)) <|
      field "volume_id" (d.volumeId.map (uuidCodec u).ser) <|
      field "iso_name" (d.isoName.map Codec.str.ser) [])
    (fun get => do
      let path ← path.required (get "path")
      let readonly ← Codec.bool.orDefault false (get "readonly")
      let cdrom ← Codec.bool.orDefault false (get "cdrom")
      let volumeId ← (uuidCodec u).optional (get "volume_id")
      let isoName ← Codec.str.optional (get "iso_name")
      return { path, readonly, cdrom, volumeId, isoName })
    (fun d => path.Ok d.path ∧ (uuidCodec u).OkIn d.volumeId)
    (fun d h => by
      have hiso : Codec.str.OkIn d.isoName := fun _ _ => trivial
      simp [h.1, h.2, hiso])

def netCodec : Codec NetSpec :=
  .struct
    (fun n =>
      field "network_id" (n.networkId.map (uuidCodec u).ser) <|
      field "tap" (n.tap.map Codec.str.ser) <|
      field "mac" (n.mac.map Codec.str.ser) <|
      field "ip" (n.ip.map Codec.str.ser) <|
      field "ipv6" (n.ipv6.map Codec.str.ser) <|
      field "dual_stack" (some (.bool n.dualStack)) [])
    (fun get => do
      let networkId ← (uuidCodec u).optional (get "network_id")
      let tap ← Codec.str.optional (get "tap")
      let mac ← Codec.str.optional (get "mac")
      let ip ← Codec.str.optional (get "ip")
      let ipv6 ← Codec.str.optional (get "ipv6")
      let dualStack ← Codec.bool.orDefault false (get "dual_stack")
      return { networkId, tap, mac, ip, ipv6, dualStack })
    (fun n => (uuidCodec u).OkIn n.networkId)
    (fun n h => by
      have hstr : ∀ s, Codec.str.OkIn s := fun _ _ _ => trivial
      simp [h, hstr])

def specCodec : Codec VmSpec :=
  .struct
    (fun s =>
      field "name" (some (.str s.name)) <|
      field "vcpus" (some (.num s.vcpus)) <|
      field "memory_mib" (some (.num s.memoryMib)) <|
      field "kernel" (s.kernel.map path.ser) <|
      field "disks" (leftOut (diskCodec u path).list s.disks.isEmpty s.disks) <|
      field "nets" (leftOut (netCodec u).list s.nets.isEmpty s.nets) <|
      field "serial_log" (s.serialLog.map path.ser) <|
      field "console_type" (some (consoleCodec.ser s.consoleType)) <|
      field "ha" (some (.bool s.ha)) <|
      field "autostart" (leftOut .bool (!s.autostart) s.autostart) <|
      field "autostart_delay" (leftOut .num (s.autostartDelay == 0) s.autostartDelay) <|
      field "autostart_order" (leftOut .num (s.autostartOrder == 0) s.autostartOrder) <|
      field "ssh_user" (s.sshUser.map Codec.str.ser) <|
      field "group" (s.group.map Codec.str.ser) <|
      field "backup" (s.backup.map scheduleCodec.ser) <|
      field "snapshot" (s.snapshot.map scheduleCodec.ser) <|
      field "notes" (s.notes.map Codec.str.ser) [])
    (fun get => do
      let name ← Codec.str.required (get "name")
      let vcpus ← Codec.num.orDefault 1 (get "vcpus")
      let memoryMib ← Codec.num.orDefault 512 (get "memory_mib")
      let kernel ← path.optional (get "kernel")
      let disks ← (diskCodec u path).list.orDefault [] (get "disks")
      let nets ← (netCodec u).list.orDefault [] (get "nets")
      let serialLog ← path.optional (get "serial_log")
      let consoleType ← consoleCodec.orDefault .serial (get "console_type")
      let ha ← Codec.bool.orDefault true (get "ha")
      let autostart ← Codec.bool.orDefault false (get "autostart")
      let autostartDelay ← Codec.num.orDefault 0 (get "autostart_delay")
      let autostartOrder ← Codec.num.orDefault 0 (get "autostart_order")
      let sshUser ← Codec.str.optional (get "ssh_user")
      let group ← Codec.str.optional (get "group")
      let backup ← scheduleCodec.optional (get "backup")
      let snapshot ← scheduleCodec.optional (get "snapshot")
      let notes ← Codec.str.optional (get "notes")
      return { name, vcpus, memoryMib, kernel, disks, nets, serialLog, consoleType, ha, autostart,
               autostartDelay, autostartOrder, sshUser, group, backup, snapshot, notes })
    (fun s => path.OkIn s.kernel ∧ (diskCodec u path).list.Ok s.disks ∧
      (netCodec u).list.Ok s.nets ∧ path.OkIn s.serialLog)
    (fun s h => by
      obtain ⟨hkernel, hdisks, hnets, hlog⟩ := h
      have hstr : ∀ s, Codec.str.OkIn s := fun _ _ _ => trivial
      have hschedule : ∀ s, scheduleCodec.OkIn s := fun _ _ _ => trivial
      have hdisks' : (diskCodec u path).list.orDefault []
          (leftOut (diskCodec u path).list s.disks.isEmpty s.disks) = some s.disks :=
        Codec.orDefault_skip (by simp) hdisks
      have hnets' : (netCodec u).list.orDefault []
          (leftOut (netCodec u).list s.nets.isEmpty s.nets) = some s.nets :=
        Codec.orDefault_skip (by simp) hnets
      have hconsole : consoleCodec.orDefault .serial (some (consoleCodec.ser s.consoleType)) =
          some s.consoleType := Codec.orDefault_ser trivial
      have hauto : Codec.bool.orDefault false (leftOut .bool (!s.autostart) s.autostart) =
          some s.autostart := Codec.orDefault_skip (by simp) trivial
      have hnum : ∀ k, Codec.num.orDefault 0 (leftOut .num (k == 0) k) = some k :=
        fun k => Codec.orDefault_skip (by simp) trivial
      simp [hkernel, hdisks', hnets', hlog, hconsole, hauto, hnum, hstr, hschedule])

/-- The record's paths and its uuids, but for its own id, are as wide as their types. -/
def Whole (r : VmRecord) : Prop :=
  (specCodec u path).Ok r.spec ∧ path.OkIn r.apiSocket ∧ path.OkIn r.serialLog ∧
    path.OkIn r.consoleSocket ∧ path.OkIn r.graphicsSocket ∧ (uuidCodec u).OkIn r.nodeId

def recordCodec : Codec VmRecord :=
  .struct
    (fun r =>
      field "id" (some ((idCodec u).ser r.id)) <|
      field "spec" (some ((specCodec u path).ser r.spec)) <|
      field "state" (some (stateCodec.ser r.state)) <|
      field "pid" (r.pid.map Codec.num.ser) <|
      field "api_socket" (r.apiSocket.map path.ser) <|
      field "serial_log" (r.serialLog.map path.ser) <|
      field "console_socket" (r.consoleSocket.map path.ser) <|
      field "graphics_socket" (r.graphicsSocket.map path.ser) <|
      field "last_error" (r.lastError.map Codec.str.ser) <|
      field "node_id" (r.nodeId.map (uuidCodec u).ser) <|
      field "template" (leftOut .bool (!r.template) r.template) [])
    (fun get => do
      let id ← (idCodec u).required (get "id")
      let spec ← (specCodec u path).required (get "spec")
      let state ← stateCodec.required (get "state")
      let pid ← Codec.num.optional (get "pid")
      let apiSocket ← path.optional (get "api_socket")
      let serialLog ← path.optional (get "serial_log")
      let consoleSocket ← path.optional (get "console_socket")
      let graphicsSocket ← path.optional (get "graphics_socket")
      let lastError ← Codec.str.optional (get "last_error")
      let nodeId ← (uuidCodec u).optional (get "node_id")
      let template ← Codec.bool.orDefault false (get "template")
      return { id, spec, state, pid, apiSocket, serialLog, consoleSocket, graphicsSocket,
               lastError, nodeId, template })
    (fun r => (idCodec u).Ok r.id ∧ Whole u path r)
    (fun r h => by
      obtain ⟨hid, hspec, hapi, hserial, hconsole, hgraphics, hnode⟩ := h
      have hstate : stateCodec.required (some (stateCodec.ser r.state)) = some r.state :=
        Codec.required_ser trivial
      have hpid : ∀ n, Codec.num.OkIn n := fun _ _ _ => trivial
      have hstr : ∀ s, Codec.str.OkIn s := fun _ _ _ => trivial
      have htemplate : Codec.bool.orDefault false (leftOut .bool (!r.template) r.template) =
          some r.template := Codec.orDefault_skip (by simp) trivial
      simp [hid, hspec, hapi, hserial, hconsole, hgraphics, hnode, hstate, hpid, hstr, htemplate])

/-- A record whose id is not read from its text is not read at all. -/
theorem recordCodec_none {r : VmRecord} (h : (parse u r.id.text).toOption = none) :
    (recordCodec u path).de ((recordCodec u path).ser r) = none := by
  have hid : (idCodec u).required (some ((idCodec u).ser r.id)) = none :=
    (deserialize_serialize r.id).trans h
  simp [recordCodec, Codec.struct, hid]

end ids

end Pertisk.Store
