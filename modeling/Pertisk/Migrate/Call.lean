import Pertisk.Types
import Pertisk.Schedule
import Pertisk.Storage.Host

namespace Pertisk.Migrate
open Lib Storage

variable {β : Type} [Contents β]

/-- A call of `migrate` once it is clear that the guest is to move. -/
structure Call where
  caller : NodeId
  record : VmRecord
  src : NodeId
  dest : NodeId

/-- What `migrate` finds before it touches anything. -/
inductive Decision
  | refuse (text : String)
  | stay (record : VmRecord)
  | move (call : Call)

def unschedulableDetail (loads : List NodeLoad) : String :=
  if loads.isEmpty then "no members"
  else "; ".intercalate (loads.map (fun n =>
    s!"{uuidText n.id} online={n.online} vcpu {n.usedVcpus}/{n.cpus} " ++
    s!"mem {n.usedMemoryMib}/{guestMemoryBudgetMib n.memoryMib} MiB guest " ++
    s!"({n.memoryMib} MiB host)"))

/-- A named target is kept when it fits; otherwise groups are spread. -/
def pickDest (n : Node) (now : Nat) (vm : VmRecord) (target : Option NodeId) : Option NodeId :=
  let affinity := n.volumeAffinity vm.spec
  match target with
  | some _ => scheduleStorage (n.loads now) vm.spec target affinity
  | none => scheduleSpread (n.loads now) vm.spec none affinity (n.groupNodes vm.spec (some vm.id))

/-- The part of `migrate` that touches nothing. -/
def plan (n : Node) (now : Nat) (caller : NodeId) (id : VmId) (target : Option NodeId) :
    Decision :=
  if !n.cluster.hasQuorum now then .refuse "no cluster quorum"
  else if n.cluster.fenced then .refuse "node is fenced (lost quorum)"
  else
    match n.store.get id with
    | none => .refuse s!"vm not found: {id.text}"
    | some record =>
      if record.template then .refuse s!"vm {id.text} is a template; cannot migrate"
      else
        match pickDest n now record target with
        | none =>
          .refuse s!"no node has capacity for this vm ({unschedulableDetail (n.loads now)})"
        | some dest =>
          let src := record.nodeId.getD caller
          if dest = src then .stay record else .move ⟨caller, record, src, dest⟩

/-- Running QEMU guest. Ceph disks are shared. Local replica files are mirrored. ZFS zvols stay
put. -/
def canLiveMigrate (driver : DriverKind) (h : Host β) (vm : VmRecord) : Bool :=
  vm.state == .running && driver == .qemu &&
    vm.spec.disks.all (fun disk =>
      if disk.cdrom then
        match disk.isoName with
        | none => false
        | some name => (h.isos.get name).isSome
      else
        match disk.volumeId.bind h.getVolume with
        | none => false
        | some vol => vol.backend == .rbd || vol.backend == .replica) &&
    vm.spec.disks.any (fun disk => !disk.cdrom)

variable {n : Node} {now : Nat} {caller : NodeId} {id : VmId} {target : Option NodeId}

/-- Who calls, what is moved and where from is as the inventory says, and it moves elsewhere. -/
theorem plan_move {c : Call} (h : plan n now caller id target = .move c) :
    c.caller = caller ∧ n.store.get id = some c.record ∧
      c.src = c.record.nodeId.getD caller ∧ c.dest ≠ c.src := by
  unfold plan at h
  split at h
  · cases h
  · split at h
    · cases h
    · split at h
      · cases h
      · rename_i record hget
        split at h
        · cases h
        · split at h
          · cases h
          · dsimp only at h
            split at h
            · cases h
            · rename_i hne
              cases h
              exact ⟨rfl, hget, rfl, hne⟩

end Pertisk.Migrate
