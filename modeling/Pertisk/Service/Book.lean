import Pertisk.Lib.Announce
import Pertisk.Migrate.Call
import Pertisk.Volume.Edits

namespace Pertisk.Service
open Lib

/-- The errors that a caller tells apart; of the others it has the text only. -/
inductive DaemonError
  | capacity (text : String)
  | unschedulable (text : String)
  | linkedRequiresQemu
  | other (text : String)

def DaemonError.text : DaemonError → String
  | capacity text => s!"insufficient host capacity: {text}"
  | unschedulable text => s!"no node has capacity for this vm ({text})"
  | linkedRequiresQemu => "linked clone requires qemu-img"
  | other text => text

def invalidSpec (text : String) : DaemonError := .other s!"invalid vm spec: {text}"

/-- What the world outside the daemon's maps answers when an operation asks it once: clocks,
fresh ids, the hypervisor, storage tools and files, peers, the ISO library. -/
structure Outside where
  nowMs : Nat := 0
  freshId : Uuid := 0
  freeMib : Option Nat := none
  hostMib : Option Nat := none
  /-- A yes or no: does the process run, is the tool there, does the file exist. -/
  yes : Bool := false
  /-- How a command ends. -/
  ran : Except String Unit := .ok ()
  created : Except String Created := .ok {}
  started : Except String (Option Nat) := .ok none
  peerVm : Except String VmRecord := .error "unreachable"
  peerVolume : Except String VolumeRecord := .error "unreachable"
  /-- The length of a file, or the virtual size of an image. -/
  bytes : Nat := 0
  format : VolumeFormat := .raw
  iso : Option IsoRecord := none
  /-- The addresses of a guest's NICs when they are others than the record's. -/
  seen : Option (List NetSpec) := none
  nic : Except String NetSpec := .error "network not found"
  /-- The network that a clone gets when nothing names one. -/
  network : Option Uuid := none
  /-- The address under which a guest is reached. -/
  host : Option String := none

/-- The parts of the configuration that operations read. -/
structure Config where
  driver : DriverKind := .mock
  backend : StorageBackend := .replica
  replicaCount : Nat := 1
  rbdPool : Option String := none
  zfsPool : Option String := none
  runDir : String := "/run/pertisk"

/-- The configuration, and the answers that one operation gets, in the order it asks. -/
structure Env where
  config : Config := {}
  answers : ℕ → Outside

/-- No address is seen that a guest's record does not have. -/
def Env.Quiet (env : Env) : Prop := ∀ k, (env.answers k).seen = none

/-- The daemon's maps, the guests prepared for a live migration, and the questions asked. -/
structure Book where
  node : Node
  incoming : List VmRecord := []
  asked : ℕ := 0

def Book.generation (b : Book) : ℕ := b.node.cluster.generation

/-- One of the two maps is another. -/
def Book.differ (a b : Book) : Bool :=
  a.node.store.rows != b.node.store.rows || a.node.listVolumes != b.node.listVolumes

abbrev Op (α : Type) := Proc DaemonError Book.generation α

namespace Op

def node : Op Node := Proc.look Book.node id (fun _ => rfl)

def ask (env : Env) : Op Outside :=
  Proc.look (fun b => env.answers b.asked) (fun b => { b with asked := b.asked + 1 }) (fun _ => rfl)

def check {α : Type} (e : Except DaemonError α) : Op α := Proc.check e

def demand (p : Prop) [Decidable p] (e : DaemonError) : Op Unit :=
  check (if p then .ok () else .error e)

/-- `let _ = ..` -/
def ignore {α : Type} (p : Op α) : Op Unit := Proc.attempt p >>= fun _ => pure ()

def onlyIf (c : Bool) (p : Op Unit) : Op Unit := if c then p else pure ()

def each {ι : Type} (l : List ι) (body : ι → Op Unit) : Op Unit := Proc.each body l

def write (f : Node → Node) (h : ∀ n, (f n).cluster.generation = n.cluster.generation) : Op Unit :=
  Proc.alter Book.differ (fun b => { b with node := f b.node }) (fun b => h b.node)

def upsertVm (record : VmRecord) : Op Unit := write (fun n => n.upsertVm record) (fun _ => rfl)

def removeVm (id : VmId) : Op Unit := write (fun n => n.removeVm id) (fun _ => rfl)

/-- The record comes back with the path that this node keeps the volume under. -/
def putRecord (record : VolumeRecord) : Op VolumeRecord :=
  write (fun n => n.putRecord record) (fun _ => rfl) >>= fun _ => pure record.localize

def removeVolume (id : VolumeId) : Op Unit := write (fun n => n.removeVolume id) (fun _ => rfl)

def repath (record : VolumeRecord) : Op Unit := write (fun n => n.repath record) (fun _ => rfl)

def bump : Op Unit :=
  Proc.advance (fun b => { b with node := b.node.bump }) (fun b => Nat.lt_succ_self b.generation)

def getVm (id : VmId) : Op VmRecord := do
  let n ← node
  match n.store.get id with
  | some record => pure record
  | none => check (.error (.other s!"vm not found: {id.text}"))

def volumeNotFound (id : VolumeId) : DaemonError := .other s!"volume not found: {uuidText id}"

def getVolume (id : VolumeId) : Op VolumeRecord := do
  let n ← node
  match n.getVolume id with
  | some record => pure record
  | none => check (.error (volumeNotFound id))

/-- Patch a record in place. -/
def updateVm (id : VmId) (f : VmRecord → VmRecord) : Op VmRecord := do
  let record ← getVm id
  upsertVm (f record)
  pure (f record)

variable (env : Env)

def requireQuorum : Op Unit := do
  let o ← ask env
  let n ← node
  check (match n.cluster.quorumError o.nowMs with
    | some text => .error (.other text)
    | none => .ok ())

/-- A command outside, with its failure as the daemon words it. -/
def run (word : String → String) : Op Unit := do
  let o ← ask env
  check (o.ran.mapError (fun text => .other (word text)))

def getIso (name : String) : Op IsoRecord := do
  let o ← ask env
  match o.iso with
  | some iso => pure iso
  | none => check (.error (.other s!"iso not found: {name}"))

def requireVolumeIdle (id : VolumeId) : Op Unit := do
  let n ← node
  check ((n.requireVolumeIdle id).mapError .other)

section still
variable {α ι : Type}

theorem still_ask : Proc.Still (ask env) := .look

/-- What is asked is answered from the list of answers. -/
theorem still_ask_bind {f : Outside → Op α} (h : ∀ k, Proc.Still (f (env.answers k))) :
    Proc.Still (ask env >>= f) := by
  intro b
  exact h b.state.asked (ask env b).2

theorem still_node : Proc.Still node := .look

theorem still_check (e : Except DaemonError α) : Proc.Still (check e) := .check e

theorem still_demand (p : Prop) [Decidable p] (e : DaemonError) : Proc.Still (demand p e) :=
  .check _

theorem still_ignore {p : Op α} (h : Proc.Still p) : Proc.Still (ignore p) :=
  h.attempt.bind (fun _ => .pure _)

theorem still_onlyIf {c : Bool} {p : Op Unit} (h : Proc.Still p) : Proc.Still (onlyIf c p) := by
  unfold onlyIf
  split
  · exact h
  · exact .pure _

theorem still_getVm (id : VmId) : Proc.Still (getVm id) := by
  refine still_node.bind (fun n => ?_)
  split
  · exact .pure _
  · exact .check _

theorem still_getVolume (id : VolumeId) : Proc.Still (getVolume id) := by
  refine still_node.bind (fun n => ?_)
  split
  · exact .pure _
  · exact .check _

theorem still_requireQuorum : Proc.Still (requireQuorum env) :=
  (still_ask env).bind (fun _ => still_node.bind (fun _ => .check _))

theorem still_run (word : String → String) : Proc.Still (run env word) :=
  (still_ask env).bind (fun _ => .check _)

theorem still_getIso (name : String) : Proc.Still (getIso env name) := by
  refine (still_ask env).bind (fun o => ?_)
  split
  · exact .pure _
  · exact .check _

end still

section changes
variable {α : Type}

theorem silent_write {f : Node → Node}
    {h : ∀ n, (f n).cluster.generation = n.cluster.generation} : Proc.Silent (write f h) := .alter

theorem silent_upsertVm (record : VmRecord) : Proc.Silent (upsertVm record) := silent_write

theorem silent_putRecord (record : VolumeRecord) : Proc.Silent (putRecord record) :=
  silent_write.bind (fun _ => (Proc.Still.pure _).silent)

theorem silent_removeVolume (id : VolumeId) : Proc.Silent (removeVolume id) := silent_write

theorem silent_updateVm (id : VmId) (f : VmRecord → VmRecord) : Proc.Silent (updateVm id f) :=
  (still_getVm id).silent.bind (fun _ =>
    (silent_upsertVm _).bind (fun _ => (Proc.Still.pure _).silent))

theorem silent_ignore {p : Op α} (h : Proc.Silent p) : Proc.Silent (ignore p) :=
  h.attempt.bind (fun _ => (Proc.Still.pure _).silent)

theorem silent_onlyIf {c : Bool} {p : Op Unit} (h : Proc.Silent p) : Proc.Silent (onlyIf c p) := by
  unfold onlyIf
  split
  · exact h
  · exact (Proc.Still.pure _).silent

theorem settles_bump : Proc.Settles bump := .advance

/-- Nearly every operation ends so: the counter moves, and the result is returned. -/
theorem settles_bump_pure (a : α) : Proc.Settles (bump >>= fun _ => (pure a : Op α)) :=
  settles_bump.bind (fun _ => (Proc.Still.pure a).keeps)

/-- A record is written and announced at once. -/
theorem steady_write_bump {f : Node → Node}
    {h : ∀ n, (f n).cluster.generation = n.cluster.generation} {p : Op α} (hp : Proc.Steady p) :
    Proc.Steady (write f h >>= fun _ => bump >>= fun _ => p) := .alter_advance hp

theorem settles_fail (e : DaemonError) : Proc.Settles (check (.error e) : Op α) := by
  intro b a b' h
  cases h

theorem keeps_onlyIf {c : Bool} {p : Op Unit} (h : Proc.Keeps p) : Proc.Keeps (onlyIf c p) := by
  unfold onlyIf
  split
  · exact h
  · exact (Proc.Still.pure _).keeps

end changes

section results
variable {b b' : Noted Book.generation} {id : VmId} {record : VmRecord}

theorem check_ok {α : Type} {e : Except DaemonError α} {a : α} (h : check e b = (.ok a, b')) :
    e = .ok a ∧ b' = b := by
  have hpair : (e, b) = (.ok a, b') := h
  cases hpair
  exact ⟨rfl, rfl⟩

theorem ask_ok {env : Env} {o : Outside} (h : ask env b = (.ok o, b')) :
    o = env.answers b.state.asked := by
  cases h
  rfl

theorem demand_ok {p : Prop} [Decidable p] {e : DaemonError} {u : Unit}
    (h : demand p e b = (.ok u, b')) : p ∧ b' = b := by
  by_cases hp : p
  · simp only [demand, hp, if_true] at h
    cases h
    exact ⟨hp, rfl⟩
  · simp only [demand, hp, if_false] at h
    cases h

theorem ignore_ok {α : Type} {p : Op α} {u : Unit} (h : ignore p b = (.ok u, b')) :
    b' = (p b).2 := by
  cases h
  rfl

theorem getVm_ok (h : getVm id b = (.ok record, b')) :
    b' = b ∧ b.state.node.store.get id = some record := by
  obtain ⟨n, m, hnode, h⟩ := Proc.bind_ok h
  cases hnode
  cases hget : b.state.node.store.get id with
  | none =>
    simp only [hget] at h
    cases h
  | some found =>
    simp only [hget] at h
    cases h
    exact ⟨rfl, rfl⟩

theorem getVolume_ok {v : VolumeId} {volume : VolumeRecord}
    (h : getVolume v b = (.ok volume, b')) :
    b' = b ∧ b.state.node.getVolume v = some volume := by
  obtain ⟨n, m, hnode, h⟩ := Proc.bind_ok h
  cases hnode
  cases hget : b.state.node.getVolume v with
  | none =>
    simp only [id_eq, hget] at h
    cases h
  | some found =>
    simp only [id_eq, hget] at h
    cases h
    exact ⟨rfl, rfl⟩

theorem upsertVm_ok {u : Unit} (h : upsertVm record b = (.ok u, b')) :
    b'.state.node.store.get record.id = some record := by
  cases h
  exact Table.get_insert_self ..

theorem bump_ok {u : Unit} (h : bump b = (.ok u, b')) :
    b'.state.node.store = b.state.node.store := by
  cases h
  rfl

theorem requireQuorum_ok {env : Env} {u : Unit} (h : requireQuorum env b = (.ok u, b')) :
    b'.state.node = b.state.node := by
  obtain ⟨o, m, hask, h⟩ := Proc.bind_ok h
  obtain ⟨n, m', hnode, h⟩ := Proc.bind_ok h
  cases hask
  cases hnode
  obtain ⟨-, rfl⟩ := check_ok h
  rfl

/-- Behind a demand that was met. -/
theorem settles_demand_bind {α : Type} {q : Prop} [Decidable q] {e : DaemonError} {p : Op α}
    (h : q → Proc.Settles p) : Proc.Settles (demand q e >>= fun _ => p) := by
  intro b a b' hp
  obtain ⟨_, m, hm, hrun⟩ := Proc.bind_ok hp
  exact h (demand_ok hm).1 m a b' hrun

end results

end Op

open Op

def requireStopped (vm : VmRecord) (op : String) : Op Unit :=
  demand (vm.state ≠ .running) (.other s!"vm {vm.id.text} must be stopped to {op}")

def requireNotTemplate (vm : VmRecord) (op : String) : Op Unit :=
  demand (vm.template = false) (.other s!"vm {vm.id.text} is a template; cannot {op}")

end Pertisk.Service
