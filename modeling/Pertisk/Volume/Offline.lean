import Pertisk.Lib.Calls
import Pertisk.Lib.Run
import Pertisk.Storage.Host
import Pertisk.Volume.Linked

namespace Pertisk

/-- The volumes of a guest's disks, CD-ROMs left out. -/
def VmRecord.diskVolumes (vm : VmRecord) : List VolumeId :=
  (vm.spec.disks.filter (fun disk => !disk.cdrom)).filterMap DiskSpec.volumeId

/-- The snapshot is inside the image, where only a tool that opens the image finds it. -/
def VolumeRecord.savedInside (r : VolumeRecord) (name : String) : Bool :=
  r.backend == .replica && r.format == .qcow2 &&
    r.snapshots.any (fun snap => snap.name == name && snap.path.isNone)

namespace Volume
open Lib

/-- Operations that have an offline tool, or a copy, work on the images of volumes. -/
inductive ImageOp
  | snapshot (id : VolumeId)
  | deleteSnapshot (id : VolumeId) (name : String)
  | deleteVmSnapshot (vm : VmId) (name : String)
  | restore (id : VolumeId)
  | resize (id : VolumeId)
  | clone (id : VolumeId)
  /-- A new volume from a snapshot; the source guest can stay running. -/
  | cloneFromSnapshot (id : VolumeId) (name : String)
  | backup (vm : VmId)
  | restoreBackup (vm : VmId) (disks : List VolumeId)

/-- An operation under way: what it still has to work on, and the image that its tool has open. -/
structure Work where
  op : ImageOp
  /-- A running guest was found, whose QEMU is asked first. -/
  busy : Bool
  todo : List VolumeId
  tool : Option VolumeId

def Work.ready (op : ImageOp) (todo : List VolumeId) : Work :=
  { op := op, busy := false, todo := todo, tool := none }

/-- The tool is needed on this volume. QEMU may have done the work, when it was asked. -/
def Work.needsTool (work : Work) (r : VolumeRecord) (byQemu : Bool) : Bool :=
  !(work.busy && byQemu) &&
    match work.op with
    | .snapshot _ => !r.backend.external
    | .deleteSnapshot _ name | .deleteVmSnapshot _ name | .cloneFromSnapshot _ name =>
      r.savedInside name
    | _ => true

/-- A daemon with its operations under way. -/
structure Images where
  now : Nat
  node : Node
  /-- The guests that run, here or on a peer, each with the volumes it has attached. -/
  live : List (VmId × List VolumeId)
  works : List Work

inductive ImageAction
  | begin (op : ImageOp)
  /-- The next volume's turn. -/
  | turn (i : Nat) (byQemu : Bool)
  | toolEnds (i : Nat)
  /-- The operation returns, with a tool that failed or with nothing left to do. -/
  | finish (i : Nat)
  | start (vm : VmId)
  | startElsewhere (vm : VmId) (volumes : List VolumeId)
  | exit (vm : VmId)
  /-- The record of a guest changes: it was started or stopped, by us or a peer, or edited. -/
  | record (vm : VmRecord)

namespace Images

variable (w : Images)

def checkQuorum : Except String Unit :=
  match w.node.cluster.quorumError w.now with
  | some text => .error text
  | none => .ok ()

def vm (id : VmId) : Except String VmRecord :=
  match w.node.store.get id with
  | some vm => .ok vm
  | none => .error s!"vm not found: {id.text}"

/-- Only images of the local files are backed up. -/
def checkBackup : List VolumeId → Except String Unit
  | [] => .ok ()
  | id :: ids =>
    match w.node.getVolume id with
    | none => .error s!"volume not found: {uuidText id}"
    | some vol =>
      if vol.backend.external then
        .error (s!"{Storage.Host.backendText vol.backend} volumes cannot be backed up " ++
          "with the local export path yet")
      else checkBackup ids

def checkRestore (vm : VmRecord) : List VolumeId → Except String Unit
  | [] => .ok ()
  | id :: ids =>
    if !vm.diskVolumes.contains id then .error "backup disk is not attached to this guest"
    else
      match w.node.requireVolumeIdle id, w.node.getVolume id with
      | .error text, _ => .error text
      | .ok (), none => .error s!"volume not found: {uuidText id}"
      | .ok (), some vol =>
        if vol.backend.external then
          .error (s!"{Storage.Host.backendText vol.backend} volumes cannot be restored " ++
            "from a local backup")
        else checkRestore vm ids

/-- What an operation finds when it checks, and so has to do. -/
def accept : ImageOp → Except String Work
  | .snapshot id =>
    .ok (.ready (.snapshot id) (if (w.node.runningVolumeUsers id).isEmpty then [id] else []))
  | .deleteSnapshot id name => do
    w.checkQuorum
    return { op := .deleteSnapshot id name, busy := !(w.node.runningVolumeUsers id).isEmpty
             todo := [id], tool := none }
  | .deleteVmSnapshot id name => do
    w.checkQuorum
    let vm ← w.vm id
    return { op := .deleteVmSnapshot id name, busy := vm.state == .running
             todo := vm.diskVolumes, tool := none }
  | .restore id => do
    w.node.requireVolumeIdle id
    return .ready (.restore id) [id]
  | .resize id => do
    w.node.requireVolumeIdle id
    return .ready (.resize id) [id]
  | .clone id => do
    w.node.requireVolumeIdle id
    return .ready (.clone id) [id]
  | .cloneFromSnapshot id name => .ok (.ready (.cloneFromSnapshot id name) [id])
  | .backup id => do
    let vm ← w.vm id
    requireNotTemplate vm "backup"
    requireStopped vm "backup"
    w.checkBackup vm.diskVolumes
    return .ready (.backup id) vm.diskVolumes
  | .restoreBackup id disks => do
    let vm ← w.vm id
    requireNotTemplate vm "restore"
    requireStopped vm "restore"
    w.checkRestore vm disks
    return .ready (.restoreBackup id disks) disks

def turn (work : Work) (byQemu : Bool) : Work :=
  match work.todo with
  | [] => work
  | id :: todo =>
    let needed := (w.node.getVolume id).any (fun r => work.needsTool r byQemu)
    { work with todo := todo, tool := if needed then some id else none }

def start (id : VmId) : Except String Images := do
  w.checkQuorum
  let vm ← w.vm id
  vm.startable
  return { w with live := (id, vm.spec.disks.filterMap DiskSpec.volumeId) :: w.live }

def step (w : Images) : ImageAction → Option Images
  | .begin op =>
    match w.accept op with
    | .error _ => some w
    | .ok work => some { w with works := w.works ++ [work] }
  | .turn i byQemu =>
    match w.works[i]? with
    | some work =>
      if work.tool.isNone then some { w with works := w.works.set i (w.turn work byQemu) } else none
    | none => none
  | .toolEnds i =>
    (w.works[i]?).map (fun work => { w with works := w.works.set i { work with tool := none } })
  | .finish i => if i < w.works.length then some { w with works := w.works.eraseIdx i } else none
  | .start vm => (w.start vm).toOption
  | .startElsewhere vm volumes => some { w with live := (vm, volumes) :: w.live }
  | .exit vm => some { w with live := w.live.filter (fun guest => guest.1 != vm) }
  | .record vm => some { w with node := w.node.upsertVm vm }

/-- No running guest has the volume attached. -/
def Free (id : VolumeId) : Prop := ∀ guest ∈ w.live, id ∉ guest.2

/-- The operation's check takes notice of the guest that runs with the volume. -/
def Sees (vm : VmId) (id : VolumeId) : ImageOp → Prop
  | .deleteVmSnapshot owner _ | .backup owner =>
    vm = owner ∧ ∃ record ∈ w.node.store.get owner, record.state = .running
  | .cloneFromSnapshot .. => False
  | _ => vm ∈ w.node.runningVolumeUsers id

/-- A guest with these volumes starts beside no operation that found them idle, or has a tool on
one of them. -/
def Quiet (volumes : List VolumeId) : Prop :=
  ∀ work ∈ w.works, ∀ id ∈ volumes,
    id ∉ work.tool ∧ (work.busy = false → id ∉ work.todo)

/-- Checks take notice of the guests that run, no guest starts between a check and the end of
the tool, and QEMU does what it is asked to do while its guest runs. -/
def Careful (w : Images) : ImageAction → Prop
  | .begin op => ∀ work ∈ (w.accept op).toOption, ∀ id ∈ work.todo, ∀ guest ∈ w.live,
      id ∈ guest.2 → w.Sees guest.1 id op
  | .turn i byQemu => ∀ work ∈ w.works[i]?, work.busy = true → ∀ id ∈ work.todo.head?,
      ∀ guest ∈ w.live, id ∈ guest.2 → byQemu = true
  | .start vm => ∀ record ∈ w.node.store.get vm, w.Quiet (record.spec.disks.filterMap DiskSpec.volumeId)
  | .startElsewhere _ volumes => w.Quiet volumes
  | _ => True

variable {w} {op : ImageOp} {work : Work} {id : VolumeId} {ids : List VolumeId}

/-- A volume that was found idle is open in no guest that the check takes notice of. -/
theorem idle_free (h : w.node.requireVolumeIdle id = .ok ())
    (hsees : ∀ guest ∈ w.live, id ∈ guest.2 → guest.1 ∈ w.node.runningVolumeUsers id) : w.Free id := by
  intro guest hguest hin
  obtain ⟨vm, hvm, -⟩ := List.mem_map.mp (hsees guest hguest hin)
  obtain ⟨hrow, hboth⟩ := List.mem_filter.mp hvm
  simp only [Bool.and_eq_true, beq_iff_eq] at hboth
  exact w.node.requireVolumeIdle_ok.mp h vm hrow hboth.1 hboth.2

theorem checkRestore_idle {vm : VmRecord} (h : w.checkRestore vm ids = .ok ()) :
    ∀ id ∈ ids, w.node.requireVolumeIdle id = .ok () := by
  induction ids with
  | nil => simp
  | cons v ids ih =>
    unfold checkRestore at h
    split at h
    · cases h
    · split at h
      · cases h
      · cases h
      · rename_i hidle _
        split at h
        · cases h
        · intro id hid
          rcases List.mem_cons.mp hid with rfl | hid
          · exact hidle
          · exact ih h id hid

theorem none_free (hsees : ∀ guest ∈ w.live, id ∈ guest.2 → guest.1 ∈ w.node.runningVolumeUsers id)
    (hnone : (w.node.runningVolumeUsers id).isEmpty = true) : w.Free id := by
  intro guest hguest hin
  have hmem := hsees guest hguest hin
  rw [List.isEmpty_iff.mp hnone] at hmem
  cases hmem

/-- The record that the check looks at is not of a running guest. -/
theorem owner_free {owner : VmId} {vm : VmRecord} (hvm : w.vm owner = .ok vm)
    (hstopped : vm.state ≠ .running)
    (hsees : ∀ guest ∈ w.live, id ∈ guest.2 →
      guest.1 = owner ∧ ∃ record ∈ w.node.store.get owner, record.state = .running) : w.Free id := by
  intro guest hguest hin
  obtain ⟨-, record, hrecord, hrunning⟩ := hsees guest hguest hin
  unfold Images.vm at hvm
  rw [Option.mem_def.mp hrecord] at hvm
  cases hvm
  exact hstopped hrunning

theorem requireStopped_ok {vm : VmRecord} {text : String} (h : requireStopped vm text = .ok ()) :
    vm.state ≠ .running := by
  intro hrunning
  rw [requireStopped, if_pos hrunning] at h
  cases h

/-- An operation that was admitted and found no running guest has found the truth. -/
theorem accept_free (h : w.accept op = .ok work)
    (hsees : ∀ id ∈ work.todo, ∀ guest ∈ w.live, id ∈ guest.2 → w.Sees guest.1 id op) :
    work.tool = none ∧ (work.busy = false → ∀ id ∈ work.todo, w.Free id) := by
  cases op with
  | snapshot v =>
    cases h
    refine ⟨rfl, fun _ id hid => none_free (hsees id hid) ?_⟩
    dsimp only [Work.ready] at hid
    split at hid
    · rename_i hempty
      obtain rfl := List.mem_singleton.mp hid
      exact hempty
    · cases hid
  | deleteSnapshot v name =>
    obtain ⟨-, -, h⟩ := bind_ok h
    cases h
    refine ⟨rfl, fun hbusy id hid => none_free (hsees id hid) ?_⟩
    obtain rfl := List.mem_singleton.mp hid
    simpa using hbusy
  | deleteVmSnapshot owner name =>
    obtain ⟨-, -, h⟩ := bind_ok h
    obtain ⟨vm, hvm, h⟩ := bind_ok h
    cases h
    refine ⟨rfl, fun hbusy id hid => owner_free hvm ?_ (hsees id hid)⟩
    simpa using hbusy
  | restore v =>
    obtain ⟨_, hidle, h⟩ := bind_ok h
    cases h
    refine ⟨rfl, fun _ id hid => ?_⟩
    obtain rfl := List.mem_singleton.mp hid
    exact idle_free hidle (hsees id hid)
  | resize v =>
    obtain ⟨_, hidle, h⟩ := bind_ok h
    cases h
    refine ⟨rfl, fun _ id hid => ?_⟩
    obtain rfl := List.mem_singleton.mp hid
    exact idle_free hidle (hsees id hid)
  | clone v =>
    obtain ⟨_, hidle, h⟩ := bind_ok h
    cases h
    refine ⟨rfl, fun _ id hid => ?_⟩
    obtain rfl := List.mem_singleton.mp hid
    exact idle_free hidle (hsees id hid)
  | cloneFromSnapshot v name =>
    cases h
    exact ⟨rfl, fun _ id hid guest hguest hin => hsees id hid guest hguest hin⟩
  | backup owner =>
    obtain ⟨vm, hvm, h⟩ := bind_ok h
    obtain ⟨-, -, h⟩ := bind_ok h
    obtain ⟨_, hstopped, h⟩ := bind_ok h
    obtain ⟨-, -, h⟩ := bind_ok h
    cases h
    exact ⟨rfl, fun _ id hid => owner_free hvm (requireStopped_ok hstopped) (hsees id hid)⟩
  | restoreBackup owner disks =>
    obtain ⟨vm, -, h⟩ := bind_ok h
    obtain ⟨-, -, h⟩ := bind_ok h
    obtain ⟨-, -, h⟩ := bind_ok h
    obtain ⟨_, hchecked, h⟩ := bind_ok h
    cases h
    exact ⟨rfl, fun _ id hid => idle_free (checkRestore_idle hchecked id hid) (hsees id hid)⟩

/-- A tool works on an image that no guest has open, and what was found idle still is. -/
def Inv (w : Images) : Prop :=
  ∀ work ∈ w.works, (∀ id ∈ work.tool, w.Free id) ∧
    (work.busy = false → ∀ id ∈ work.todo, w.Free id)

theorem Inv.begin (h : w.Inv) (haccept : w.accept op = .ok work)
    (hsees : ∀ id ∈ work.todo, ∀ guest ∈ w.live, id ∈ guest.2 → w.Sees guest.1 id op) :
    Inv { w with works := w.works ++ [work] } := by
  intro other hother
  rcases List.mem_append.mp hother with hother | hother
  · exact h other hother
  · obtain rfl := List.mem_singleton.mp hother
    obtain ⟨htool, hfree⟩ := accept_free haccept hsees
    exact ⟨by simp [htool], hfree⟩

theorem Inv.set (h : w.Inv) {i : Nat} (hwork : (∀ id ∈ work.tool, w.Free id) ∧
    (work.busy = false → ∀ id ∈ work.todo, w.Free id)) :
    Inv { w with works := w.works.set i work } := by
  intro other hother
  rcases List.mem_or_eq_of_mem_set hother with hother | rfl
  · exact h other hother
  · exact hwork

/-- A volume whose turn it is gets a tool when it was found idle, or QEMU has failed. -/
theorem Inv.turn {i : Nat} {byQemu : Bool} (h : w.Inv) (hi : w.works[i]? = some work)
    (hqemu : work.busy = true → ∀ id ∈ work.todo.head?, ∀ guest ∈ w.live, id ∈ guest.2 →
      byQemu = true) : Inv { w with works := w.works.set i (w.turn work byQemu) } := by
  obtain ⟨htool, hidle⟩ := h work (List.mem_of_getElem? hi)
  refine h.set ?_
  unfold Images.turn
  cases htodo : work.todo with
  | nil => exact ⟨htool, by simp [htodo]⟩
  | cons id todo =>
    rw [htodo] at hidle hqemu
    refine ⟨fun v hv => ?_, fun hbusy v hv => hidle hbusy v (List.mem_cons_of_mem _ hv)⟩
    dsimp only at hv
    split at hv
    · rename_i hneeded
      obtain rfl := Option.mem_some.mp hv
      obtain ⟨r, -, hneeds⟩ := (Option.any_eq_true _ _).mp hneeded
      unfold Work.needsTool at hneeds
      cases hbusy : work.busy with
      | false => exact hidle hbusy id List.mem_cons_self
      | true =>
        intro guest hguest hin
        have hdone := hqemu hbusy id rfl guest hguest hin
        simp [hbusy, hdone] at hneeds
    · cases hv

theorem Inv.start {vm : VmId} {volumes : List VolumeId} (h : w.Inv) (hquiet : w.Quiet volumes) :
    Inv { w with live := (vm, volumes) :: w.live } := by
  intro work hwork
  obtain ⟨htool, hidle⟩ := h work hwork
  refine ⟨fun id hid guest hguest => ?_, fun hbusy id hid guest hguest => ?_⟩
  · rcases List.mem_cons.mp hguest with rfl | hguest
    · exact fun hin => (hquiet work hwork id hin).1 hid
    · exact htool id hid guest hguest
  · rcases List.mem_cons.mp hguest with rfl | hguest
    · exact fun hin => (hquiet work hwork id hin).2 hbusy hid
    · exact hidle hbusy id hid guest hguest

theorem Inv.step {a : ImageAction} {w' : Images} (h : w.Inv) (hok : w.Careful a)
    (hstep : w.step a = some w') : w'.Inv := by
  cases a with
  | begin op =>
    cases haccept : w.accept op with
    | error text =>
      simp only [Images.step, haccept] at hstep
      cases hstep
      exact h
    | ok work =>
      simp only [Images.step, haccept] at hstep
      cases hstep
      exact h.begin haccept (hok work (by rw [haccept]; rfl))
  | turn i byQemu =>
    simp only [Images.step] at hstep
    split at hstep
    · rename_i work hi
      split at hstep
      · cases hstep
        exact h.turn hi (hok work hi)
      · cases hstep
    · cases hstep
  | toolEnds i =>
    obtain ⟨work, hi, rfl⟩ := Option.map_eq_some_iff.mp hstep
    exact h.set ⟨by simp, (h work (List.mem_of_getElem? hi)).2⟩
  | finish i =>
    simp only [Images.step, Option.ite_none_right_eq_some, Option.some.injEq] at hstep
    obtain ⟨-, rfl⟩ := hstep
    exact fun work hwork => h work (List.mem_of_mem_eraseIdx hwork)
  | start vm =>
    have hstart := toOption_some (x := w.start vm) hstep
    obtain ⟨-, -, hstart⟩ := bind_ok hstart
    obtain ⟨record, hrecord, hstart⟩ := bind_ok hstart
    obtain ⟨-, -, hstart⟩ := bind_ok hstart
    cases hstart
    refine h.start (hok record ?_)
    unfold Images.vm at hrecord
    split at hrecord
    · rename_i hget
      cases hrecord
      exact hget
    · cases hrecord
  | startElsewhere vm volumes =>
    cases hstep
    exact h.start hok
  | exit vm =>
    cases hstep
    have hfewer : ∀ id, w.Free id →
        Free { w with live := w.live.filter (fun guest => guest.1 != vm) } id :=
      fun id hfree guest hguest => hfree guest (List.mem_filter.mp hguest).1
    intro work hwork
    obtain ⟨htool, hidle⟩ := h work hwork
    exact ⟨fun id hid => hfewer id (htool id hid),
      fun hbusy id hid => hfewer id (hidle hbusy id hid)⟩
  | record vm =>
    cases hstep
    exact h

/-- While an offline tool runs, no running guest has its volume attached. -/
theorem tools_apart {w' : Images} {as : List ImageAction} (hstart : w.works = [])
    (hrun : Run (Guarded Careful (Steps Images.step)) w as w') :
    ∀ work ∈ w'.works, ∀ id ∈ work.tool, ∀ guest ∈ w'.live, id ∉ guest.2 := by
  have hinv : w'.Inv := by
    refine hrun.invariant (I := Inv) (fun _ _ _ hi hs => hi.step hs.1 hs.2) ?_
    intro work hwork
    rw [hstart] at hwork
    cases hwork
  exact fun work hwork => (hinv work hwork).1

instance (vm : VmId) (id : VolumeId) (op : ImageOp) : Decidable (w.Sees vm id op) := by
  unfold Sees
  split <;> infer_instance

instance (volumes : List VolumeId) : Decidable (w.Quiet volumes) := by
  unfold Quiet
  infer_instance

instance (w : Images) (a : ImageAction) : Decidable (w.Careful a) := by
  unfold Careful
  split <;> infer_instance

/-- A stopped guest with a disk that has a snapshot inside. -/
def shelf : Images where
  now := 0
  node :=
    ((Node.fresh 1).upsertVm
      { id := .numeric 100, state := .stopped
        spec := { name := "db", disks := [{ path := .disk 7 .qcow2, volumeId := some 7 }] } })
      |>.putRecord
        { id := 7, name := "data", format := .qcow2, sizeBytes := 8, path := .disk 7 .qcow2
          snapshots := [{ name := "before", createdUnix := 0 }] }
  live := []
  works := []

/-- The guest of the disk, running as its record says. -/
def running : VmRecord :=
  { id := .numeric 100, state := .running
    spec := { name := "db", disks := [{ path := .disk 7 .qcow2, volumeId := some 7 }] } }

/-- The guest runs, a resize is refused, QEMU deletes a snapshot, and the volume is resized after
the guest has exited. -/
def inTurn : List ImageAction :=
  [.start (.numeric 100), .record running, .begin (.resize 7),
    .begin (.deleteVmSnapshot (.numeric 100) "before"), .turn 0 true, .finish 0,
    .exit (.numeric 100), .record running.stopped, .begin (.resize 7), .turn 0 false]

theorem tools_apart_shelf :
    let w := exec Images.step shelf inTurn
    ∀ work ∈ w.works, ∀ id ∈ work.tool, ∀ guest ∈ w.live, id ∉ guest.2 :=
  tools_apart rfl (.of_exec_guarded (by decide +kernel))

/-- A run that ends with a tool on the image of a running guest. -/
theorem live_image {as : List ImageAction} (hrun : (as.foldlM Images.step shelf).isSome)
    (hopen : ∃ work ∈ (exec Images.step shelf as).works, ∃ id ∈ work.tool,
      ∃ guest ∈ (exec Images.step shelf as).live, id ∈ guest.2) :
    ¬ ∀ w w' : Images, w.works = [] → Run (Steps Images.step) w as w' →
      ∀ work ∈ w'.works, ∀ id ∈ work.tool, ∀ guest ∈ w'.live, id ∉ guest.2 := by
  intro h
  obtain ⟨work, hwork, id, hid, guest, hguest, hin⟩ := hopen
  exact h shelf _ rfl (.of_exec hrun) work hwork id hid guest hguest hin

/-- A guest starts between the check and the tool. -/
def startedBetween : List ImageAction :=
  [.begin (.resize 7), .start (.numeric 100), .turn 0 false]

/-- QEMU fails to delete a snapshot inside the image that it has open. -/
def qemuFailed : List ImageAction :=
  [.start (.numeric 100), .record running, .begin (.deleteVmSnapshot (.numeric 100) "before"),
    .turn 0 false]

theorem tool_on_live_image :
    (¬ ∀ w w' : Images, w.works = [] → Run (Steps Images.step) w startedBetween w' →
      ∀ work ∈ w'.works, ∀ id ∈ work.tool, ∀ guest ∈ w'.live, id ∉ guest.2) ∧
    ¬ ∀ w w' : Images, w.works = [] → Run (Steps Images.step) w qemuFailed w' →
      ∀ work ∈ w'.works, ∀ id ∈ work.tool, ∀ guest ∈ w'.live, id ∉ guest.2 :=
  ⟨live_image (by decide +kernel) (by decide +kernel),
    live_image (by decide +kernel) (by decide +kernel)⟩

end Images

end Volume

end Pertisk
