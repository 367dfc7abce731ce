import Pertisk.Vmm.Qemu

namespace Pertisk.Vmm.QemuDriver

variable {e : Reaction} {d : QemuDriver} {record : VmRecord} {command : String} {timeout : Nat}

theorem destroy_proc (pid : Nat) :
    (d.destroy e record).1.proc pid = (d.stop e record).1.proc pid := rfl

theorem destroy_gone_iff : (d.destroy e record).1.Gone record.id ↔
    (d.stop e record).1.Gone record.id := Iff.rfl

/-- The signals of a call: SIGKILL to the driver's child when it had its time, or SIGTERM to the
pid of the record at once. -/
theorem halt_sent {x : Sent} (h : x ∈ (d.halt e record command timeout).2.1) :
    (∃ child, d.children record.id = some child ∧ x = ⟨.kill, child, d.proc child, true⟩) ∨
      d.children record.id = none ∧ ∃ pid, record.pid = some pid ∧ 0 < pid ∧
        x = ⟨.term, pid, (d.qmpExecute e record command).proc pid, false⟩ := by
  unfold halt waitOrKill at h
  have hchildren : (d.qmpExecute e record command).children = d.children := rfl
  rw [hchildren] at h
  cases hchild : d.children record.id with
  | some child =>
    left
    refine ⟨child, rfl, ?_⟩
    simp only [hchild] at h
    cases hwait : e.wait with
    | some err => cases err <;> simp [hwait] at h
    | none =>
      simp only [hwait] at h
      split at h
      · cases h
      · rename_i halive
        have hthere : (d.qmpExecute e record command).proc child = d.proc child := by
          cases hp : (d.qmpExecute e record command).proc child with
          | none => simp [hp] at halive
          | some p =>
            have hsame : (if d.told e record command child then none else d.proc child) = some p :=
              hp
            split at hsame
            · cases hsame
            · exact hsame.symm
        cases hkill : e.kill with
        | none =>
          simp only [hkill, List.mem_singleton] at h
          rw [h, hthere]
        | some err => cases err <;> simp [hkill] at h
  | none =>
    right
    simp only [hchild] at h
    cases hpid : record.pid.filter (0 < ·) with
    | none => simp [hpid] at h
    | some pid =>
      obtain ⟨hrecord, hpos⟩ := (filter_pid record.pid).mp hpid
      simp only [hpid, List.mem_singleton] at h
      exact ⟨rfl, pid, hrecord, hpos, h⟩

/-- And without a child SIGTERM is sent. -/
theorem halt_term (hchild : d.children record.id = none) {pid : Nat}
    (hrecord : record.pid = some pid) (hpos : 0 < pid) :
    (d.halt e record command timeout).2.1 =
      [⟨.term, pid, (d.qmpExecute e record command).proc pid, false⟩] := by
  unfold halt waitOrKill
  have hchildren : (d.qmpExecute e record command).children = d.children := rfl
  simp [hchildren, hchild, (filter_pid record.pid).mpr ⟨hrecord, hpos⟩]

/-- Every signal goes to the guest's own process, or to nobody. -/
def Aimed (id : VmId) (sent : List Sent) : Prop :=
  ∀ x ∈ sent, ∀ p, x.target = some p → p.guest = some id

/-- The driver has the guest as its child, or the record's pid is that of a process of the guest,
of none, or of one that ends when it is told over the record's socket. -/
def OwnPid (e : Reaction) (d : QemuDriver) (record : VmRecord) (command : String) : Prop :=
  (d.children record.id).isSome ∨ ∀ pid, record.pid = some pid → 0 < pid →
    ∀ p, d.proc pid = some p → p.guest = some record.id ∨ d.told e record command pid = true

theorem halt_aimed_iff :
    Aimed record.id (d.halt e record command timeout).2.1 ↔ OwnPid e d record command := by
  constructor
  · intro haimed
    cases hchild : d.children record.id with
    | some child => exact .inl (by simp [hchild])
    | none =>
      right
      intro pid hrecord hpos p hp
      cases ht : d.told e record command pid with
      | true => exact .inr rfl
      | false =>
        left
        refine haimed _ (by rw [halt_term hchild hrecord hpos]; exact List.mem_singleton_self _)
          p ?_
        simp [qmpExecute, without_proc, ht, hp]
  · intro hown x hx p hp
    rcases halt_sent hx with ⟨child, hchild, rfl⟩ | ⟨hnone, pid, hrecord, hpos, rfl⟩
    · exact d.own record.id child p hchild hp
    · rcases hown with hsome | hpid
      · rw [hnone] at hsome
        cases hsome
      · have hsame : (if d.told e record command pid then none else d.proc pid) = some p := hp
        split at hsame
        · cases hsame
        · rename_i hno
          exact (hpid pid hrecord hpos p hsame).resolve_right hno

/-- A process that neither listens nor ends by itself, and takes a while over a SIGTERM. -/
def stubborn : Reaction where
  obeys _ _ := false
  exits _ := false
  wait := none
  kill := none
  terms _ := false

/-- A record of guest 100 with pid 4242. -/
def recordOf4242 : VmRecord where
  id := .numeric 100
  spec := { name := "vm" }
  state := .running
  pid := some 4242
  apiSocket := some (.text "/run/pertisk/100.qmp.sock")

/-- Process 4242, the child of the driver or of one before a restart of the daemon. -/
def withProcess (guest : Option VmId) (child : Bool) (h : child = true → guest = some (.numeric 100)) :
    QemuDriver where
  runDir := "/run/pertisk"
  children id := if child ∧ id = .numeric 100 then some 4242 else none
  proc pid := if pid = 4242 then some ⟨guest, some (.text "/run/pertisk/100.qmp.sock")⟩ else none
  files path := path = .text "/run/pertisk/100.qmp.sock"
  own id pid p hchild hp := by
    split at hchild
    · rename_i hcond
      split at hp
      · cases hp
        rw [hcond.2]
        exact h hcond.1
      · cases hp
    · cases hchild

/-- Signals of stop, shutdown and destroy reach only processes of the guest exactly when the
driver has it as its child, or the record's pid does not name another process. -/
theorem signals_aimed_iff (e : Reaction) (d : QemuDriver) (record : VmRecord) :
    (Aimed record.id (d.stop e record).2.1 ↔ OwnPid e d record "quit") ∧
      (Aimed record.id (d.shutdown e record).2.1 ↔ OwnPid e d record "system_powerdown") ∧
      (Aimed record.id (d.destroy e record).2.1 ↔ OwnPid e d record "quit") :=
  ⟨halt_aimed_iff, halt_aimed_iff, halt_aimed_iff⟩

/-- A record of another node: here its pid is that of some other process. -/
theorem signals_another_process :
    ¬ ∀ (e : Reaction) (d : QemuDriver) (record : VmRecord),
      Aimed record.id (d.stop e record).2.1 ∧ Aimed record.id (d.shutdown e record).2.1 ∧
        Aimed record.id (d.destroy e record).2.1 := by
  intro h
  have haimed := (h stubborn (withProcess none false (by decide)) recordOf4242).2.2
  have hsent : ((withProcess none false (by decide)).destroy stubborn recordOf4242).2.1 =
      [⟨.term, 4242, some ⟨none, some (.text "/run/pertisk/100.qmp.sock")⟩, false⟩] := rfl
  have hguest := haimed _ (by rw [hsent]; exact List.mem_singleton_self _) _ rfl
  cases hguest

theorem halt_late_iff :
    (∀ x ∈ (d.halt e record command timeout).2.1, x.late = true) ↔
      (d.children record.id).isSome ∨ ∀ pid, record.pid = some pid → pid = 0 := by
  constructor
  · intro hlate
    cases hchild : d.children record.id with
    | some child => exact .inl rfl
    | none =>
      right
      intro pid hrecord
      by_contra hne
      have hfalse := hlate _ (by
        rw [halt_term hchild hrecord (Nat.pos_of_ne_zero hne)]
        exact List.mem_singleton_self _)
      cases hfalse
  · intro hown x hx
    rcases halt_sent hx with ⟨child, -, rfl⟩ | ⟨hnone, pid, hrecord, hpos, -⟩
    · rfl
    · rcases hown with hsome | hzero
      · rw [hnone] at hsome
        cases hsome
      · have := hzero pid hrecord
        omega

/-- When stop, shutdown or destroy returns no process of the guest is alive exactly when each that
was alive is one that the call ends; and a guest that is shut down has its whole timeout exactly
when the driver has it as its child, or no pid to signal. -/
theorem stopped_is_gone_iff (e : Reaction) (d : QemuDriver) (record : VmRecord) :
    ((d.stop e record).2.2 = .ok () → ((d.stop e record).1.Gone record.id ↔
      ∀ pid p, d.proc pid = some p → p.guest = some record.id →
        d.ends e record "quit" 3 pid = true)) ∧
    ((d.shutdown e record).2.2 = .ok () → ((d.shutdown e record).1.Gone record.id ↔
      ∀ pid p, d.proc pid = some p → p.guest = some record.id →
        d.ends e record "system_powerdown" 120 pid = true)) ∧
    ((d.destroy e record).1.Gone record.id ↔
      ∀ pid p, d.proc pid = some p → p.guest = some record.id →
        d.ends e record "quit" 3 pid = true) ∧
    ((∀ x ∈ (d.shutdown e record).2.1, x.late = true) ↔
      (d.children record.id).isSome ∨ ∀ pid, record.pid = some pid → pid = 0) :=
  ⟨fun _ => halt_gone_iff, fun _ => halt_gone_iff, destroy_gone_iff.trans halt_gone_iff,
    halt_late_iff⟩

/-- A child that does nothing is killed. -/
theorem stopped_is_gone_child :
    ((withProcess (some (.numeric 100)) true (fun _ => rfl)).stop stubborn recordOf4242).1.Gone
      (.numeric 100) := by
  refine ((stopped_is_gone_iff stubborn _ recordOf4242).1 rfl).mpr (fun pid p hp _ => ?_)
  have hpid : pid = 4242 := by
    by_contra hne
    simp [withProcess, hne] at hp
  subst hpid
  rfl

/-- A guest that was started before a restart of the daemon: stop returns while it is alive, and
shutdown sends SIGTERM at once. -/
theorem stopped_is_alive :
    ¬ ∀ (e : Reaction) (d : QemuDriver) (record : VmRecord),
      ((d.stop e record).2.2 = .ok () → (d.stop e record).1.Gone record.id) ∧
      ((d.shutdown e record).2.2 = .ok () → (d.shutdown e record).1.Gone record.id) ∧
      (d.destroy e record).1.Gone record.id ∧
      ∀ x ∈ (d.shutdown e record).2.1, x.late = true := by
  intro h
  have hall := h stubborn (withProcess (some (.numeric 100)) false (by decide)) recordOf4242
  exact hall.1 rfl 4242 ⟨some (.numeric 100), some (.text "/run/pertisk/100.qmp.sock")⟩ rfl rfl

end Pertisk.Vmm.QemuDriver

namespace Pertisk.Vmm

inductive VmmError
  | notFound (id : VmId)
  | io (err : IoError)

def IoError.text : IoError → String
  | notFound => "No such file or directory"
  | other text => text

def VmmError.text : VmmError → String
  | notFound id => s!"vm not found: {id.text}"
  | io err => s!"io error: {err.text}"

/-- The driver of a node, with the guests' processes there. The mock driver has no processes but a
table of guests, which stand as its children. -/
structure Host where
  kind : DriverKind
  driver : QemuDriver

/-- Cloud Hypervisor's driver takes no error of the wait or of the kill for an ended process. -/
def Reaction.strict (e : Reaction) : Reaction :=
  let taken : IoError → IoError := fun err => .other err.text
  { e with wait := e.wait.map taken, kill := e.kill.map taken }

namespace QemuDriver

variable (e : Reaction) (d : QemuDriver) (record : VmRecord)

/-- `destroy` of Cloud Hypervisor's driver: an error leaves the sockets. -/
def destroyCloudHypervisor : QemuDriver × Except VmmError Unit :=
  match d.halt e.strict record "vmm.shutdown" 3 with
  | (d, _, .error err) => (d, .error (.io err))
  | (d, _, .ok ()) =>
    (d.removeFiles ([record.apiSocket, record.consoleSocket, record.graphicsSocket].filterMap id),
      .ok ())

def destroyMock : QemuDriver × Except VmmError Unit :=
  match d.children record.id with
  | none => (d, .error (.notFound record.id))
  | some pid => ((d.dropChild record.id).without (· == pid), .ok ())

end QemuDriver

namespace Host

variable (e : Reaction) (h : Host) (record : VmRecord)

def destroy : Host × Except VmmError Unit :=
  match h.kind with
  | .mock => ({ h with driver := (h.driver.destroyMock record).1 }, (h.driver.destroyMock record).2)
  | .cloudHypervisor =>
    ({ h with driver := (h.driver.destroyCloudHypervisor e record).1 },
      (h.driver.destroyCloudHypervisor e record).2)
  | .qemu => ({ h with driver := (h.driver.destroy e record).1 }, .ok ())

/-- No process of the guest is alive. -/
def Gone (id : VmId) : Prop := h.driver.Gone id

/-- What of the guest's processes `destroy` ends. -/
def ends (pid : Nat) : Bool :=
  match h.kind with
  | .mock => h.driver.children record.id == some pid
  | .cloudHypervisor => h.driver.ends e.strict record "vmm.shutdown" 3 pid
  | .qemu => h.driver.ends e record "quit" 3 pid

variable {e h record}

theorem destroyMock_gone_iff {d : QemuDriver} :
    (d.destroyMock record).1.Gone record.id ↔ ∀ pid p, d.proc pid = some p →
      p.guest = some record.id → (d.children record.id == some pid) = true := by
  unfold QemuDriver.destroyMock
  cases hchild : d.children record.id with
  | none =>
    constructor
    · intro hgone pid p hp hguest
      exact absurd hguest (hgone pid p hp)
    · intro hends pid p hp hguest
      cases hends pid p hp hguest
  | some child =>
    dsimp only
    have hproc : ∀ pid, ((d.dropChild record.id).without (· == child)).proc pid =
        if pid == child then none else d.proc pid := fun pid => rfl
    constructor
    · intro hgone pid p hp hguest
      by_contra hne
      have hother : (pid == child) = false := by
        rw [beq_eq_false_iff_ne]
        rintro rfl
        exact hne (beq_self_eq_true _)
      refine hgone pid p ?_ hguest
      rw [hproc, hother]
      exact hp
    · intro hends pid p hp hguest
      rw [hproc] at hp
      split at hp
      · cases hp
      · rename_i hne
        have hchild := beq_iff_eq.mp (hends pid p hp hguest)
        cases hchild
        exact hne (beq_self_eq_true _)

theorem destroyCloudHypervisor_gone_iff {d : QemuDriver} :
    (d.destroyCloudHypervisor e record).1.Gone record.id ↔ ∀ pid p, d.proc pid = some p →
      p.guest = some record.id → d.ends e.strict record "vmm.shutdown" 3 pid = true := by
  refine Iff.trans ?_ QemuDriver.halt_gone_iff
  unfold QemuDriver.destroyCloudHypervisor
  rcases d.halt e.strict record "vmm.shutdown" 3 with ⟨d', sent, (err | ⟨⟩)⟩ <;> exact Iff.rfl

/-- After `destroy`, however it ends, no process of the guest is alive exactly when each that was
alive is one that it ends. -/
theorem destroy_gone_iff : (h.destroy e record).1.Gone record.id ↔
    ∀ pid p, h.driver.proc pid = some p → p.guest = some record.id →
      h.ends e record pid = true := by
  unfold destroy ends Gone
  cases hkind : h.kind with
  | mock => exact destroyMock_gone_iff
  | cloudHypervisor => exact destroyCloudHypervisor_gone_iff
  | qemu => exact QemuDriver.destroy_gone_iff.trans QemuDriver.halt_gone_iff

end Host

end Pertisk.Vmm
