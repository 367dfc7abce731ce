import Pertisk.Lib.Run
import Pertisk.Service.Owners

namespace Pertisk.Service
open Lib Op Volume Storage

variable {env : Env} {J : Vms → Prop} {K : Vms → NodeId → Prop} {vms : Vms} {vm r : VmRecord}
  {id : VmId} {volumes : List VolumeId} {b : Noted Book.generation} {α : Type}

theorem localizeDisks_volumes {disks disks' : List DiskSpec} {b' : Noted Book.generation}
    (h : localizeDisks env disks b = (.ok disks', b')) :
    disks'.map DiskSpec.volumeId = disks.map DiskSpec.volumeId := by
  induction disks generalizing disks' b b' with
  | nil =>
    cases h
    rfl
  | cons disk rest ih =>
    obtain ⟨n, _, -, h⟩ := Proc.bind_ok h
    obtain ⟨o, _, -, h⟩ := Proc.bind_ok h
    obtain ⟨others, m, hothers, h⟩ := Proc.bind_ok h
    cases h
    rw [List.map_cons, List.map_cons, ih hothers]

/-- An ISO is no volume. -/
theorem restoreCloneCidata_volumes {b' : Noted Book.generation}
    (h : restoreCloneCidata env vm b = (.ok r, b')) : r.id = vm.id ∧ volumeIds r = volumeIds vm := by
  have hiso (iso : IsoRecord) : volumeIds (withDisk vm (isoDisk iso)) = volumeIds vm := by
    rw [volumeIds_withDisk]
    exact List.append_nil _
  unfold restoreCloneCidata at h
  split at h
  · cases h
    exact ⟨rfl, rfl⟩
  · obtain ⟨o, m, -, h⟩ := Proc.bind_ok h
    cases hfound : o.iso with
    | none =>
      simp only [hfound] at h
      cases h
      exact ⟨rfl, rfl⟩
    | some iso =>
      simp only [hfound] at h
      split at h
      · cases h
        exact ⟨rfl, hiso iso⟩
      · cases h
        exact ⟨rfl, hiso iso⟩

theorem holds_prepare (h : Of id volumes vm) :
    Proc.Upholds (OnStore (Holds id volumes)) (prepare env vm) := by
  refine (aside_localizeDisks vm.spec.disks).bind_of (fun _ _ _ _ => localizeDisks_volumes)
    (fun disks hdisks => ?_)
  have hids := volumeIds_of_map hdisks
  refine (aside_restoreCloneCidata _).bind_of (fun _ _ _ _ => restoreCloneCidata_volumes)
    (fun r hr => ?_)
  exact holds_upsertVm_pure ⟨hr.1.trans h.1, hr.2.trans (hids.trans h.2)⟩

theorem prepare_of {r : VmRecord} {b' : Noted Book.generation} (h : Of id volumes vm)
    (hrun : prepare env vm b = (.ok r, b')) : Of id volumes r := by
  obtain ⟨disks, _, hdisks, hrun⟩ := Proc.bind_ok hrun
  obtain ⟨r', _, hr', hrun⟩ := Proc.bind_ok hrun
  obtain ⟨_, _, -, hrun⟩ := Proc.bind_ok hrun
  cases hrun
  obtain ⟨hid, hids⟩ := restoreCloneCidata_volumes hr'
  refine ⟨hid.trans h.1, hids.trans (Eq.trans ?_ h.2)⟩
  exact volumeIds_of_map (localizeDisks_volumes hdisks)

theorem holds_createProcess (h : Of id volumes r) :
    Proc.Upholds (OnStore (Holds id volumes)) (createProcess env r) := by
  refine aside_ask.bind (fun o => ?_)
  split
  · rename_i created _
    exact holds_upsertVm_pure h
  · refine Proc.Upholds.bind (holds_upsertVm ?_) (fun _ => .check _)
    exact h

theorem createProcess_of {r' : VmRecord} {b' : Noted Book.generation} (h : Of id volumes r)
    (hrun : createProcess env r b = (.ok r', b')) : Of id volumes r' := by
  obtain ⟨o, m, -, hrun⟩ := Proc.bind_ok hrun
  cases hcreated : o.created with
  | ok created =>
    simp only [hcreated] at hrun
    obtain ⟨_, _, -, hrun⟩ := Proc.bind_ok hrun
    cases hrun
    exact h
  | error text =>
    simp only [hcreated] at hrun
    obtain ⟨_, _, -, hrun⟩ := Proc.bind_ok hrun
    cases hrun

theorem holds_launch (h : Of id volumes r) :
    Proc.Upholds (OnStore (Holds id volumes)) (launch env r) := by
  refine Proc.Upholds.bind ?_ (fun _ => (aside_run _).bind (fun _ => ?_))
  · refine aside_ask.bind (fun o => aside_node.bind (fun n => ?_))
    exact Proc.Upholds.bind (.check _) (fun _ => .check _)
  · refine Proc.Upholds.bind (.each (fun _ _ => aside_run _)) (fun _ => Proc.Upholds.bind ?_
      (fun recreate => ?_))
    · exact aside_ask.bind (fun o => aside_ask.bind (fun socket => .pure _))
    · refine Proc.Upholds.bind_of (q := Of id volumes) ?_ ?_ (fun r' hr' => aside_ask.bind (fun o =>
        aside_node.bind (fun n => ?_)))
      · split
        · exact holds_createProcess h
        · exact .pure _
      · intro b a b' _ hrun
        split at hrun
        · exact createProcess_of h hrun
        · cases hrun
          exact h
      · split
        · refine Proc.Upholds.bind (holds_upsertVm ?_) (fun _ => aside_bump_pure _)
          exact hr'
        · refine Proc.Upholds.bind (holds_upsertVm ?_) (fun _ => .check _)
          exact hr'

theorem holds_startLocal (id : VmId) :
    Proc.Upholds (OnStore (Holds id volumes)) (startLocal env id) := by
  refine holds_getVm_bind (fun r hid hr => (aside_demand _ _).bind (fun _ => ?_))
  refine (holds_prepare ⟨hid, hr⟩).bind (fun r => (aside_demand _ _).bind (fun _ => ?_))
  refine holds_getVm_bind (fun r hid hr => ?_)
  refine (holds_prepare ⟨hid, hr⟩).bind_of (fun b a b' _ hrun => prepare_of ⟨hid, hr⟩ hrun)
    (fun r hr => ?_)
  split
  · exact .pure _
  · exact holds_launch hr

/-- A peer that is asked to run the guest answers with its record of it. -/
def Echoes (env : Env) (id : VmId) (volumes : List VolumeId) : Prop :=
  ∀ k r, (env.answers k).peerVm = .ok r → Of id volumes r

/-- The node has its id, and the guest its volumes. -/
abbrev HoldsAt (me : NodeId) (id : VmId) (volumes : List VolumeId) : Book → Prop :=
  OnNode (fun vms self => Holds id volumes vms ∧ self = me)

theorem holdsAt_upsertVm {me : NodeId} (hr : Of id volumes r) :
    Proc.Upholds (HoldsAt me id volumes) (upsertVm r) :=
  .alter (fun _ h => ⟨Holds.insert h.1 hr.1 hr.2, h.2⟩)

theorem holds_node_bind {f : Node → Op α} (h : ∀ n,
      Proc.Leads (HoldsAt n.cluster.selfId id volumes) (OnStore (Holds id volumes)) (f n)) :
    Proc.Upholds (OnStore (Holds id volumes)) (node >>= f) :=
  fun b hb => h b.state.node b ⟨hb, rfl⟩

theorem peerRun_away {dest me : NodeId} (hdest : dest ≠ me) (hb : b.state.node.cluster.selfId = me)
    (vm : VmRecord) : peerRun env dest vm b = peerVm env (fun text => text) b := by
  subst hb
  exact congrFun (if_neg hdest) b

theorem peerVm_of {word : String → String} {b' : Noted Book.generation}
    (hpeer : Echoes env id volumes) (h : peerVm env word b = (.ok r, b')) : Of id volumes r := by
  obtain ⟨o, m, hask, h⟩ := Proc.bind_ok h
  obtain ⟨hanswer, -⟩ := check_ok h
  have ho : o = env.answers b.state.asked := ask_ok hask
  cases hvm : o.peerVm with
  | error text =>
    rw [hvm] at hanswer
    cases hanswer
  | ok found =>
    rw [hvm] at hanswer
    cases hanswer
    exact hpeer _ _ (ho ▸ hvm)

/-- The other node's answer is put down as it comes. -/
theorem holds_startThere {dest me : NodeId} (hpeer : Echoes env id volumes) (hdest : dest ≠ me)
    (vm : VmRecord) :
    Proc.Leads (HoldsAt me id volumes) (OnStore (Holds id volumes))
      (peerRun env dest vm >>= fun started => upsertVm started >>= fun _ => bump >>= fun _ =>
        (pure started : Op VmRecord)) := by
  intro b hb
  have haside : Proc.Upholds (OnStore (Holds id volumes)) (peerVm env (fun text => text)) :=
    aside_ask.bind (fun o => .check _)
  have hrest := haside.bind_of (f := fun started => upsertVm started >>= fun _ => bump >>= fun _ =>
    (pure started : Op VmRecord)) (fun _ _ _ _ h => peerVm_of hpeer h)
    (fun started hstarted => (holds_upsertVm hstarted).bind (fun _ => aside_bump_pure _)) b hb.1
  rw [Proc.bind_run] at hrest ⊢
  rw [peerRun_away hdest hb.2]
  exact hrest

theorem holds_start (hpeer : Echoes env id volumes) :
    Proc.Upholds (OnStore (Holds id volumes)) (start env id) := by
  refine aside_requireQuorum.bind (fun _ => holds_getVm_bind (fun r hid hr => ?_))
  refine (aside_demand _ _).bind (fun _ => ?_)
  split
  · exact .pure _
  · refine aside_ask.bind (fun o => holds_node_bind (fun n => ?_))
    refine Proc.Upholds.leads_bind (.check _) (fun _ h => h.1) (fun dest => ?_)
    refine Proc.Upholds.leads_bind (aside_onlyIf (holdsAt_upsertVm ⟨hid, hr⟩)) (fun _ h => h.1) (fun _ => ?_)
    dsimp only
    split
    · exact fun b hb => holds_startLocal id b hb.1
    · rename_i hdest
      exact (aside_ensureVolumesOnNode _ dest).leads_bind (fun _ h => h.1)
        (fun _ => holds_startThere hpeer hdest _)

theorem holds_get (id : VmId) : Proc.Upholds (OnStore (Holds id volumes)) (get env id) := by
  refine holds_getVm_bind (fun r hid hr => aside_ask.bind (fun o => ?_))
  split
  · exact .pure _
  · refine Proc.Upholds.bind (.attempt ?_) (fun latest => ?_)
    · exact holds_getVm_bind (fun r hid hr => holds_upsertVm_pure ⟨hid, hr⟩)
    · split <;> exact .pure _

theorem gives_getVm_bind {f : VmRecord → Op α} {q : α → Prop}
    (h : ∀ vm, Of id volumes vm → Proc.Gives (OnStore (Holds id volumes)) q (f vm)) :
    Proc.Gives (OnStore (Holds id volumes)) q (getVm id >>= f) := by
  refine .bind_of (aside_getVm id) (fun b vm b' hb hrun => ?_) h
  obtain ⟨-, hget⟩ := getVm_ok hrun
  exact ⟨Table.key_of_get hget, Holds.get hb hget⟩

theorem gives_upsertVm_pure (hr : Of id volumes r) :
    Proc.Gives (OnStore (Holds id volumes)) (Of id volumes) (upsertVm r >>= fun _ => pure r) :=
  (holds_upsertVm hr).gives_bind (fun _ => .pure hr)

theorem gives_get (id : VmId) :
    Proc.Gives (OnStore (Holds id volumes)) (Of id volumes) (get env id) := by
  refine gives_getVm_bind (fun vm hvm => aside_ask.gives_bind (fun o => ?_))
  split
  · exact .pure hvm
  · refine .bind_of (q := fun latest => ∀ r, latest = .ok r → Of id volumes r) ?_ (.attempt ?_)
      (fun latest hlatest => ?_)
    · exact Proc.Upholds.attempt
        (holds_getVm_bind (fun r hid hr => holds_upsertVm_pure ⟨hid, hr⟩))
    · exact gives_getVm_bind (fun r hr => gives_upsertVm_pure ⟨hr.1, hr.2⟩)
    · split
      · exact .pure (hlatest _ rfl)
      · exact .pure hvm

theorem holds_startClone (hpeer : Echoes env id volumes) :
    Proc.Upholds (OnStore (Holds id volumes)) (startClone env id) := by
  refine (holds_start hpeer).attempt.bind (fun started => ?_)
  split
  · exact .pure _
  · split
    · refine (holds_get id).bind_of (gives_get id) (fun r hr => ?_)
      refine Proc.Upholds.bind (holds_upsertVm ?_) (fun _ => .pure _)
      exact hr
    · exact .check _

/-- There is no such guest. -/
def Absent (id : VmId) (vms : Vms) : Prop := Exclusive vms ∧ vms.get id = none

theorem absent_getVm_bind {f : VmRecord → Op α} :
    Proc.Upholds (OnStore (Absent id)) (getVm id >>= f) := by
  intro b hb
  rw [Proc.bind_run, getVm_run, hb.2]
  exact hb

theorem absent_startClone (id : VmId) : Proc.Upholds (OnStore (Absent id)) (startClone env id) := by
  have hstart : Proc.Upholds (OnStore (Absent id)) (start env id) :=
    aside_requireQuorum.bind (fun _ => absent_getVm_bind)
  refine hstart.attempt.bind (fun started => ?_)
  split
  · exact .pure _
  · split
    · refine Proc.Upholds.bind_of (q := fun _ => False) absent_getVm_bind
        (fun b a b' hb hrun => ?_) (fun _ h => h.elim)
      obtain ⟨vm, m, hvm, -⟩ := Proc.bind_ok hrun
      obtain ⟨-, hget⟩ := getVm_ok hvm
      rw [hb.2] at hget
      cases hget
    · exact .check _

theorem absent_get (id : VmId) : Proc.Upholds (OnStore (Absent id)) (get env id) :=
  absent_getVm_bind

/-- Either there is a guest with its volumes, or there is none. -/
theorem exclusive_cases (id : VmId) {p : Op α} (hb : Exclusive b.state.node.store)
    (hholds : ∀ volumes, Holds id volumes b.state.node.store →
      Holds id volumes (p b).2.state.node.store)
    (habsent : Absent id b.state.node.store → Absent id (p b).2.state.node.store) :
    Exclusive (p b).2.state.node.store := by
  cases hget : b.state.node.store.get id with
  | none => exact (habsent ⟨hb, hget⟩).1
  | some vm => exact (hholds _ ⟨hb, vm, hget, rfl⟩).exclusive

/-- Peers that start a guest have it as it was sent to them. -/
def PeersEcho (env : Env) (b : Noted Book.generation) (id : VmId) (req : CloneVmRequest) : Prop :=
  ∀ created m, makeClone env id req b = (.ok created, m) → ∀ volumes,
    Holds created.id volumes m.state.node.store → Echoes env created.id volumes

theorem exclusive_cloneVm {req : CloneVmRequest} (hb : Exclusive b.state.node.store)
    (hpeers : PeersEcho env b id req) : Exclusive (cloneVm env id req b).2.state.node.store := by
  have hm : Exclusive (makeClone env id req b).2.state.node.store := exclusive_makeClone id req b hb
  unfold cloneVm
  rw [Proc.bind_run]
  rcases hrun : makeClone env id req b with ⟨r, m⟩
  rw [hrun] at hm
  cases r with
  | error e => exact hm
  | ok created =>
    show Exclusive ((if req.start then startClone env created.id else get env created.id) m).2.state.node.store
    split
    · exact exclusive_cases created.id hm
        (fun volumes hv => holds_startClone (hpeers created m hrun volumes hv) m hv)
        (fun ha => absent_startClone created.id m ha)
    · exact exclusive_cases created.id hm (fun volumes hv => holds_get created.id m hv)
        (fun ha => absent_get created.id m ha)

/-- The operations that give disks to guests and take them away. -/
inductive DiskOp
  | createGuest (requested : Option VmId) (spec : VmSpec)
  | attachDisk (vmId : VmId) (volumeId : VolumeId)
  | detachDisk (vmId : VmId) (volumeId : VolumeId)
  | cloneVm (id : VmId) (req : CloneVmRequest)
  | destroy (id : VmId)

/-- How the inventory is left, whether the operation succeeds or not. -/
def performed (env : Env) (b : Book) : DiskOp → Book
  | .createGuest requested spec => (createGuest env requested spec (.ofState b)).2.state
  | .attachDisk vmId volumeId => (attachDisk vmId volumeId (.ofState b)).2.state
  | .detachDisk vmId volumeId => (detachDisk vmId volumeId (.ofState b)).2.state
  | .cloneVm id req => (cloneVm env id req (.ofState b)).2.state
  | .destroy id => (destroy env id (.ofState b)).2.state

/-- One operation after the other, each with what it meets outside. -/
inductive Performs (b : Book) : Env × DiskOp → Book → Prop
  | plain (env : Env) (op : DiskOp) (h : ∀ id req, op ≠ .cloneVm id req) :
      Performs b (env, op) (performed env b op)
  | clone (env : Env) (id : VmId) (req : CloneVmRequest) (h : PeersEcho env (.ofState b) id req) :
      Performs b (env, .cloneVm id req) (performed env b (.cloneVm id req))

/-- A guest that is new comes with volumes that no other guest has. -/
def OwnDisks (b : Book) : Env × DiskOp → Prop
  | (_, .createGuest _ spec) => Untaken b.node.store (spec.disks.filterMap DiskSpec.volumeId)
  | _ => True

theorem performs_exclusive {b b' : Book} {a : Env × DiskOp} (hb : Exclusive b.node.store)
    (h : Guarded OwnDisks Performs b a b') : Exclusive b'.node.store := by
  obtain ⟨hown, hstep⟩ := h
  cases hstep with
  | clone env id req hpeers => exact exclusive_cloneVm hb hpeers
  | plain env op hop =>
    cases op with
    | createGuest requested spec => exact leads_createGuest requested spec (.ofState b) ⟨hb, hown⟩
    | attachDisk vmId volumeId => exact exclusive_attachDisk vmId volumeId (.ofState b) hb
    | detachDisk vmId volumeId => exact exclusive_detachDisk vmId volumeId (.ofState b) hb
    | cloneVm id req => exact absurd rfl (hop id req)
    | destroy id => exact exclusive_destroy id (.ofState b) hb

def dataGuest (name : String) : VmSpec :=
  { name := name, disks := [{ path := .disk 7 .raw, volumeId := some 7 }] }

def emptyBook : Book where
  node := Node.fresh 1

theorem emptyBook_exclusive : Exclusive emptyBook.node.store := Table.pairs_empty

def anyEnv : Env where
  answers _ := {}

def createsWeb : DiskOp := .createGuest none (dataGuest "web")

def createsMail : DiskOp := .createGuest none (dataGuest "mail")

def withWeb : Book := performed anyEnv emptyBook createsWeb

def withMail : Book := performed anyEnv withWeb createsMail

theorem creates_plain {requested : Option VmId} {spec : VmSpec} (id : VmId) (req : CloneVmRequest) :
    DiskOp.createGuest requested spec ≠ .cloneVm id req := by
  intro h
  cases h

theorem createsWeb_performs : Performs emptyBook (anyEnv, createsWeb) withWeb :=
  Performs.plain anyEnv createsWeb creates_plain

theorem createsMail_performs : Performs withWeb (anyEnv, createsMail) withMail :=
  Performs.plain anyEnv createsMail creates_plain

theorem createsWeb_own : OwnDisks emptyBook (anyEnv, createsWeb) := by
  intro vm hvm
  exact absurd hvm List.not_mem_nil

end Pertisk.Service
