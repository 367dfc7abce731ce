import Pertisk.Service.Clones

namespace Pertisk.Service
open Lib Op Volume Storage

/-- The guests of an inventory. -/
abbrev Vms := Table VmRecord VmRecord.id

/-- What is known of the store and of the node's own id, whatever becomes of the rest. -/
def OnNode (K : Vms → NodeId → Prop) (b : Book) : Prop := K b.node.store b.node.cluster.selfId

abbrev OnStore (J : Vms → Prop) : Book → Prop := OnNode (fun vms _ => J vms)

variable {env : Env} {J : Vms → Prop} {K : Vms → NodeId → Prop} {vms : Vms} {α : Type}

theorem onStore_of_eq {s : Book} (h : s.node.store = vms) (hJ : J vms) : OnStore J s := by
  subst h
  exact hJ

theorem aside_ask : Proc.Upholds (OnNode K) (ask env) := .look (fun _ h => h)

theorem aside_node : Proc.Upholds (OnNode K) node := .look (fun _ h => h)

theorem aside_demand (p : Prop) [Decidable p] (e : DaemonError) :
    Proc.Upholds (OnNode K) (demand p e) := .check _

theorem aside_getVm (id : VmId) : Proc.Upholds (OnNode K) (getVm id) := by
  refine aside_node.bind (fun n => ?_)
  split
  · exact .pure _
  · exact .check _

theorem aside_getVolume (id : VolumeId) : Proc.Upholds (OnNode K) (getVolume id) := by
  refine aside_node.bind (fun n => ?_)
  split
  · exact .pure _
  · exact .check _

theorem aside_run (word : String → String) : Proc.Upholds (OnNode K) (run env word) :=
  aside_ask.bind (fun _ => .check _)

theorem aside_requireQuorum : Proc.Upholds (OnNode K) (requireQuorum env) :=
  aside_ask.bind (fun _ => aside_node.bind (fun _ => .check _))

theorem aside_ignore {p : Op α} (h : Proc.Upholds (OnNode K) p) :
    Proc.Upholds (OnNode K) (ignore p) := h.attempt.bind (fun _ => .pure _)

theorem aside_onlyIf {c : Bool} {p : Op Unit} (h : Proc.Upholds (OnNode K) p) :
    Proc.Upholds (OnNode K) (onlyIf c p) := by
  unfold onlyIf
  split
  · exact h
  · exact .pure _

theorem aside_bump : Proc.Upholds (OnNode K) bump := .advance (fun _ h => h)

theorem aside_putRecord (record : VolumeRecord) : Proc.Upholds (OnNode K) (putRecord record) :=
  Proc.Upholds.bind (.alter (fun _ h => h)) (fun _ => .pure _)

theorem aside_removeVolume (id : VolumeId) : Proc.Upholds (OnNode K) (removeVolume id) :=
  .alter (fun _ h => h)

theorem aside_requireVolumeIdle (id : VolumeId) :
    Proc.Upholds (OnNode K) (requireVolumeIdle id) := aside_node.bind (fun _ => .check _)

theorem aside_edit (command : Bool) (e : Edit) (id : VolumeId) :
    Proc.Upholds (OnNode K) (edit env command e id) := by
  refine (aside_getVolume id).bind (fun record => Proc.Upholds.bind (.check _) (fun _ => ?_))
  refine aside_ask.bind (fun o => aside_node.bind (fun n => ?_))
  dsimp only
  split
  · exact .pure _
  · exact (aside_onlyIf (aside_run _)).bind (fun _ => aside_putRecord _)

theorem aside_requireCli (backend : StorageBackend) (what : String) :
    Proc.Upholds (OnNode K) (requireCli env backend what) :=
  aside_ask.bind (fun _ => aside_demand _ _)

theorem aside_requireStorageBytes (need : Nat) (what : String) :
    Proc.Upholds (OnNode K) (requireStorageBytes env need what) :=
  aside_ask.bind (fun _ => .check _)

theorem aside_ensureReplicas (record : VolumeRecord) :
    Proc.Upholds (OnNode K) (ensureReplicas env record) := by
  refine aside_node.bind (fun n => .each (fun replica _ => ?_))
  split
  · exact aside_ignore ((aside_onlyIf (aside_run _)).bind (fun _ => aside_putRecord _))
  · exact aside_ignore (aside_run _)

theorem aside_syncVolumeReplicas (record : VolumeRecord) :
    Proc.Upholds (OnNode K) (syncVolumeReplicas env record) :=
  aside_onlyIf (aside_ignore (aside_run _))

theorem aside_bump_pure (a : α) : Proc.Upholds (OnNode K) (bump >>= fun _ => (pure a : Op α)) :=
  aside_bump.bind (fun _ => .pure _)

theorem aside_deleteVolume (id : VolumeId) : Proc.Upholds (OnNode K) (deleteVolume env id) := by
  refine aside_node.bind (fun n => (aside_demand _ _).bind (fun _ => ?_))
  refine (aside_getVolume id).bind (fun record => Proc.Upholds.bind ?_ (fun _ => ?_))
  · exact .each (fun _ _ => aside_ignore (aside_run _))
  · refine (aside_onlyIf (aside_ignore (aside_run _))).bind (fun _ => ?_)
    exact (aside_removeVolume id).bind (fun _ => aside_bump)

theorem aside_resizeVolume (id : VolumeId) (sizeBytes : Nat) :
    Proc.Upholds (OnNode K) (resizeVolume env id sizeBytes) := by
  refine (aside_requireVolumeIdle id).bind (fun _ => (aside_getVolume id).bind (fun v => ?_))
  refine (aside_onlyIf ?_).bind (fun _ => (aside_edit _ _ id).bind (fun record => ?_))
  · exact (aside_requireCli _ _).bind (fun _ => aside_demand _ _)
  · exact (aside_syncVolumeReplicas record).bind (fun _ => aside_bump_pure record)

theorem aside_poolClone (source : VolumeRecord) (name : String) (linked : Bool) :
    Proc.Upholds (OnNode K) (poolClone env source name linked) := by
  refine (aside_demand _ _).bind (fun _ => aside_node.bind (fun n => ?_))
  refine (aside_demand _ _).bind (fun _ => aside_ask.bind (fun o => ?_))
  exact (aside_demand _ _).bind (fun _ => (aside_run _).bind (fun _ => aside_putRecord _))

theorem aside_cloneExternal (source : VolumeRecord) (name : String) (linked : Bool) :
    Proc.Upholds (OnNode K) (cloneExternal env source name linked) := by
  refine (aside_requireCli _ _).bind (fun _ => (aside_demand _ _).bind (fun _ => ?_))
  refine (aside_onlyIf ?_).bind (fun _ => (aside_run _).bind (fun _ => ?_))
  · exact (aside_ask.bind (fun o => aside_edit _ _ _)).bind (fun _ => .pure _)
  · exact aside_ask.bind (fun o => aside_node.bind (fun n => aside_putRecord _))

theorem aside_cloneVolume (id : VolumeId) (name : String) (linked : Bool) :
    Proc.Upholds (OnNode K) (cloneVolume env id name linked) := by
  refine (aside_requireVolumeIdle id).bind (fun _ => (aside_getVolume id).bind (fun v => ?_))
  split
  · exact (aside_cloneExternal v name linked).bind (fun record => aside_bump_pure record)
  · refine aside_ask.bind (fun need => (aside_requireStorageBytes _ _).bind (fun _ => ?_))
    refine (aside_poolClone v name linked).bind (fun record => aside_ask.bind (fun o => ?_))
    refine aside_node.bind (fun n => (aside_putRecord _).bind (fun record => ?_))
    refine (aside_ensureReplicas record).bind (fun _ => ?_)
    exact (aside_syncVolumeReplicas record).bind (fun _ => aside_bump_pure record)

theorem aside_cloneLinked (id : VolumeId) (name : String) (linked : Bool) :
    Proc.Upholds (OnNode K) (cloneLinked env id name linked) := by
  refine (aside_cloneVolume id name linked).attempt.bind (fun cloned => ?_)
  split
  · exact .pure _
  · exact aside_cloneVolume id name false
  · exact .check _

theorem aside_localizeDisks (disks : List DiskSpec) :
    Proc.Upholds (OnNode K) (localizeDisks env disks) := by
  induction disks with
  | nil => exact .pure _
  | cons disk rest ih => exact aside_node.bind (fun n => aside_ask.bind (fun o => ih.bind (fun _ => .pure _)))

theorem aside_restoreCloneCidata (record : VmRecord) :
    Proc.Upholds (OnNode K) (restoreCloneCidata env record) := by
  unfold restoreCloneCidata
  split
  · exact .pure _
  · refine aside_ask.bind (fun o => ?_)
    split
    · exact .pure _
    · dsimp only
      split <;> exact .pure _

theorem aside_ensureVolumesOnNode (vm : VmRecord) (dest : NodeId) :
    Proc.Upholds (OnNode K) (ensureVolumesOnNode env vm dest) := by
  have hensure (id : VolumeId) : Proc.Upholds (OnNode K) (ensureVolumeOn env dest id) := by
    refine aside_node.bind (fun n => ?_)
    split
    · exact .pure _
    · split
      · exact .pure _
      · refine (aside_demand _ _).bind (fun _ => Proc.Upholds.bind (aside_onlyIf ?_) (fun _ => ?_))
        · exact (aside_putRecord _).bind (fun _ => aside_bump)
        · exact (aside_run _).bind (fun _ => aside_ask.bind (fun o => aside_onlyIf (aside_run _)))
  refine aside_node.bind (fun n => ?_)
  split
  · exact .pure _
  · exact .each (fun id _ => hensure id)

end Pertisk.Service
