import Pertisk.Storage.Moves

namespace Pertisk.Storage
open Lib

variable {β : Type} [Contents β] {n : NodeId} {id : VolumeId} {f : Tagged β}
variable {w : Fleet (Tagged β)} {w₀ s t : World β}

namespace World

/-! ### Runs -/

/-- Guests start on a newest copy that has bytes, and write where one was started last; syncs and
passes are the work of that node, while no other node runs a guest with the volume. A leader
without a file that is not to have one does no harm either, nor does an ensure step that sees what
the destination has. -/
def Careful (s : World β) : Action β → Prop
  | .start n id => ∃ f, s.file n id = some f ∧ Full f ∧
      ∀ m old, s.file m id = some old → old.version ≤ f.version
  | .write n id _ => s.owner id = some n
  | .sync _ _ n id => s.MayPush n id
  | .rebuild _ now n => ∀ vol, (s.fleet n).getVolume vol.id = some vol →
      Processed s.fleet n vol → s.MayRebuild ((s.fleet n).node.cluster.onlineIds now) n vol
  | .ensure env n spec dest => ∀ disk ∈ spec.disks, ∀ id, disk.volumeId = some id →
      s.MayEnsure env n dest id
  | _ => True

/-- Over the step no file is replaced by an older one, and none of a node that runs a guest with
it but by the node itself. -/
def NoOverwrite (s : World β) (action : Action β) (t : World β) : Prop :=
  ∀ n id old, s.file n id = some old → ∃ new, t.file n id = some new ∧
    old.version ≤ new.version ∧
    (s.running n id = true → action.changes n id = false → new = old)

theorem Start.valid (h : s.Start) : s.Valid where
  newest id :=
    { owned := fun o ho => by
        have hnone : s.owner id = none := h.unowned id
        rw [show (s.copies id).owner = s.owner id from rfl, hnone] at ho
        cases ho
      unowned := fun _ n old hold => h.blank n id old hold
      used := fun n hn => by
        have hidle : s.running n id = false := h.idle n id
        rw [show (s.copies id).inUse n = s.running n id from rfl, hidle] at hn
        cases hn
      blank := fun n old hold _ => h.blank n id old hold
      bounded := fun n old hold => by
        rw [h.blank n id old hold]
        exact Nat.zero_le _ }
  fits := h.fits

/-- What all nodes may have leaves every copy at least as new as it was. -/
theorem Valid.allHeld (hs : s.Valid) (action : Action β) (h : ∀ id, s.AllHeld id w) :
    Valid { s with fleet := w } ∧ s.NoOverwrite action { s with fleet := w } := by
  refine ⟨⟨fun id => ?_, fun n id record hr => (h id n).2 record hr⟩, ?_⟩
  · exact ((hs.newest id).moved (fun n => (h id n).1)).1
  · intro n id old hold
    obtain ⟨new, hnew, hle, hkeep⟩ :=
      ((hs.newest id).moved (fun n => (h id n).1)).2 n old hold
    exact ⟨new, hnew, hle, fun hrun _ => hkeep hrun⟩

theorem noOverwrite_of_file (action : Action β) (h : t.file = s.file) : s.NoOverwrite action t :=
  fun n id old hold => ⟨old, by rw [h, hold], Nat.le_refl _, fun _ _ => rfl⟩

theorem copies_putFile (s : World β) (n : NodeId) (id j : VolumeId) (f : Tagged β) :
    (s.putFile n id f).copies j = if j = id then
      { s.copies j with copy := Function.update (s.copies j).copy n (some f) }
    else s.copies j := by
  have hfile : ∀ m, (s.putFile n id f).file m j =
      if m = n ∧ j = id then some f else s.file m j := by
    intro m
    unfold file putFile path
    dsimp only
    by_cases hm : m = n
    · subst hm
      rw [Function.update_self]
      by_cases hj : j = id
      · subst hj
        simp [Host.writeFile]
      · simp [Host.writeFile, hj]
    · rw [Function.update_of_ne hm, if_neg (fun h => hm h.1)]
  by_cases hj : j = id
  · rw [if_pos hj]
    refine Copies.ext ?_ rfl rfl
    funext m
    have := hfile m
    simp only [hj, and_true] at this
    simp only [copies, Function.update_apply, hj, this]
  · rw [if_neg hj]
    refine Copies.ext ?_ rfl rfl
    funext m
    have := hfile m
    rwa [if_neg (fun h => hj h.2)] at this

theorem copies_setRunning (s : World β) (n : NodeId) (id j : VolumeId) (on : Bool) :
    (s.setRunning n id on).copies j = if j = id then
      { s.copies j with inUse := Function.update (s.copies j).inUse n on }
    else s.copies j := by
  by_cases hj : j = id
  · subst hj
    rw [if_pos rfl]
    refine Copies.ext rfl ?_ rfl
    funext m
    by_cases hm : m = n
    · subst hm
      simp [copies, setRunning]
    · simp [copies, setRunning, hm]
  · rw [if_neg hj]
    refine Copies.ext rfl ?_ rfl
    funext m
    by_cases hm : m = n
    · subst hm
      simp [copies, setRunning, hj]
    · simp [copies, setRunning, hm]

/-- A node's own change of its file. -/
theorem Valid.putFile (hs : s.Valid) {old : Tagged β} {top : Nat} (hold : s.file n id = some old)
    (hfull : Full old → Full f) (hle : old.version ≤ f.version) (htop : s.writes ≤ top)
    (hf : f.version ≤ top)
    (hwrite : f.version = old.version ∨ s.owner id = some n ∧ Full f ∧ s.writes ≤ f.version)
    (action : Action β) (hact : action.changes n id = true) :
    Valid { s.putFile n id f with writes := top } ∧
      s.NoOverwrite action { s.putFile n id f with writes := top } := by
  refine ⟨⟨fun j => ?_, fun m j record hr => ?_⟩, ?_⟩
  · have hcopies := s.copies_putFile n id j f
    rw [show ({ s.putFile n id f with writes := top } : World β).copies j =
      (s.putFile n id f).copies j from rfl, hcopies]
    split
    · rename_i hj
      subst hj
      exact (hs.newest j).change hold hfull hle htop hf hwrite
    · exact (hs.newest j).mono htop
  · refine hs.fits m j record ?_
    have hget : ((s.putFile n id f).fleet m).getVolume j = (s.fleet m).getVolume j := by
      unfold World.putFile
      dsimp only
      by_cases hm : m = n
      · subst hm
        rw [Function.update_self]
        rfl
      · rw [Function.update_of_ne hm]
    rw [← hget]
    exact hr
  · intro m j x hx
    have hcopy := congrFun (congrArg Copies.copy (s.copies_putFile n id j f)) m
    by_cases hj : j = id
    · subst hj
      rw [if_pos rfl] at hcopy
      by_cases hm : m = n
      · subst hm
        obtain rfl : old = x := Option.some.inj (hold.symm.trans hx)
        refine ⟨f, hcopy.trans ?_, hle, fun _ h => by rw [hact] at h; cases h⟩
        exact Function.update_self ..
      · refine ⟨x, hcopy.trans ?_, Nat.le_refl _, fun _ _ => rfl⟩
        exact (Function.update_of_ne hm _ _).trans hx
    · rw [if_neg hj] at hcopy
      exact ⟨x, hcopy.trans hx, Nat.le_refl _, fun _ _ => rfl⟩

theorem step_valid {action : Action β} (hs : s.Valid) (hok : s.Careful action)
    (h : s.step action = some t) : t.Valid ∧ s.NoOverwrite action t := by
  cases action with
  | start n id =>
    obtain ⟨f, hf, hfull, hnew⟩ := hok
    simp only [step, hf, Option.some.injEq] at h
    subst h
    refine ⟨⟨fun j => ?_, hs.fits⟩, noOverwrite_of_file _ rfl⟩
    have hcopies := s.copies_setRunning n id j true
    by_cases hj : j = id
    · subst hj
      have hstart := (hs.newest j).start hf hfull hnew
      rw [if_pos rfl] at hcopies
      have howner : ({ s.setRunning n j true with
          owner := Function.update s.owner j (some n) } : World β).copies j =
          { (s.setRunning n j true).copies j with owner := some n } := by
        refine Copies.ext rfl rfl ?_
        exact Function.update_self ..
      rw [howner, hcopies]
      exact hstart
    · rw [if_neg hj] at hcopies
      have howner : ({ s.setRunning n id true with
          owner := Function.update s.owner id (some n) } : World β).copies j =
          (s.setRunning n id true).copies j := by
        refine Copies.ext rfl rfl ?_
        exact Function.update_of_ne hj ..
      rw [howner, hcopies]
      exact hs.newest j
  | stop n id =>
    simp only [step, Option.some.injEq] at h
    subst h
    refine ⟨⟨fun j => ?_, hs.fits⟩, noOverwrite_of_file _ rfl⟩
    rw [s.copies_setRunning n id j false]
    split
    · exact (hs.newest j).stop
    · exact hs.newest j
  | write n id bytes =>
    simp only [step] at h
    split at h
    · cases h
    · rename_i old hold
      split at h
      · rename_i hguard
        simp only [Bool.and_eq_true, decide_eq_true_eq] at hguard
        cases h
        have hbound := (hs.newest id).bounded n old hold
        have hgrow : Full old → Full (⟨s.writes + 1, bytes⟩ : Tagged β) :=
          fun hfull => Nat.lt_of_lt_of_le hfull hguard.2
        obtain ⟨g, hg, hgfull⟩ := (hs.newest id).used n hguard.1
        obtain rfl : old = g := Option.some.inj (hold.symm.trans hg)
        exact hs.putFile hold hgrow (Nat.le_succ_of_le hbound) (Nat.le_succ _) (Nat.le_refl _)
          (.inr ⟨hok, hgrow hgfull, Nat.le_succ _⟩) _ (by simp [Action.changes])
      · cases h
  | edit n id bytes =>
    simp only [step] at h
    split at h
    · cases h
    · rename_i old hold
      split at h
      · rename_i hguard
        cases h
        have hgrow : Full old → Full (⟨old.version, bytes⟩ : Tagged β) := hguard
        exact hs.putFile hold hgrow (Nat.le_refl _) (Nat.le_refl _)
          ((hs.newest id).bounded n old hold) (.inl rfl) _ (by simp [Action.changes])
      · cases h
  | sync env now n id =>
    simp only [step] at h
    split at h
    · cases h
    · rename_i record hr
      cases h
      refine hs.allHeld _ (fun j => ?_)
      refine allHeld_syncVolumeReplicas hs (fun m => .refl hs j m) (fun hj => ?_)
      rw [← hj, Host.id_of_getVolume hr]
      exact hok
  | rebuild env now n =>
    simp only [step, Option.ite_none_right_eq_some, Option.some.injEq] at h
    obtain ⟨-, rfl⟩ := h
    exact hs.allHeld _ (allHeld_rebuildVolumes hs hok)
  | ensure env n spec dest =>
    simp only [step, Option.some.injEq] at h
    subst h
    unfold ensureVolumesOnNode
    split
    · exact hs.allHeld _ (fun j m => .refl hs j m)
    · rename_i hne
      generalize hens : ensureVolumes env dest spec.disks (s.fleet n) (s.fleet dest) = out
      obtain ⟨a', d', result⟩ := out
      obtain ⟨ha, hd⟩ := held_ensureVolumes hs hne (fun j => .refl hs j n)
        (fun j => .refl hs j dest) hok hens
      refine hs.allHeld _ (fun j => ?_)
      have hself : s.AllHeld j (Function.update s.fleet n a') :=
        AllHeld.update (fun m => .refl hs j m) (ha j)
      exact hself.update (hd j)
  | pullMissing env now n spec =>
    simp only [step, Option.some.injEq] at h
    subst h
    refine hs.allHeld _ (fun j => ?_)
    unfold pullMissingVolumes
    exact AllHeld.update (fun m => .refl hs j m) (held_pullMissing hs (fun i => .refl hs i n) j)
  | inventory n node =>
    simp only [step, Option.ite_none_right_eq_some, Option.some.injEq] at h
    obtain ⟨hfits, rfl⟩ := h
    have hfile : ∀ m j, (s.putNode n node).file m j = s.file m j := by
      intro m j
      unfold file putNode path
      dsimp only
      by_cases hm : m = n
      · subst hm
        rw [Function.update_self]
      · rw [Function.update_of_ne hm]
    refine ⟨⟨fun j => ?_, fun m j record hr => ?_⟩, noOverwrite_of_file _ ?_⟩
    · have hcopies : (s.putNode n node).copies j = s.copies j :=
        Copies.ext (funext (fun m => hfile m j)) rfl rfl
      rw [hcopies]
      exact hs.newest j
    · unfold putNode at hr
      dsimp only at hr
      by_cases hm : m = n
      · subst hm
        rw [Function.update_self] at hr
        exact hfits record (Host.listVolumes_of_get hr)
      · rw [Function.update_of_ne hm] at hr
        exact hs.fits m j record hr
    · funext m j
      exact hfile m j

/-- The volume of two bytes as one that grows. -/
def twoGrowing : VolumeRecord := { twoBytes with format := .qcow2, path := .disk 7 .qcow2 }

/-- A guest's growing volume, of which nodes 1 and 2 have two bytes. -/
def guestWorld : World Bytes where
  fleet id :=
    { node := ((Node.fresh id).putRecord twoGrowing).upsertVm
        { id := .numeric 100, spec := twoBytesSpec, state := .running }
      files := fun path =>
        if path = .disk 7 .qcow2 ∧ id ≠ 3 then some ⟨0, ⟨[1, 2]⟩⟩ else none
      isos := Table.empty }
  running _ _ := false
  owner _ := none
  writes := 0
  format _ := .qcow2
  backend _ := .replica

theorem guestWorld_start : guestWorld.Start where
  idle _ _ := rfl
  unowned _ := rfl
  blank n id f hf := by
    have hfile : guestWorld.file n id = if id = 7 ∧ n ≠ 3 then some ⟨0, ⟨[1, 2]⟩⟩ else none := by
      simp [file, path, guestWorld]
    rw [hfile] at hf
    split at hf
    · cases hf
      rfl
    · cases hf
  fits n id record hr := by
    have hput := Host.getVolume_putRecord (β := Tagged Bytes)
      ⟨Node.fresh n, fun _ => none, Table.empty⟩ twoGrowing id
    have hget := hput.symm.trans hr
    by_cases hid : twoGrowing.id = id
    · rw [if_pos hid] at hget
      cases hget
      exact ⟨rfl, rfl⟩
    · rw [if_neg hid] at hget
      cases hget

/-- The guest's disk grows by a byte. -/
def growOnTwo : List (Action Bytes) := [.start 2 7, .write 2 7 ⟨[1, 2, 3]⟩]

end World

end Pertisk.Storage
