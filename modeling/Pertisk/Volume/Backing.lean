import Pertisk.Lib.Calls
import Pertisk.Volume.Linked

namespace Pertisk.Volume
open Lib

namespace Disks

variable {δ : Type} {s t : Disks δ} {id c : VolumeId} {vm : VmId} {name : String}

/-- No running guest has a volume open for writing that others stand on. -/
def Inv (s : Disks δ) : Prop :=
  ∀ entry ∈ s.running, ∀ v ∈ entry.2, s.layers.backs v = false

/-- A volume that others stand on is not written, resized or rolled back, and its guests do not
start; one that a running guest writes is not made a base. -/
def Careful (s : Disks δ) : DiskAction δ → Prop
  | .start vm => ∀ record ∈ s.node.store.get vm,
      ∀ v ∈ s.opened (s.node.localizeDisks record), s.layers.backs v = false
  | .clone id _ _ linked _ _ => linked = true → ∀ entry ∈ s.running, id ∉ entry.2
  | .resize id _ | .restore id _ => s.layers.backs id = false
  | .restoreBackup _ disks => ∀ disk ∈ disks, s.layers.backs disk.1 = false
  | _ => True

/-- The action writes, resizes or rolls back the volume. -/
def Changes (s : Disks δ) (c : VolumeId) : DiskAction δ → Prop
  | .write vm id _ _ => id = c ∧ s.writes vm c = true
  | .resize id _ | .restore id _ => id = c
  | .restoreBackup _ disks => c ∈ disks.map Prod.fst
  | _ => False

/-- Only the records and what they say change. -/
def SameFiles (s t : Disks δ) : Prop := t.layers = s.layers ∧ t.running = s.running

theorem write_layers {block : Nat} {data : δ} : (s.write id block data).layers =
    s.layers.alter id (fun layer =>
      { layer with blocks := Function.update layer.blocks block (some data) }) := rfl

theorem resize_same {sizeBytes : Nat} (h : s.resize id sizeBytes = .ok t) : s.SameFiles t := by
  unfold resize at h
  obtain ⟨_, -, h⟩ := bind_ok h
  obtain ⟨record, -, h⟩ := bind_ok h
  split at h
  · cases h
  · cases h
    exact ⟨rfl, rfl⟩

theorem snapshot_same {now : Nat} (h : s.snapshot id name now = .ok t) : s.SameFiles t := by
  unfold snapshot at h
  dsimp only at h
  split at h
  · cases h
  · obtain ⟨record, -, h⟩ := bind_ok h
    split at h
    · cases h
    · cases h
      exact ⟨rfl, rfl⟩

theorem rename_same {path : PathBuf} (h : s.rename id name path = .ok t) : s.SameFiles t := by
  unfold rename at h
  dsimp only at h
  split at h
  · cases h
  · obtain ⟨record, -, h⟩ := bind_ok h
    split at h
    · obtain ⟨_, -, h⟩ := bind_ok h
      cases h
      exact ⟨rfl, rfl⟩
    · split at h <;> cases h
      exact ⟨rfl, rfl⟩

theorem restore_ok (h : s.restore id name = .ok t) :
    ∃ blocks, t.layers = s.layers.alter id (fun layer => { layer with blocks := blocks }) ∧
      t.running = s.running := by
  unfold restore at h
  obtain ⟨_, -, h⟩ := bind_ok h
  obtain ⟨record, -, h⟩ := bind_ok h
  split at h
  · cases h
  · obtain ⟨blocks, -, h⟩ := bind_ok h
    cases h
    exact ⟨blocks, rfl, rfl⟩

theorem restoreBackup_ok {disks : List (VolumeId × (Nat → Option δ))}
    (h : s.restoreBackup vm disks = .ok t) :
    t.layers = disks.foldl (fun layers disk => layers.alter disk.1 (fun _ => ⟨disk.2, none⟩))
      s.layers ∧ t.running = s.running := by
  unfold restoreBackup at h
  obtain ⟨record, -, h⟩ := bind_ok h
  obtain ⟨_, -, h⟩ := bind_ok h
  obtain ⟨_, -, h⟩ := bind_ok h
  split at h
  · cases h
  · obtain ⟨_, -, h⟩ := bind_ok h
    cases h
    exact ⟨rfl, rfl⟩

theorem start_ok (h : s.start vm = .ok t) :
    ∃ record, s.node.store.get vm = some record ∧ t.layers = s.layers ∧
      t.running = (vm, s.opened (s.node.localizeDisks record)) :: s.running := by
  unfold start at h
  obtain ⟨record, hget, h⟩ := bind_ok h
  obtain ⟨_, -, h⟩ := bind_ok h
  cases h
  refine ⟨record, ?_, rfl, rfl⟩
  unfold Disks.vm at hget
  split at hget <;> cases hget
  assumption

theorem stop_ok (h : s.stop vm = .ok t) :
    t.layers = s.layers ∧ t.running = s.running.filter (fun entry => entry.1 ≠ vm) := by
  unfold stop at h
  obtain ⟨record, -, h⟩ := bind_ok h
  cases h
  exact ⟨rfl, rfl⟩

/-- The new file stands on nothing, on what it was linked to, or on what its source stands on. -/
theorem cloneVolume_ok {newId : VolumeId} {linked flat : Bool} {path : PathBuf}
    (h : s.cloneVolume id newId name linked flat path = .ok t) :
    t.running = s.running ∧ ∃ layer, t.layers = (newId, layer) :: s.layers ∧
      ∀ b, layer.base = some b → b = id ∧ linked = true ∨ s.layers.backs b = true := by
  unfold cloneVolume at h
  obtain ⟨_, -, h⟩ := bind_ok h
  obtain ⟨source, -, h⟩ := bind_ok h
  dsimp only at h
  split at h
  · cases h
    exact ⟨rfl, _, rfl, nofun⟩
  · split at h
    · cases h
    · split at h
      · cases h
      · split at h <;> cases h
        refine ⟨rfl, _, rfl, fun b hb => ?_⟩
        split at hb
        · rename_i hlinked
          obtain rfl := Option.some.inj hb
          exact .inl ⟨rfl, hlinked⟩
        · split at hb
          · cases hb
          · right
            cases hlayer : s.layers.layer id with
            | none =>
              rw [hlayer] at hb
              cases hb
            | some layer =>
              rw [hlayer] at hb
              obtain ⟨entry, hentry, rfl⟩ := Option.map_eq_some_iff.mp hlayer
              refine List.any_eq_true.mpr ⟨entry, List.mem_of_find?_eq_some hentry, ?_⟩
              simpa using hb

/-- Files that no other stands on are replaced one after another. -/
theorem read_restoreAll {disks : List (VolumeId × (Nat → Option δ))} {layers : Layers VolumeId δ}
    (hbase : ∀ disk ∈ disks, layers.backs disk.1 = false) (hc : c ∉ disks.map Prod.fst)
    (k : Nat) :
    (disks.foldl (fun layers disk => layers.alter disk.1 (fun _ => ⟨disk.2, none⟩)) layers).read c k =
      layers.read c k := by
  induction disks generalizing layers with
  | nil => rfl
  | cons disk disks ih =>
    simp only [List.map_cons, List.mem_cons, not_or] at hc
    rw [List.foldl_cons, ih (fun d hd => ?_) hc.2,
      Layers.read_alter (hbase disk List.mem_cons_self) hc.1]
    by_contra hbacks
    rw [Bool.not_eq_false] at hbacks
    have hold := Layers.backs_alter (fun _ => .inl rfl) hbacks
    rw [hbase d (List.mem_cons_of_mem disk hd)] at hold
    cases hold

theorem backs_restoreAll {disks : List (VolumeId × (Nat → Option δ))} {layers : Layers VolumeId δ}
    (h : (disks.foldl (fun layers disk => layers.alter disk.1 (fun _ => ⟨disk.2, none⟩))
      layers).backs c = true) : layers.backs c = true := by
  induction disks generalizing layers with
  | nil => exact h
  | cons disk disks ih => exact Layers.backs_alter (fun _ => .inl rfl) (ih h)

/-- What is open stays no base when no file has become one. -/
theorem Inv.mono (h : s.Inv) (hrunning : ∀ entry ∈ t.running, entry ∈ s.running)
    (hbacks : ∀ v, t.layers.backs v = true → s.layers.backs v = true) : t.Inv := by
  intro entry hentry v hv
  by_contra hbase
  rw [Bool.not_eq_false] at hbase
  have hold := hbacks v hbase
  rw [h entry (hrunning entry hentry) v hv] at hold
  cases hold

theorem writes_mem {v : VolumeId} (h : s.writes vm v = true) :
    ∃ entry ∈ s.running, v ∈ entry.2 := by
  obtain ⟨entry, hentry, hboth⟩ := List.any_eq_true.mp h
  simp only [Bool.and_eq_true, List.contains_iff_mem] at hboth
  exact ⟨entry, hentry, hboth.2⟩

theorem step_inv (h : s.Inv) {a : DiskAction δ} (hcareful : s.Careful a) (hstep : s.step a = some t) :
    t.Inv := by
  cases a with
  | clone id newId name linked flat path =>
    unfold step at hstep
    dsimp only at hstep
    split at hstep
    · obtain ⟨hrunning, layer, hlayers, hbase⟩ := cloneVolume_ok (toOption_some hstep)
      intro entry hentry v hv
      rw [hrunning] at hentry
      rw [hlayers, Layers.backs_cons, h entry hentry v hv, Bool.or_false, beq_eq_false_iff_ne]
      intro hv'
      rcases hbase v hv' with ⟨rfl, hlinked⟩ | hold
      · exact hcareful hlinked entry hentry hv
      · rw [h entry hentry v hv] at hold
        cases hold
    · cases hstep
  | attach vm id =>
    obtain ⟨done, -, rfl⟩ := Option.map_eq_some_iff.mp hstep
    exact h
  | start vm =>
    obtain ⟨record, hget, hlayers, hrunning⟩ := start_ok (toOption_some (x := s.start vm) hstep)
    intro entry hentry v hv
    rw [hlayers]
    rw [hrunning] at hentry
    rcases List.mem_cons.mp hentry with rfl | hold
    · exact hcareful record hget v hv
    · exact h entry hold v hv
  | stop vm =>
    obtain ⟨hlayers, hrunning⟩ := stop_ok (toOption_some (x := s.stop vm) hstep)
    refine h.mono (fun entry hentry => ?_) (fun v hv => by rwa [hlayers] at hv)
    rw [hrunning] at hentry
    exact List.mem_of_mem_filter hentry
  | write vm id block data =>
    unfold step at hstep
    dsimp only at hstep
    split at hstep <;> cases hstep
    refine h.mono (fun _ hentry => hentry) (fun v hv => ?_)
    rw [write_layers] at hv
    exact Layers.backs_reblock hv
  | resize id sizeBytes =>
    obtain ⟨hlayers, hrunning⟩ := resize_same (toOption_some (x := s.resize id sizeBytes) hstep)
    exact h.mono (fun _ hentry => hrunning ▸ hentry) (fun _ hv => hlayers ▸ hv)
  | snapshot id name now =>
    obtain ⟨hlayers, hrunning⟩ := snapshot_same (toOption_some (x := s.snapshot id name now) hstep)
    exact h.mono (fun _ hentry => hrunning ▸ hentry) (fun _ hv => hlayers ▸ hv)
  | restore id name =>
    obtain ⟨blocks, hlayers, hrunning⟩ := restore_ok (toOption_some (x := s.restore id name) hstep)
    refine h.mono (fun _ hentry => hrunning ▸ hentry) (fun _ hv => ?_)
    rw [hlayers] at hv
    exact Layers.backs_reblock hv
  | restoreBackup vm disks =>
    obtain ⟨hlayers, hrunning⟩ := restoreBackup_ok (toOption_some (x := s.restoreBackup vm disks) hstep)
    refine h.mono (fun _ hentry => hrunning ▸ hentry) (fun _ hv => ?_)
    rw [hlayers] at hv
    exact backs_restoreAll hv
  | rename id name path =>
    obtain ⟨hlayers, hrunning⟩ := rename_same (toOption_some (x := s.rename id name path) hstep)
    exact h.mono (fun _ hentry => hrunning ▸ hentry) (fun _ hv => hlayers ▸ hv)

/-- A step leaves what every other volume reads as. -/
theorem step_read (h : s.Inv) {a : DiskAction δ} (hcareful : s.Careful a)
    (hstep : s.step a = some t) (hold : s.layers.any (fun entry => entry.1 == c) = true)
    (hother : ¬ s.Changes c a) (k : Nat) : t.read c k = s.read c k := by
  unfold read
  cases a with
  | clone id newId name linked flat path =>
    unfold step at hstep
    dsimp only at hstep
    split at hstep
    · rename_i hfresh
      obtain ⟨-, layer, hlayers, -⟩ := cloneVolume_ok (toOption_some hstep)
      have hne : c ≠ newId := by
        rintro rfl
        obtain ⟨entry, hentry, hc⟩ := List.any_eq_true.mp hold
        simp only [Bool.and_eq_true, List.all_eq_true] at hfresh
        have hnew := hfresh.2 entry hentry
        simp_all
      rw [hlayers, Layers.read_cons hne]
    · cases hstep
  | attach vm id =>
    obtain ⟨done, -, rfl⟩ := Option.map_eq_some_iff.mp hstep
    rfl
  | start vm =>
    obtain ⟨record, -, hlayers, -⟩ := start_ok (toOption_some (x := s.start vm) hstep)
    rw [hlayers]
  | stop vm =>
    rw [(stop_ok (toOption_some (x := s.stop vm) hstep)).1]
  | write vm id block data =>
    unfold step at hstep
    dsimp only at hstep
    split at hstep <;> cases hstep
    rename_i hwrites
    have hne : c ≠ id := by
      rintro rfl
      exact hother ⟨rfl, hwrites⟩
    obtain ⟨entry, hentry, hv⟩ := writes_mem hwrites
    rw [write_layers]
    exact Layers.read_alter (h entry hentry id hv) hne _ k
  | resize id sizeBytes =>
    rw [(resize_same (toOption_some (x := s.resize id sizeBytes) hstep)).1]
  | snapshot id name now =>
    rw [(snapshot_same (toOption_some (x := s.snapshot id name now) hstep)).1]
  | restore id name =>
    obtain ⟨blocks, hlayers, -⟩ := restore_ok (toOption_some (x := s.restore id name) hstep)
    rw [hlayers]
    exact Layers.read_alter hcareful (Ne.symm hother) _ k
  | restoreBackup vm disks =>
    rw [(restoreBackup_ok (toOption_some (x := s.restoreBackup vm disks) hstep)).1]
    exact read_restoreAll hcareful hother k
  | rename id name path =>
    rw [(rename_same (toOption_some (x := s.rename id name path) hstep)).1]

/-- A base is not changed. -/
theorem base_kept (h : s.Inv) {a : DiskAction δ} (hcareful : s.Careful a)
    (hbase : s.layers.backs c = true) : ¬ s.Changes c a := by
  intro hchanges
  cases a with
  | write vm id block data =>
    obtain ⟨rfl, hwrites⟩ := hchanges
    obtain ⟨entry, hentry, hv⟩ := writes_mem hwrites
    rw [h entry hentry id hv] at hbase
    cases hbase
  | resize id sizeBytes =>
    obtain rfl : id = c := hchanges
    rw [show s.layers.backs id = false from hcareful] at hbase
    cases hbase
  | restore id name =>
    obtain rfl : id = c := hchanges
    rw [show s.layers.backs id = false from hcareful] at hbase
    cases hbase
  | restoreBackup vm disks =>
    obtain ⟨disk, hdisk, rfl⟩ := List.mem_map.mp hchanges
    rw [hcareful disk hdisk] at hbase
    cases hbase
  | clone id newId name linked flat path => exact hchanges
  | attach vm id => exact hchanges
  | start vm => exact hchanges
  | stop vm => exact hchanges
  | snapshot id name now => exact hchanges
  | rename id name path => exact hchanges

instance (s : Disks δ) (a : DiskAction δ) : Decidable (s.Careful a) := by
  unfold Careful
  split <;> infer_instance

/-- A stopped guest with a disk, and one without. -/
def base : Disks Nat where
  node :=
    ((Node.fresh 1).replaceAll
      [{ id := .numeric 100, state := .stopped
         spec := { name := "db", disks := [{ path := .disk 7 .raw, volumeId := some 7 }] } },
        { id := .numeric 101, spec := { name := "web" }, state := .stopped }]).putRecord
      { id := 7, name := "data", format := .raw, sizeBytes := 8, path := .disk 7 .raw }
  qemuImg := true
  layers := [(7, ⟨fun k => if k = 0 then some 1 else none, none⟩)]
  saved _ _ := none
  running := []

/-- A linked clone for the guest without a disk. -/
def cloned : List (DiskAction Nat) :=
  [.clone 7 8 "copy" true false (.disk 8 .qcow2), .attach (.numeric 101) 8, .start (.numeric 101),
    .write (.numeric 101) 8 0 5]

end Disks

end Pertisk.Volume
