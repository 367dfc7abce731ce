import Pertisk.Disks.Refused

namespace Pertisk.Disks
open Lib Storage Volume

variable {α β : Type} {p q : VolumePool β}

/-- A note that is not taken. -/
def TooLong (notes : Option String) : Prop :=
  ∃ text ∈ notes, 500 < (PeerUrl.trim text.toList).length

theorem tooLong_iff {notes : Option String} :
    TooLong notes ↔ ∃ text, cleanVolumeNotes notes = .error text := by
  cases notes with
  | none => exact iff_of_false (fun ⟨_, h, _⟩ => nomatch h) nofun
  | some notes =>
    unfold TooLong cleanVolumeNotes
    dsimp only
    split
    · rename_i hlong
      exact iff_of_true ⟨notes, rfl, hlong⟩ ⟨_, rfl⟩
    · rename_i hshort
      refine iff_of_false ?_ nofun
      rintro ⟨_, h, hlong⟩
      cases h
      exact hshort hlong

namespace VolumePool

theorem getVolume_putRecord (record : VolumeRecord) (flush : Option String) :
    (p.putRecord record flush).1.getVolume record.id = .ok record.localize := by
  have hget := Table.get_insert_self p.volumes (StoredVolume.ofRecord record)
  unfold putRecord upsertVolume getVolume
  rw [StoredVolume.ofRecord_localize]
  rw [show StoredVolume.id (StoredVolume.ofRecord record) = record.id from
    StoredVolume.ofRecord_id record] at hget
  rw [hget]
  rfl

theorem putRecord_same_iff {record : VolumeRecord} {flush : Option String} :
    (p.putRecord record flush).1 = p ↔
      p.volumes.get record.id = some (.ofRecord record) := by
  have hid : StoredVolume.id (StoredVolume.ofRecord record) = record.id :=
    StoredVolume.ofRecord_id record
  unfold putRecord upsertVolume
  rw [StoredVolume.ofRecord_localize, ← hid, ← Table.insert_eq_iff]
  exact ⟨fun h => congrArg VolumePool.volumes h, fun h => by rw [h]⟩

theorem putRecord_ok {record done : VolumeRecord} {flush : Option String}
    (h : p.putRecord record flush = (q, .ok done)) :
    flush = none ∧ done = record.localize ∧ q = (p.putRecord record none).1 := by
  unfold putRecord upsertVolume at h ⊢
  cases flush with
  | none =>
    cases h
    exact ⟨rfl, rfl, rfl⟩
  | some text => cases h

theorem setVolumeNotes_keeps_iff {record : VolumeRecord} {notes : Option String}
    {flush : Option String} (hget : q.getVolume record.id = .ok record) :
    KeepsOnRefusal p (q.setVolumeNotes record.id notes flush) ↔ TooLong notes → q = p := by
  unfold setVolumeNotes
  split
  · rename_i text hclean
    rw [keeps_refused_iff]
    exact ⟨fun h _ => h, fun h => h (tooLong_iff.mpr ⟨text, hclean⟩)⟩
  · rename_i hclean
    rw [hget]
    refine iff_of_true upsertVolume_onlyFails.keeps fun hlong => ?_
    obtain ⟨text, herr⟩ := tooLong_iff.mp hlong
    cases hclean.symm.trans herr

/-- The QEMU of the guest takes the snapshot inside the image. -/
def TakesTag (a : Site) (p : VolumePool β) (luck : Luck β) (vm : VmRecord) (id : VolumeId)
    (name : String) : Prop :=
  ∃ vol image, p.getVolume id = .ok vol ∧ (trimmed name).isEmpty = false ∧
    vol.hasSnapshot (trimmed name) = false ∧
    Service.runningSnapshotPlan vol.backend vol.format a.driver (Service.hasDevice vm id) = .qemu ∧
    p.image (.file (p.localPath vol.id vol.format)) = .ok image ∧
    image.saved.any (fun entry => entry.1 == trimmed name) = false ∧ luck.command = none

/-- The only guest that runs with the volume runs here, and its QEMU takes the snapshot. -/
def TakesInside (a : Site) (p : VolumePool β) (luck : Luck β) (id : VolumeId) (name : String) :
    Prop :=
  ∃ vmId vm, a.node.runningVolumeUsers id = [vmId] ∧ a.node.store.get vmId = some vm ∧
    vm.nodeId.getD a.node.cluster.selfId = a.node.cluster.selfId ∧ p.TakesTag a luck vm id name

def WritesIso (p : VolumePool β) (luck : Luck β) (req : CloudInitIsoRequest) (bytes : β) : Prop :=
  ∃ name, Host.isoName (cidataName req.name) = .ok name ∧ luck.command = none ∧
    p.images (.file (p.isoPath name)) ≠ some (plain bytes)

theorem snapshotInternal_onlyFails {vol : VolumeRecord} {name : String}
    {command : Option (String × Option (Image β))} :
    OnlyFails (p.snapshotInternal vol name command) := by
  unfold snapshotInternal
  dsimp only
  split
  · rename_i himage
    obtain ⟨text, rfl⟩ := image_fault himage
    exact onlyFails_failed text
  · split
    · exact onlyFails_failed _
    · exact write_onlyFails

theorem snapshotInternal_ok {vol : VolumeRecord} {name : String}
    {command : Option (String × Option (Image β))}
    (h : p.snapshotInternal vol name command = (q, .ok ())) :
    ∃ image, p.image (.file (p.localPath vol.id vol.format)) = .ok image ∧
      image.saved.any (fun entry => entry.1 == name) = false ∧ command = none ∧
      q = p.set (.file (p.localPath vol.id vol.format))
        (some { image with saved := image.saved ++ [(name, image.active)] }) := by
  unfold snapshotInternal at h
  dsimp only at h
  split at h
  · cases h
  · rename_i image himage
    split at h
    · cases h
    · rename_i hfree
      obtain ⟨hcommand, hq⟩ := write_ok h
      exact ⟨image, himage, Bool.eq_false_iff.mpr hfree, hcommand, hq⟩

theorem tagged_ne {s : Spot} {image : Image β} {name : String} (h : p.image s = .ok image) :
    p.set s (some { image with saved := image.saved ++ [(name, image.active)] }) ≠ p := by
  refine set_ne fun heq => ?_
  unfold VolumePool.image at h
  rw [heq] at h
  have hlen := congrArg (fun i : Image β => i.saved.length) (Except.ok.inj h)
  simp at hlen

theorem noteSnapshot_keeps_iff {luck : Luck β} {now : Nat} {id : VolumeId} {vol : VolumeRecord}
    {name : String} {notes : Option String} (hget : q.getVolume id = .ok vol)
    (hname : (trimmed name).isEmpty = false) (hnew : vol.hasSnapshot (trimmed name) = false) :
    KeepsOnRefusal p (q.noteSnapshot luck now id (trimmed name) notes) ↔
      (TooLong notes → q = p) := by
  unfold noteSnapshot
  rw [hget]
  dsimp only
  have hcheck : (Edit.snapshot (trimmed name) notes now true).check vol =
      (cleanVolumeNotes notes).map (fun _ => ()) := by
    unfold Edit.check
    dsimp only
    rw [trimmed_trimmed, hname, hnew]
    rfl
  rw [hcheck]
  cases hclean : cleanVolumeNotes notes with
  | error text =>
    dsimp only [Except.map]
    rw [keeps_refused_iff]
    exact ⟨fun h _ => h, fun h => h (tooLong_iff.mpr ⟨text, hclean⟩)⟩
  | ok out =>
    refine iff_of_true upsertVolume_onlyFails.keeps fun hlong => ?_
    obtain ⟨text, herr⟩ := tooLong_iff.mp hlong
    cases hclean.symm.trans herr

theorem snapshotLive_keeps_iff {a : Site} {luck : Luck β} {vm : VmRecord} {id : VolumeId}
    {name : String} {notes : Option String} :
    KeepsOnRefusal p (p.snapshotLive a luck vm id name notes) ↔
      ¬ (TooLong notes ∧ p.TakesTag a luck vm id name) := by
  unfold snapshotLive
  split
  · rename_i hget
    refine iff_of_true (keeps_same _) ?_
    rintro ⟨-, _, _, hok, -⟩
    cases hget.symm.trans hok
  · rename_i vol hget
    split
    · rename_i hempty
      refine iff_of_true (keeps_same _) ?_
      rintro ⟨-, _, _, -, hname, -⟩
      simp [hname] at hempty
    · rename_i hname
      split
      · rename_i hhas
        refine iff_of_true (keeps_same _) ?_
        rintro ⟨-, other, _, hok, -, hnew, -⟩
        cases hget.symm.trans hok
        simp [hnew] at hhas
      · rename_i hnew
        split
        · rename_i hplan
          refine iff_of_true (finish_keeps_iff.mpr snapshot_keeps) ?_
          rintro ⟨-, other, _, hok, -, -, hqemu, -⟩
          cases hget.symm.trans hok
          cases hplan.symm.trans hqemu
        · rename_i hplan
          refine iff_of_true (keeps_same _) ?_
          rintro ⟨-, other, _, hok, -, -, hqemu, -⟩
          cases hget.symm.trans hok
          cases hplan.symm.trans hqemu
        · rename_i hplan
          split
          · rename_i htake
            refine iff_of_true (snapshotInternal_onlyFails.passed htake) ?_
            rintro ⟨-, other, image, hok, -, -, -, himage, hfree, hcommand⟩
            cases hget.symm.trans hok
            unfold snapshotInternal at htake
            simp only [himage, hfree, hcommand] at htake
            cases htake
          · rename_i q htake
            obtain ⟨image, himage, hfree, hcommand, rfl⟩ := snapshotInternal_ok htake
            have hthere : (p.set (.file (p.localPath vol.id vol.format)) (some
                { image with saved := image.saved ++ [(trimmed name, image.active)]
                  })).getVolume id = .ok vol := hget
            rw [finish_keeps_iff, noteSnapshot_keeps_iff hthere (by simpa using hname)
              (by simpa using hnew)]
            constructor
            · rintro h ⟨hlong, -⟩
              exact tagged_ne himage (h hlong)
            · intro hnot hlong
              refine absurd ⟨hlong, vol, image, hget, ?_, ?_, hplan, himage, hfree, hcommand⟩ hnot
              · simpa using hname
              · simpa using hnew

theorem requestSnapshot_keeps_iff {a : Site} {luck : Luck β} {id : VolumeId} {name : String}
    {notes : Option String} {forwarded : Option (Except String VolumeRecord)} :
    KeepsOnRefusal p (p.requestSnapshot a luck id name notes forwarded) ↔
      ¬ (TooLong notes ∧ p.TakesInside a luck id name) := by
  unfold requestSnapshot
  split
  · rename_i hnil
    refine iff_of_true (finish_keeps_iff.mpr snapshot_keeps) ?_
    rintro ⟨-, _, _, hone, -⟩
    cases hnil.symm.trans hone
  · rename_i vmId hone
    split
    · rename_i hnone
      refine iff_of_true (keeps_same _) ?_
      rintro ⟨-, _, _, hother, hsome, -⟩
      cases hone.symm.trans hother
      cases hnone.symm.trans hsome
    · rename_i vm hvm
      split
      · rename_i howner
        rw [snapshotLive_keeps_iff]
        refine not_congr (and_congr_right fun _ => ⟨fun htag => ?_, ?_⟩)
        · exact ⟨vmId, vm, hone, hvm, howner, htag⟩
        · rintro ⟨_, _, hother, hsome, -, htag⟩
          cases hone.symm.trans hother
          cases hvm.symm.trans hsome
          exact htag
      · rename_i howner
        refine iff_of_true ?_ ?_
        · split
          · exact keeps_same _
          · exact keeps_same _
        · rintro ⟨-, _, _, hother, hsome, hhere, -⟩
          cases hone.symm.trans hother
          cases hvm.symm.trans hsome
          exact howner hhere
  · rename_i hnotNil hnotOne
    refine iff_of_true (keeps_same _) ?_
    rintro ⟨-, vmId, _, hone, -⟩
    exact hnotOne vmId hone

end VolumePool

variable [Contents β]

namespace VolumePool

/-- The file of a new volume is written, and it was not there with these contents. -/
def MakesFile (a : Site) (p : VolumePool β) (luck : Luck β) (id : VolumeId)
    (req : CreateVolumeRequest) : Prop :=
  a.requireStorageBytes 0 "create volume" = .ok () ∧ p.createChecks req = .ok () ∧
    luck.command = none ∧
    p.images (.file (p.localPath id req.format)) ≠ some (blank req.format req.sizeBytes)

/-- A backend has made the image of a new volume, or had it, and its record is put. -/
def MakesOutside (a : Site) (p : VolumePool β) (luck : Luck β) (backend : StorageBackend)
    (id : VolumeId) (req : CreateVolumeRequest) : Prop :=
  a.cli backend = true ∧ luck.command = none ∧ luck.flush = none ∧
    (p.images (.outside (p.outsidePlace backend req.name)) = none ∨
      backend = .zfs ∧ p.volumes.get id ≠
        some (.ofRecord (p.outsideRecord a backend id req.name req.format req.sizeBytes)))

end VolumePool

/-- The note is too long, and is looked at when something has been made already. -/
def Request.LateNote (a : Site) (p : VolumePool β) : Request β → Prop
  | .create id req _ luck _ =>
    TooLong req.notes ∧ a.node.cluster.quorumError a.now = none ∧
      if (req.backend.getD a.backend).external then
        p.MakesOutside a luck (req.backend.getD a.backend) id req
      else p.MakesFile a luck id req
  | .cloudinit req bytes luck => TooLong req.notes ∧ p.WritesIso luck req bytes
  | .snapshot id name notes _ luck => TooLong notes ∧ p.TakesInside a luck id name
  | .clone .. => False
  | .resize .. => False

namespace VolumePool

theorem createVolume_keeps_iff {a : Site} {luck : Luck β} {id : VolumeId}
    {req : CreateVolumeRequest} (hspace : a.requireStorageBytes 0 "create volume" = .ok ()) :
    KeepsOnRefusal p (p.createVolume luck id req) ↔
      ¬ (TooLong req.notes ∧ p.MakesFile a luck id req) := by
  unfold createVolume
  split
  · rename_i text hchecks
    refine iff_of_true (keeps_same _) ?_
    rintro ⟨-, -, hok, -⟩
    cases hchecks.symm.trans hok
  · rename_i hchecks
    split
    · rename_i hwrite
      refine iff_of_true (write_onlyFails.passed hwrite) ?_
      rintro ⟨-, -, -, hnone, -⟩
      rw [hnone] at hwrite
      cases hwrite
    · rename_i hwrite
      obtain ⟨hcommand, rfl⟩ := write_ok hwrite
      split
      · rename_i text hclean
        rw [keeps_refused_iff]
        constructor
        · rintro hsame ⟨-, -, -, -, hne⟩
          exact set_ne hne hsame
        · intro hnot
          refine set_same (not_not.mp fun hne => hnot ?_)
          exact ⟨tooLong_iff.mpr ⟨text, hclean⟩, hspace, hchecks, hcommand, hne⟩
      · rename_i hclean
        refine iff_of_true upsertVolume_onlyFails.keeps ?_
        rintro ⟨hlong, -⟩
        obtain ⟨text, herr⟩ := tooLong_iff.mp hlong
        cases hclean.symm.trans herr

theorem makeOutside_ok {backend : StorageBackend} {name : String} {sizeBytes : Nat}
    {command : Option (String × Option (Image β))}
    (h : p.makeOutside backend name sizeBytes command = (q, .ok ())) :
    command = none ∧
      (p.images (.outside (p.outsidePlace backend name)) = none ∧
          q = p.set (.outside (p.outsidePlace backend name)) (some (plain (createRaw sizeBytes))) ∨
        (p.images (.outside (p.outsidePlace backend name))).isSome ∧ backend = .zfs ∧ q = p) := by
  unfold makeOutside at h
  dsimp only at h
  split at h
  · rename_i hnone
    obtain ⟨hcommand, rfl⟩ := write_ok h
    exact ⟨hcommand, .inl ⟨hnone, rfl⟩⟩
  · rename_i hsome
    cases h
    exact ⟨rfl, .inr ⟨by simp [hsome], rfl, rfl⟩⟩
  · cases h
  · cases h

theorem makeOutside_of {a : Site} {luck : Luck β} {backend : StorageBackend} {id : VolumeId}
    {req : CreateVolumeRequest} (h : p.MakesOutside a luck backend id req) :
    ∃ q, p.makeOutside backend req.name req.sizeBytes luck.command = (q, .ok ()) := by
  obtain ⟨-, hcommand, -, hplace⟩ := h
  unfold makeOutside
  dsimp only
  rw [hcommand]
  cases himage : p.images (.outside (p.outsidePlace backend req.name)) with
  | none => exact ⟨_, rfl⟩
  | some image =>
    rcases hplace with hnone | ⟨rfl, -⟩
    · cases hnone.symm.trans himage
    · exact ⟨_, rfl⟩

/-- Whether anything is new once the image and the record are there. -/
theorem made_same_iff (a : Site) {backend : StorageBackend} {id : VolumeId}
    {req : CreateVolumeRequest} {command : Option (String × Option (Image β))}
    (h : p.makeOutside backend req.name req.sizeBytes command = (q, .ok ())) :
    (q.putRecord (q.outsideRecord a backend id req.name req.format req.sizeBytes) none).1 = p ↔
      ¬ (p.images (.outside (p.outsidePlace backend req.name)) = none ∨
        backend = .zfs ∧ p.volumes.get id ≠
          some (.ofRecord (p.outsideRecord a backend id req.name req.format req.sizeBytes))) := by
  obtain ⟨-, ⟨hnone, rfl⟩ | ⟨hsome, hzfs, hq⟩⟩ := makeOutside_ok h
  · refine iff_of_false (fun heq => ?_) (fun hnot => hnot (.inl hnone))
    have himage := congrArg (fun q => q.images (.outside (p.outsidePlace backend req.name))) heq
    simp only [putRecord, upsertVolume, set, Function.update_self] at himage
    cases himage.trans hnone
  · rw [hq, putRecord_same_iff]
    have hne : p.images (.outside (p.outsidePlace backend req.name)) ≠ none := by
      intro hnone
      simp [hnone] at hsome
    constructor
    · rintro hthere (hnone | ⟨-, hother⟩)
      · exact hne hnone
      · exact hother hthere
    · intro hnot
      by_contra hother
      exact hnot (.inr ⟨hzfs, hother⟩)

theorem createOutside_keeps_iff {a : Site} {luck next : Luck β} {backend : StorageBackend}
    {id : VolumeId} {req : CreateVolumeRequest} :
    KeepsOnRefusal p (p.createOutside a luck next backend id req) ↔
      ¬ (TooLong req.notes ∧ p.MakesOutside a luck backend id req) := by
  unfold createOutside
  split
  · rename_i hcli
    refine iff_of_true (keeps_same _) ?_
    rintro ⟨-, hyes, -⟩
    simp [hyes] at hcli
  · rename_i hcli
    split
    · rename_i hmake
      refine iff_of_true (makeOutside_onlyFails.passed hmake) ?_
      rintro ⟨-, hmakes⟩
      obtain ⟨q, hok⟩ := makeOutside_of hmakes
      cases hok.symm.trans hmake
    · rename_i q hmake
      split
      · rename_i hput
        refine iff_of_true (upsertVolume_onlyFails.passed hput) ?_
        rintro ⟨-, -, -, hflush, -⟩
        rw [hflush] at hput
        cases hput
      · rename_i hput
        obtain ⟨hflush, rfl, rfl⟩ := putRecord_ok hput
        split
        · rename_i hnotes
          refine iff_of_true (onlyFails_ok _).keeps ?_
          rintro ⟨⟨_, h, -⟩, -⟩
          cases hnotes.symm.trans h
        · rename_i notes hnotes
          have hget := getVolume_putRecord (p := q)
            (q.outsideRecord a backend id req.name req.format req.sizeBytes) none
          rw [← VolumeRecord.localize_id] at hget
          rw [setVolumeNotes_keeps_iff hget, ← hnotes, made_same_iff a hmake]
          have hyes : a.cli backend = true := by simpa using hcli
          obtain ⟨hcommand, -⟩ := makeOutside_ok hmake
          unfold MakesOutside
          simp only [hyes, hcommand, hflush, true_and]
          exact not_and.symm

theorem requestCreate_keeps_iff {a : Site} {luck next : Luck β} {id : VolumeId}
    {req : CreateVolumeRequest} {configured : Option Nat} :
    KeepsOnRefusal p (p.requestCreate a luck next id req configured) ↔
      ¬ (Request.create id req configured luck next).LateNote a p := by
  unfold requestCreate Request.LateNote
  split
  · rename_i text hquorum
    refine iff_of_true (keeps_same _) ?_
    rintro ⟨-, hnone, -⟩
    cases hquorum.symm.trans hnone
  · rename_i hquorum
    dsimp only
    simp only [hquorum, true_and]
    split
    · rw [finish_keeps_iff, createOutside_keeps_iff]
    · split
      · rename_i text hspace
        refine iff_of_true (keeps_same _) ?_
        rintro ⟨-, hok, -⟩
        cases hspace.symm.trans hok
      · rename_i hspace
        have hiff : KeepsOnRefusal p (p.createVolume luck id req) ↔ _ :=
          createVolume_keeps_iff hspace
        split
        · rename_i hcreate
          rw [← hcreate]
          exact hiff
        · rename_i hcreate
          rw [hcreate] at hiff
          exact iff_of_true (finish_keeps_iff.mpr upsertVolume_onlyFails.keeps)
            (hiff.mp (onlyFails_ok _).keeps)

theorem createCloudinitIso_keeps_iff {luck : Luck β} {req : CloudInitIsoRequest} {bytes : β} :
    KeepsOnRefusal p (p.createCloudinitIso luck req bytes) ↔
      ¬ (TooLong req.notes ∧ p.WritesIso luck req bytes) := by
  unfold createCloudinitIso
  split
  · rename_i hname
    refine iff_of_true (keeps_same _) ?_
    rintro ⟨-, _, hok, -⟩
    cases hname.symm.trans hok
  · rename_i name hname
    split
    · rename_i hwrite
      refine iff_of_true (write_onlyFails.passed hwrite) ?_
      rintro ⟨-, _, -, hnone, -⟩
      rw [hnone] at hwrite
      cases hwrite
    · rename_i hwrite
      obtain ⟨hcommand, rfl⟩ := write_ok hwrite
      split
      · rename_i text hclean
        rw [keeps_refused_iff]
        constructor
        · rintro hsame ⟨-, other, hok, -, hne⟩
          cases hname.symm.trans hok
          exact set_ne hne hsame
        · intro hnot
          refine set_same (not_not.mp fun hne => hnot ?_)
          exact ⟨tooLong_iff.mpr ⟨text, hclean⟩, name, hname, hcommand, hne⟩
      · rename_i hclean
        refine iff_of_true insertIso_onlyFails.keeps ?_
        rintro ⟨hlong, -⟩
        obtain ⟨text, herr⟩ := tooLong_iff.mp hlong
        cases hclean.symm.trans herr

end VolumePool

/-- A refused request leaves the inventory and every image as they were exactly when its note
fits, or is looked at, or the request refused or failed, before anything new is made. -/
theorem keeps_on_refusal_iff (a : Site) (p : VolumePool β) (req : Request β) :
    KeepsOnRefusal p (req.run a p) ↔ ¬ req.LateNote a p := by
  cases req with
  | create id req configured luck next => exact ended_keeps_iff.trans VolumePool.requestCreate_keeps_iff
  | cloudinit req bytes luck => exact ended_keeps_iff.trans VolumePool.createCloudinitIso_keeps_iff
  | clone converts id newId req luck next =>
    exact iff_of_true (ended_keeps_iff.mpr VolumePool.requestClone_keeps) (fun h => h)
  | snapshot id name notes forwarded luck =>
    exact ended_keeps_iff.trans VolumePool.requestSnapshot_keeps_iff
  | resize grown id sizeBytes luck =>
    exact iff_of_true (ended_keeps_iff.mpr VolumePool.requestResize_keeps) (fun h => h)

def loneSite : Site where
  now := 0
  node := Node.fresh 1
  backend := .replica
  replicaCount := 1
  driver := .qemu
  cli := fun _ => false
  freeMib := none

/-- A raw volume of one byte, with a note of 501 characters. -/
def longNote : CreateVolumeRequest where
  name := "data"
  sizeBytes := 1
  notes := some (String.ofList (List.replicate 501 'a'))

theorem long_note_leaves_file :
    ¬ ∀ (a : Site) (p : VolumePool Bytes) (req : Request Bytes), KeepsOnRefusal p (req.run a p) := by
  intro h
  have hkeeps := h loneSite emptyPool (.create 7 longNote none {} {})
  refine VolumePool.requestCreate_keeps_iff.mp (ended_keeps_iff.mp hkeeps) ⟨?_, ?_, ?_⟩
  · exact ⟨_, rfl, by decide +kernel⟩
  · decide +kernel
  · exact ⟨rfl, by decide +kernel, rfl, nofun⟩

end Pertisk.Disks
