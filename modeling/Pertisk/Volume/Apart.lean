import Pertisk.Lib.Estate
import Pertisk.Storage.Copies
import Pertisk.Volume.External

namespace Pertisk.Volume
open Lib Storage

namespace World

variable {β : Type} [Contents β] {w v : World β} {id : VolumeId} {record : VolumeRecord}
variable {p q : Place} {name text : String} {fault : Option String}

/-- Who has which place, and for whom each place was made. -/
def estate (w : World β) : Estate VolumeId Place where
  place id := (w.node.getVolume id).bind place
  maker p := (w.extents p).map Extent.madeFor

/-- Commands about the volume go to the place that its guests open. -/
def Aimed (w : World β) (record : VolumeRecord) : Prop :=
  record.backend.external = true → ∃ p, place record = some p ∧ w.target record = some p

structure Inv (w : World β) : Prop where
  proper : w.zfs.Proper
  aimed : ∀ id record, w.node.getVolume id = some record → w.Aimed record
  sound : w.estate.Sound

/-- No place that stood is another one now. -/
def Keeps (w v : World β) : Prop := ∀ p e, w.extents p = some e → v.extents p = some e

theorem Keeps.refl (w : World β) : w.Keeps w := fun _ _ h => h

/-- What a create, an import or a copy makes stands nowhere yet. -/
def Careful (w : World β) : Action β → Prop
  | .create _ req _ => req.backend.getD w.backend = .zfs →
      w.extents (.zvol (w.zfs.datasetName req.name)) = none
  | .import _ name _ _ backend _ => backend.getD w.backend = .zfs →
      w.extents (.zvol (w.zfs.datasetName name)) = none
  | .clone id _ name linked _ _ _ => linked = false →
      (w.node.getVolume id).map (·.backend) = some .zfs →
      w.extents (.zvol (w.zfs.datasetName name)) = none
  | _ => True

@[simp] theorem place_localize (record : VolumeRecord) : place record.localize = place record := by
  unfold place VolumeRecord.localize
  cases hb : record.backend <;> simp [StorageBackend.external, hb]

theorem aimed_localize (h : w.Aimed record) : w.Aimed record.localize := by
  intro hext
  rw [VolumeRecord.localize_backend] at hext
  unfold VolumeRecord.localize
  rw [if_pos hext]
  exact h hext

theorem estate_put (hplace : place record = w.estate.place record.id) :
    (w.putRecord record).estate = w.estate := by
  have hp : (w.putRecord record).estate.place = w.estate.place := by
    funext j
    simp only [estate, putRecord, Node.getVolume_putRecord]
    split
    · rename_i hj
      subst hj
      simpa [estate] using hplace
    · rfl
  simp only [estate, Estate.mk.injEq] at hp ⊢
  exact ⟨hp, rfl⟩

theorem estate_make {e : Extent β} (hplace : place record = some p) :
    ((w.setExtent p (some e)).putRecord record).estate =
      { place := Function.update w.estate.place record.id (some p)
        maker := Function.update w.estate.maker p (some e.madeFor) } := by
  simp only [estate, Estate.mk.injEq]
  constructor
  · funext j
    simp only [putRecord, setExtent, Node.getVolume_putRecord, Function.update_apply]
    by_cases hj : record.id = j
    · simp [hj, hplace]
    · simp [hj, Ne.symm hj]
  · funext q
    simp only [putRecord, setExtent, Function.update_apply]
    split <;> rfl

theorem aimed_putRecord (h : ∀ id r, w.node.getVolume id = some r → w.Aimed r)
    (hrecord : w.Aimed record) {j : VolumeId} {r : VolumeRecord}
    (hr : (w.putRecord record).node.getVolume j = some r) : w.Aimed r := by
  simp only [putRecord, Node.getVolume_putRecord] at hr
  split at hr
  · cases hr
    exact aimed_localize hrecord
  · exact h j r hr

namespace Inv

theorem bump (h : w.Inv) : w.bump.Inv := ⟨h.proper, h.aimed, h.sound⟩

/-- A record that says the same place. -/
theorem put (h : w.Inv) (hplace : place record = w.estate.place record.id)
    (haimed : w.Aimed record) : (w.putRecord record).Inv where
  proper := h.proper
  aimed _ _ hr := aimed_putRecord h.aimed haimed hr
  sound := by
    rw [estate_put hplace]
    exact h.sound

/-- A new place, and the record that says it. -/
theorem make (h : w.Inv) (hfree : w.extents p = none) (bytes : β)
    (hplace : place record = some p) (haimed : w.Aimed record) :
    ((w.setExtent p (some ⟨record.id, bytes⟩)).putRecord record).Inv where
  proper := h.proper
  aimed _ _ hr := aimed_putRecord (w := w.setExtent p (some ⟨record.id, bytes⟩)) h.aimed haimed hr
  sound := by
    rw [estate_make hplace]
    exact h.sound.make (by simp [estate, hfree])

/-- The record again, with something else in it. -/
theorem again (h : (w.putRecord record).Inv) {record' : VolumeRecord}
    (hid : record'.id = record.id) (hplace : place record' = place record)
    (haimed : w.Aimed record') : ((w.putRecord record).putRecord record').Inv := by
  refine h.put ?_ haimed
  simp [hplace, hid, estate, putRecord, Node.getVolume_putRecord]

theorem of_made (h : w.Inv) (made : List VolumeId) : Inv { w with made } :=
  ⟨h.proper, h.aimed, h.sound⟩

theorem repath (h : w.Inv) : (w.repath record).Inv := ⟨h.proper, h.aimed, h.sound⟩

end Inv

/-- A record with the path of its name is found under it. -/
theorem aimed_of_path (h : w.zfs.Proper) (hext : record.backend.external = true)
    (hpath : record.path = w.imagePath record.backend record.name) :
    place record = some (w.placeOf record.backend record.name) ∧
      w.target record = some (w.placeOf record.backend record.name) := by
  unfold place target
  rw [hpath]
  cases hb : record.backend with
  | replica =>
    rw [hb] at hext
    cases hext
  | rbd => simp [imagePath, placeOf, specFromPath_imagePath]
  | zfs => simp [imagePath, placeOf, datasetFromPath_imagePath h]

theorem aimed_externalRecord (h : w.zfs.Proper) {backend : StorageBackend}
    (hext : backend.external = true) (id : VolumeId) (name : String) (format : VolumeFormat)
    (sizeBytes : Nat) :
    place (w.externalRecord backend id name format sizeBytes) = some (w.placeOf backend name) ∧
      w.target (w.externalRecord backend id name format sizeBytes) =
        some (w.placeOf backend name) :=
  aimed_of_path h hext rfl

theorem makeNew_ok {bytes : β} (h : w.makeNew p id bytes fault = .ok v) :
    w.extents p = none ∧ v = w.setExtent p (some ⟨id, bytes⟩) := by
  unfold makeNew at h
  split at h <;> cases h
  exact ⟨‹_›, rfl⟩

theorem createZvol_ok {sizeBytes : Nat} (h : w.createZvol name id sizeBytes fault = .ok v)
    (hfree : w.extents (.zvol (w.zfs.datasetName name)) = none) :
    v = w.setExtent (.zvol (w.zfs.datasetName name)) (some ⟨id, createRaw sizeBytes⟩) := by
  unfold createZvol at h
  dsimp only at h
  rw [hfree] at h
  split at h <;> cases h
  · rename_i hsome
    cases hsome
  · rfl

theorem keeps_set {e : Extent β} (hfree : w.extents p = none) :
    w.Keeps (w.setExtent p (some e)) := by
  intro q f hq
  have hne : q ≠ p := by
    rintro rfl
    rw [hfree] at hq
    cases hq
  simpa [setExtent, hne] using hq

/-- A place is built, or the command that makes it has failed. -/
theorem Inv.register (h : w.Inv) {backend : StorageBackend} (hext : backend.external = true)
    (hfree : w.extents (w.placeOf backend name) = none) (id : VolumeId) (bytes : β)
    (format : VolumeFormat) (sizeBytes : Nat) :
    let v := w.setExtent (w.placeOf backend name) (some ⟨id, bytes⟩)
    (v.putRecord (v.externalRecord backend id name format sizeBytes)).Inv := by
  intro v
  obtain ⟨hplace, htarget⟩ := aimed_externalRecord h.proper hext id name format sizeBytes
  exact Inv.make h hfree bytes hplace (fun _ => ⟨_, hplace, htarget⟩)

theorem made_ok {req : CreateVolumeRequest} {backend : StorageBackend} {id : VolumeId}
    {fault : Option String} (hext : backend.external = true)
    (hfree : backend = .zfs → w.extents (.zvol (w.zfs.datasetName req.name)) = none)
    (h : (match backend with
      | .zfs => w.createZvol req.name id req.sizeBytes fault
      | _ => w.makeNew (w.placeOf backend req.name) id (createRaw req.sizeBytes) fault) = .ok v) :
    w.extents (w.placeOf backend req.name) = none ∧
      v = w.setExtent (w.placeOf backend req.name) (some ⟨id, createRaw req.sizeBytes⟩) := by
  cases backend with
  | replica => cases hext
  | zfs => exact ⟨hfree rfl, createZvol_ok h (hfree rfl)⟩
  | rbd => exact makeNew_ok h

theorem createVolume_apart (h : w.Inv) {req : CreateVolumeRequest} {backend : StorageBackend}
    (hext : backend.external = true)
    (hfree : backend = .zfs → w.extents (.zvol (w.zfs.datasetName req.name)) = none)
    (id : VolumeId) (fault : Option String) :
    (w.createVolume id req backend fault).1.Inv ∧
      w.Keeps (w.createVolume id req backend fault).1 := by
  unfold createVolume
  cases w.node.cluster.quorumError w.now with
  | some text => exact ⟨h, .refl w⟩
  | none =>
    dsimp only
    split
    · exact ⟨h, .refl w⟩
    · split
      · exact ⟨h, .refl w⟩
      · rename_i v hv
        obtain ⟨hnone, rfl⟩ := made_ok hext hfree hv
        have hkeeps := keeps_set (e := ⟨id, createRaw req.sizeBytes⟩) hnone
        have hinv := h.register hext hnone id (createRaw req.sizeBytes)
          (if backend = .zfs then .raw else req.format) req.sizeBytes
        split
        · exact ⟨hinv.bump, hkeeps⟩
        · split
          · exact ⟨hinv, hkeeps⟩
          · rename_i notes hnotes
            obtain ⟨hplace, htarget⟩ := aimed_externalRecord h.proper hext id req.name
              (if backend = .zfs then .raw else req.format) req.sizeBytes
            refine ⟨Inv.bump (hinv.again ?_ ?_ ?_), hkeeps⟩
            · rfl
            · rfl
            · exact fun _ => ⟨_, hplace, htarget⟩

theorem setExtent_setExtent (e f : Option (Extent β)) :
    (w.setExtent p e).setExtent p f = w.setExtent p f := by
  simp [setExtent]

/-- An import onto a free dataset fills a new place, or leaves at most one that nobody has. -/
theorem importRaw_apart (h : w.Inv) {raw : β} {sizeBytes : Nat} {run : Import β}
    (hfree : w.extents (.zvol (w.zfs.datasetName name)) = none) :
    (w.importRaw name id raw sizeBytes run = (w.setExtent (.zvol (w.zfs.datasetName name))
        (some ⟨id, raw⟩), .ok ())) ∨
      ∃ text, (w.importRaw name id raw sizeBytes run).2 = .error text ∧
        (w.importRaw name id raw sizeBytes run).1.Inv ∧
        w.Keeps (w.importRaw name id raw sizeBytes run).1 := by
  unfold importRaw
  dsimp only
  cases hv : w.createZvol name id (max sizeBytes (len raw)) run.fault with
  | error text => exact .inr ⟨text, rfl, h, .refl w⟩
  | ok v =>
    obtain rfl := createZvol_ok hv hfree
    cases run.ddFault with
    | none =>
      left
      simp [setExtent]
    | some text =>
      refine .inr ⟨text, rfl, ?_, ?_⟩
      · dsimp only
        split
        · rw [setExtent_setExtent]
          have hsame : w.setExtent (.zvol (w.zfs.datasetName name)) none = w := by
            simp [setExtent, ← hfree]
          rwa [hsame]
        · refine ⟨h.proper, h.aimed, ?_⟩
          have hbuild := h.sound.build (k := id) (p := .zvol (w.zfs.datasetName name))
            (by simp [estate, hfree])
          convert hbuild using 1
          simp only [estate, Estate.build, setExtent, Estate.mk.injEq, true_and]
          funext q
          simp only [Function.update_apply]
          split <;> rfl
      · dsimp only
        split
        · rw [setExtent_setExtent]
          intro q e hq
          have hne : q ≠ .zvol (w.zfs.datasetName name) := by
            rintro rfl
            rw [hfree] at hq
            cases hq
          simpa [setExtent, hne] using hq
        · exact keeps_set hfree

theorem importPlace_apart (h : w.Inv) {backend : StorageBackend} (hext : backend.external = true)
    (hfree : backend = .zfs → w.extents (.zvol (w.zfs.datasetName name)) = none) (id : VolumeId)
    (raw : β) (sizeBytes : Nat) (run : Import β) :
    (w.importPlace backend name id raw sizeBytes run = (w.setExtent (w.placeOf backend name)
        (some ⟨id, raw⟩), .ok ()) ∧ w.extents (w.placeOf backend name) = none) ∨
      ∃ v text, w.importPlace backend name id raw sizeBytes run = (v, .error text) ∧ v.Inv ∧
        w.Keeps v := by
  cases backend with
  | replica => cases hext
  | zfs =>
    rcases importRaw_apart h (hfree rfl) with hok | ⟨text, htext, hinv, hkeeps⟩
    · exact .inl ⟨hok, hfree rfl⟩
    · exact .inr ⟨_, text, Prod.ext rfl htext, hinv, hkeeps⟩
  | rbd =>
    unfold importPlace
    dsimp only
    split
    · exact .inr ⟨w, _, rfl, h, .refl w⟩
    · rename_i v hv
      obtain ⟨hnone, rfl⟩ := makeNew_ok hv
      exact .inl ⟨rfl, hnone⟩

/-- A record of the files says no place. -/
theorem Inv.putLocal (h : w.Inv) (hlocal : record.backend = .replica)
    (hnew : w.node.getVolume record.id = none) : (w.putRecord record).Inv := by
  refine h.put ?_ (fun hext => ?_)
  · simp [estate, place, hlocal, hnew]
  · rw [hlocal] at hext
    cases hext

theorem Inv.remove (h : w.Inv) (id : VolumeId) : (w.removeVolume id).Inv where
  proper := h.proper
  aimed j r hr := by
    simp only [removeVolume, Node.getVolume_removeVolume] at hr
    split at hr
    · cases hr
    · exact h.aimed j r hr
  sound := by
    have hdrop := h.sound.drop (k := id)
    convert hdrop using 1
    simp only [estate, Estate.drop, removeVolume, Node.getVolume_removeVolume, Estate.mk.injEq,
      and_true]
    funext j
    simp only [Function.update_apply]
    split <;> rfl

theorem importVolume_apart (h : w.Inv) {format : VolumeFormat} {sizeBytes : Nat}
    {backend : StorageBackend} {run : Import β} (hnew : w.node.getVolume id = none)
    (hext : backend.external = true)
    (hfree : backend = .zfs → w.extents (.zvol (w.zfs.datasetName name)) = none) :
    (w.importVolume id name format sizeBytes backend run).1.Inv ∧
      w.Keeps (w.importVolume id name format sizeBytes backend run).1 := by
  unfold importVolume
  cases w.node.cluster.quorumError w.now with
  | some text => exact ⟨h, .refl w⟩
  | none =>
    dsimp only
    split
    · exact ⟨h, .refl w⟩
    · split
      · exact ⟨h, .refl w⟩
      · split
        · exact ⟨h, .refl w⟩
        · cases run.refused with
          | some text => exact ⟨h, .refl w⟩
          | none =>
            have hlocal : (w.putRecord ⟨id, name, format, sizeBytes, .disk id format, none, [], [],
              1, .replica, none⟩).Inv := h.putLocal rfl hnew
            dsimp only
            cases run.raw with
            | error text => exact ⟨hlocal, .refl w⟩
            | ok raw =>
              dsimp only
              rcases importPlace_apart hlocal hext hfree id raw sizeBytes run with
                ⟨hplace, hnone⟩ | ⟨v, text, hplace, hinv, hkeeps⟩
              · rw [hplace]
                exact ⟨(hlocal.register hext hnone id raw .raw sizeBytes).bump, keeps_set hnone⟩
              · rw [hplace]
                exact ⟨hinv.remove id, hkeeps⟩

theorem renamePlace_ok (h : w.renamePlace p q fault = .ok v) :
    w.extents q = none ∧ ∃ e, w.extents p = some e ∧
      v = (w.setExtent p none).setExtent q (some e) := by
  unfold renamePlace at h
  split at h <;> cases h
  exact ⟨‹_›, _, ‹_›, rfl⟩

/-- What stands at a place moves to a free one, and the record with it. -/
theorem Inv.move (h : w.Inv) {e : Extent β} (hp : w.extents p = some e)
    (hq : w.extents q = none) (hold : w.estate.place record.id = some p)
    (hplace : place record = some q) (haimed : w.Aimed record) :
    (((w.setExtent p none).setExtent q (some e)).putRecord record).Inv where
  proper := h.proper
  aimed _ _ hr := aimed_putRecord (w := (w.setExtent p none).setExtent q (some e)) h.aimed haimed hr
  sound := by
    have hmaker : w.estate.maker p = some e.madeFor := by simp [estate, hp]
    have hid : e.madeFor = record.id :=
      Option.some.inj (hmaker.symm.trans (h.sound record.id p hold))
    rw [estate_make hplace, hid]
    have hmove := h.sound.move (q := q) hold (by simp [estate, hq])
    convert hmove using 1
    simp only [Estate.move, estate, setExtent, Estate.mk.injEq, true_and]
    congr 1
    funext r
    simp only [Function.update_apply]
    split <;> rfl

theorem renameVolume_apart (h : w.Inv) (id : VolumeId) (name : String) (fault : Option String) :
    (w.renameVolume id name fault).1.Inv := by
  unfold renameVolume
  cases w.node.cluster.quorumError w.now with
  | some text => exact h
  | none =>
    dsimp only
    split
    · exact h
    · cases hget : w.node.getVolume id with
      | none => exact h
      | some current =>
        have hid : current.id = id := w.node.getVolume_id hget
        dsimp only
        split
        · exact h
        · split
          · rename_i hext
            cases w.node.requireVolumeIdle id with
            | error text => exact h
            | ok _ =>
              dsimp only
              split
              · exact h
              · obtain ⟨p, hplace, htarget⟩ := h.aimed id current hget hext
                rw [htarget]
                dsimp only
                split
                · exact h
                · rename_i v hv
                  obtain ⟨hq, e, hp, rfl⟩ := renamePlace_ok hv
                  refine Inv.bump (Inv.repath (h.move hp hq ?_ ?_ (fun _ => ?_)))
                  · simpa [estate, hid, hget] using hplace
                  · refine (aimed_of_path h.proper ?_ ?_).1
                    · exact hext
                    · rfl
                  · refine ⟨_, aimed_of_path h.proper ?_ ?_⟩
                    · exact hext
                    · rfl
          · rename_i hlocal
            split
            · exact h
            · refine Inv.bump (h.put ?_ ?_)
              · simp [estate, hid, hget, place]
              · exact fun hext => absurd hext hlocal

theorem snapshotForClone_apart (h : w.Inv) {source : VolumeRecord} {now : Nat}
    (hget : w.node.getVolume source.id = some source)
    (hv : w.snapshotForClone source name now fault = .ok v) :
    v.Inv ∧ v.extents = w.extents ∧ v.zfs = w.zfs ∧ v.rbd = w.rbd := by
  unfold snapshotForClone at hv
  split at hv
  · cases hv
  · split at hv <;> cases hv
    refine ⟨h.put ?_ ?_, rfl, rfl, rfl⟩
    · simp [estate, hget, place]
    · exact h.aimed _ source hget

theorem cloneVolume_apart (h : w.Inv) {linked : Bool} {now : Nat} {snapFault : Option String}
    (hext : ∀ source, w.node.getVolume id = some source → source.backend.external = true)
    (hfree : linked = false → (w.node.getVolume id).map (·.backend) = some .zfs →
      w.extents (.zvol (w.zfs.datasetName name)) = none) (newId : VolumeId) :
    (w.cloneVolume id newId name linked now snapFault fault).1.Inv ∧
      w.Keeps (w.cloneVolume id newId name linked now snapFault fault).1 := by
  unfold cloneVolume
  cases w.node.requireVolumeIdle id with
  | error text => exact ⟨h, .refl w⟩
  | ok _ =>
    dsimp only
    cases hget : w.node.getVolume id with
    | none => exact ⟨h, .refl w⟩
    | some source =>
      have hid : source.id = id := w.node.getVolume_id hget
      subst hid
      have hsource := hext source hget
      dsimp only
      split
      · exact ⟨h, .refl w⟩
      · split
        · exact ⟨h, .refl w⟩
        · rename_i extent _
          split
          · exact ⟨h, .refl w⟩
          · rename_i u hu
            have hsnapped : u.Inv ∧ u.extents = w.extents ∧ u.zfs = w.zfs ∧ u.rbd = w.rbd := by
              split at hu
              · exact snapshotForClone_apart h hget hu
              · cases hu
                exact ⟨h, rfl, rfl, rfl⟩
            obtain ⟨hinv, hextents, hzfs, hrbd⟩ := hsnapped
            have hkeepsU : w.Keeps u := fun p e hp => by rwa [hextents]
            split
            · exact ⟨hinv, hkeepsU⟩
            · rename_i v hv
              have hmade : u.extents (u.placeOf source.backend name) = none ∧
                  v = u.setExtent (u.placeOf source.backend name) (some ⟨newId, extent.bytes⟩) := by
                split at hv
                · rename_i hb
                  unfold copyDataset at hv
                  split at hv <;> cases hv
                  rw [hb]
                  refine ⟨?_, rfl⟩
                  rw [hextents, placeOf, hzfs]
                  exact hfree rfl (by simp [hget, hb])
                · exact makeNew_ok hv
              obtain ⟨hnone, rfl⟩ := hmade
              refine ⟨(hinv.register hsource hnone newId extent.bytes .raw
                source.sizeBytes).bump, fun p e hp => ?_⟩
              exact keeps_set hnone p e (hkeepsU p e hp)

/-- A place goes with the record that said it. -/
theorem Inv.tearDown (h : w.Inv) (hplace : w.estate.place id = some p) :
    ((w.setExtent p none).removeVolume id).Inv where
  proper := h.proper
  aimed := (h.remove id).aimed
  sound := by
    have hnobody : ∀ k, (w.estate.drop id).place k ≠ some p := by
      intro k hk
      by_cases hki : k = id
      · simp [Estate.drop, hki] at hk
      · exact hki (h.sound.apart (by simpa [Estate.drop, hki] using hk) hplace)
    have hclear := (h.sound.drop (k := id)).clear hnobody
    convert hclear using 1
    simp only [estate, Estate.clear, Estate.drop, removeVolume, setExtent,
      Node.getVolume_removeVolume, Estate.mk.injEq]
    constructor
    · funext j
      simp only [Function.update_apply]
      split <;> rfl
    · funext q
      simp only [Function.update_apply]
      split <;> rfl

theorem deleteVolume_apart (h : w.Inv) (id : VolumeId) (destroyed : Bool) :
    (w.deleteVolume id destroyed).1.Inv := by
  unfold deleteVolume
  split
  · exact h
  · cases hget : w.node.getVolume id with
    | none => exact h
    | some record =>
      dsimp only
      refine Inv.bump ?_
      split
      · rename_i p htarget
        split
        · have hext : record.backend.external = true := by
            cases hb : record.backend with
            | replica => simp [target, hb] at htarget
            | rbd => rfl
            | zfs => rfl
          obtain ⟨q, hplace, htarget'⟩ := h.aimed id record hget hext
          obtain rfl := Option.some.inj (htarget'.symm.trans htarget)
          exact h.tearDown (by simpa [estate, hget] using hplace)
        · exact h.remove id
      · exact h.remove id

/-- Creates, imports and clones, which make places. -/
def Action.makes : Action β → Bool
  | .create .. | .import .. | .clone .. => true
  | _ => false

theorem step_apart (h : w.Inv) {a : Action β} (hcareful : w.Careful a) (hstep : w.step a = some v) :
    v.Inv ∧ (Action.makes a = true → w.Keeps v) := by
  cases a with
  | create id req fault =>
    unfold step at hstep
    dsimp only at hstep
    split at hstep <;> cases hstep
    rename_i hok
    simp only [Bool.and_eq_true] at hok
    obtain ⟨hinv, hkeeps⟩ := createVolume_apart (h.of_made (id :: w.made)) hok.2 hcareful id fault
    exact ⟨hinv, fun _ => hkeeps⟩
  | «import» id name format sizeBytes backend run =>
    unfold step at hstep
    dsimp only at hstep
    split at hstep <;> cases hstep
    rename_i hok
    simp only [Bool.and_eq_true, fresh, Option.isNone_iff_eq_none] at hok
    obtain ⟨hinv, hkeeps⟩ := importVolume_apart (h.of_made (id :: w.made)) hok.1.1 hok.2 hcareful
    exact ⟨hinv, fun _ => hkeeps⟩
  | rename id name fault =>
    cases hstep
    exact ⟨renameVolume_apart h id name fault, nofun⟩
  | clone id newId name linked now snapFault fault =>
    unfold step at hstep
    dsimp only at hstep
    split at hstep <;> cases hstep
    rename_i hok
    simp only [Bool.and_eq_true] at hok
    have hext : ∀ source, w.node.getVolume id = some source → source.backend.external = true := by
      intro source hget
      have hall := hok.2
      rw [hget] at hall
      exact hall
    obtain ⟨hinv, hkeeps⟩ := cloneVolume_apart (h.of_made (newId :: w.made)) hext hcareful newId
    exact ⟨hinv, fun _ => hkeeps⟩
  | delete id destroyed =>
    cases hstep
    exact ⟨deleteVolume_apart h id destroyed, nofun⟩

/-- No volume outside the files yet; the pools can hold anything. -/
structure Start (w : World β) : Prop where
  proper : w.zfs.Proper
  files : ∀ id record, w.node.getVolume id = some record → record.backend = .replica

theorem Start.inv (h : w.Start) : w.Inv where
  proper := h.proper
  aimed id record hget hext := by
    rw [h.files id record hget] at hext
    cases hext
  sound id p hp := by
    obtain ⟨record, hget, hplace⟩ := Option.bind_eq_some_iff.mp hp
    simp [place, h.files id record hget] at hplace

/-- Volumes outside the files have a place each, made for them, and no create, import or clone
touches the place of another. -/
theorem places_apart {w₀ : World β} (h0 : w₀.Start) {actions : List (Action β)}
    (run : Run (Guarded Careful (Steps step)) w₀ actions w) :
    (∀ i j x y p, w.node.getVolume i = some x → w.node.getVolume j = some y →
      place x = some p → place y = some p → i = j) ∧
    (∀ i x, w.node.getVolume i = some x → x.backend.external = true →
      ∃ p e, place x = some p ∧ w.extents p = some e ∧ e.madeFor = i) ∧
    (∀ a v, w.Careful a → w.step a = some v → Action.makes a = true →
      ∀ i x p, w.node.getVolume i = some x → place x = some p → v.extents p = w.extents p) := by
  have hinv : w.Inv := run.invariant (I := Inv) (fun _ _ _ h hs => (step_apart h hs.1 hs.2).1) h0.inv
  have hstands : ∀ i x p, w.node.getVolume i = some x → place x = some p →
      ∃ e, w.extents p = some e ∧ e.madeFor = i := by
    intro i x p hget hplace
    have hmaker := hinv.sound i p (by simpa [estate, hget] using hplace)
    exact Option.map_eq_some_iff.mp hmaker
  refine ⟨fun i j x y p hi hj hx hy => ?_, fun i x hi hext => ?_,
    fun a v hcareful hstep hmakes i x p hi hx => ?_⟩
  · exact hinv.sound.apart (by simpa [estate, hi] using hx) (by simpa [estate, hj] using hy)
  · obtain ⟨p, hplace, -⟩ := hinv.aimed i x hi hext
    obtain ⟨e, he, hfor⟩ := hstands i x p hi hplace
    exact ⟨p, e, hplace, he, hfor⟩
  · obtain ⟨e, he, -⟩ := hstands i x p hi hx
    rw [(step_apart hinv hcareful hstep).2 hmakes p e he, he]

/-- A daemon with both CLIs and an empty inventory; a guest's data is left on `tank/pertisk/old`. -/
def lab : World Bytes where
  now := 0
  node := Node.fresh 1
  zfs := .new none
  rbd := .new none
  backend := .zfs
  cli _ := true
  extents p := if p = .zvol "tank/pertisk/old" then some ⟨99, createRaw 8⟩ else none
  made := []

theorem lab_start : lab.Start where
  proper := by
    intro c hc
    have hhead : (trimMatches (· = '/') lab.zfs.parent.toList).head? = some 't' := by decide
    obtain rfl : 't' = c := Option.some.inj (hhead.symm.trans hc)
    rfl
  files _ _ h := by cases h

instance (w : World β) (a : Action β) : Decidable (w.Careful a) := by
  unfold Careful
  split <;> infer_instance

/-- A volume, a full and a linked clone of it under other names, and another volume. -/
def oneName : List (Action Bytes) :=
  [.create 1 { name := "root disk", sizeBytes := 1 } none, .clone 1 2 "copy" false 5 none none,
    .clone 1 3 "linked" true 6 none none, .rename 1 "base" none, .delete 2 true,
    .create 4 { name := "root-disk", sizeBytes := 1 } none]

theorem places_apart_lab :
    let w := exec step lab oneName
    (∀ i j x y p, w.node.getVolume i = some x → w.node.getVolume j = some y →
      place x = some p → place y = some p → i = j) ∧
    (∀ i x, w.node.getVolume i = some x → x.backend.external = true →
      ∃ p e, place x = some p ∧ w.extents p = some e ∧ e.madeFor = i) ∧
    (∀ a v, w.Careful a → w.step a = some v → Action.makes a = true →
      ∀ i x p, w.node.getVolume i = some x → place x = some p → v.extents p = w.extents p) :=
  places_apart lab_start (.of_exec_guarded (by decide +kernel))

/-- Two names that make one dataset. -/
def twoNames : List (Action Bytes) :=
  [.create 1 { name := "root disk", sizeBytes := 1 } none,
    .create 2 { name := "root-disk", sizeBytes := 1 } none]

theorem places_shared :
    ¬ ∀ (w₀ w : World Bytes) (actions : List (Action Bytes)), w₀.Start →
      Run (Steps step) w₀ actions w →
      ∀ i j x y p, w.node.getVolume i = some x → w.node.getVolume j = some y →
        place x = some p → place y = some p → i = j := by
  intro h
  have hrun : Run (Steps step) lab twoNames (exec step lab twoNames) :=
    .of_exec (by decide +kernel)
  have hplaces : ∀ i ∈ [1, 2], ((exec step lab twoNames).node.getVolume i).bind place =
      some (.zvol "tank/pertisk/root-disk") := by decide +kernel
  obtain ⟨x, hx, hxp⟩ := Option.bind_eq_some_iff.mp (hplaces 1 (by decide))
  obtain ⟨y, hy, hyp⟩ := Option.bind_eq_some_iff.mp (hplaces 2 (by decide))
  exact absurd (h lab _ twoNames lab_start hrun 1 2 x y _ hx hy hxp hyp) (by decide)

end World

end Pertisk.Volume
