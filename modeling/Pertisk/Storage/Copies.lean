import Pertisk.Storage.Ensure
import Pertisk.Storage.Iso

namespace Pertisk.Storage
open Lib

variable {β : Type} [Contents β] {env : Env} {w w' : Fleet β} {self dest : NodeId} {spec : VmSpec}

/-- The disks that a guest finds at the destination are those of the node where it last ran
exactly when each of them arrives as that node's file. -/
theorem started_with_own_bytes_iff (hans : ∀ r, Answers env (w self) dest r)
    (h : ensureVolumesOnNode env w self spec dest = (w', .ok ())) (src : NodeId) :
    (∀ vol c, DiskVolume (w self) spec.disks vol →
        Relation.ReflTransGen (Backs (w self)) vol c →
        (w' dest).files c.path = (w src).files c.path) ↔
      ∀ vol c, DiskVolume (w self) spec.disks vol →
        Relation.ReflTransGen (Backs (w self)) vol c →
        ArrivesAs env w self dest src spec.disks c := by
  constructor
  · intro hsame vol c hv hc
    exact (ensureVolumesOnNode_file hans h src c).mp (hsame vol c hv hc)
  · intro hthere vol c hv hc
    exact (ensureVolumesOnNode_file hans h src c).mpr (hthere vol c hv hc)

/-- File contents as the bytes themselves. -/
structure Bytes where
  data : List Nat
  deriving DecidableEq

instance : Contents Bytes where
  len b := b.data.length
  allocated b := if b.data.all (· == 0) then 0 else b.data.length
  createRaw size := ⟨List.replicate size 0⟩
  createQcow2 size := ⟨[81, 70, 73, 251, size]⟩

/-- Every request gets through and no node is short of space. -/
def Env.calm : Env where
  fault _ _ := none
  freeMib _ _ := none
  qemuImg _ := true
  httpText := DaemonError.text

/-- A raw volume of two bytes, number 7. -/
def twoBytes : VolumeRecord where
  id := 7
  name := "data"
  format := .raw
  sizeBytes := 2
  path := .disk 7 .raw
  replicas := [1, 2]
  replicaCount := 2

def twoBytesSpec : VmSpec where
  name := "vm"
  disks := [{ path := .disk 7 .raw, volumeId := some 7 }]

def Host.withFile (id : NodeId) (file : Option Bytes) : Host Bytes where
  node := (Node.fresh id).putRecord twoBytes
  files := Function.update (fun _ => none) (.disk 7 .raw) file
  isos := Table.empty

/-- Node 1 has the two bytes, and node 2 has `there`. -/
def pairFleet (there : Option Bytes) : Fleet Bytes := fun id =>
  if id = 1 then .withFile 1 (some ⟨[1, 2]⟩) else .withFile id there

theorem pairFleet_answers (there : Option Bytes) (r : Request) :
    Answers .calm (pairFleet there 1) 2 r := ⟨Option.some_ne_none "", rfl⟩

theorem pairFleet_volume {there : Option Bytes} {vol : VolumeRecord}
    (h : DiskVolume (pairFleet there 1) twoBytesSpec.disks vol) : vol = twoBytes := by
  obtain ⟨-, hv, disk, hdisk, hid⟩ := h
  obtain rfl := List.mem_singleton.mp hdisk
  rw [← Option.some.inj hid] at hv
  exact (Option.some.inj hv).symm

/-- A destination with an empty file gets the two bytes. -/
theorem started_with_own_bytes_empty :
    ((ensureVolumesOnNode .calm (pairFleet (some ⟨[]⟩)) 1 twoBytesSpec 2).1 2).files
        twoBytes.path =
      (pairFleet (some ⟨[]⟩) 1).files twoBytes.path := by
  have harrives : ∀ vol c, DiskVolume (pairFleet (some ⟨[]⟩) 1) twoBytesSpec.disks vol →
      Relation.ReflTransGen (Backs (pairFleet (some ⟨[]⟩) 1)) vol c →
      ArrivesAs .calm (pairFleet (some ⟨[]⟩)) 1 2 1 twoBytesSpec.disks c := by
    intro vol c hv hc
    obtain rfl := pairFleet_volume hv
    have hself : c = twoBytes := by
      rcases Relation.ReflTransGen.cases_head hc with rfl | ⟨b, hb, -⟩
      · rfl
      · cases hb.1
    subst hself
    refine ⟨?_, ?_⟩
    · intro vol _ hv' _
      obtain rfl := pairFleet_volume hv'
      rfl
    · intro hno
      exact absurd rfl (hno twoBytes (by decide) hv)
  exact (started_with_own_bytes_iff (pairFleet_answers _) (Prod.ext rfl rfl) 1).mpr harrives
    twoBytes twoBytes ⟨rfl, rfl, _, List.mem_singleton_self _, rfl⟩ .refl

/-- A destination without a file: the ensure request makes two zero bytes there, which pass for
the disk. -/
theorem started_with_blank_disk :
    ¬ ∀ (env : Env) (w w' : Fleet Bytes) (self dest src : NodeId) (spec : VmSpec),
      (∀ r, Answers env (w self) dest r) →
      ensureVolumesOnNode env w self spec dest = (w', .ok ()) →
      ∀ vol c, DiskVolume (w self) spec.disks vol →
        Relation.ReflTransGen (Backs (w self)) vol c →
        (w' dest).files c.path = (w src).files c.path := by
  intro h
  have hsame := h .calm (pairFleet none)
    (ensureVolumesOnNode .calm (pairFleet none) 1 twoBytesSpec 2).1 1 2 1 twoBytesSpec
    (pairFleet_answers none) (Prod.ext rfl rfl) twoBytes twoBytes
    ⟨rfl, rfl, _, List.mem_singleton_self _, rfl⟩ .refl
  revert hsame
  decide

/-- A push or an ISO copy that reports success leaves the same bytes at the peer, except where
the peer had something of the same length and that was not the same already. -/
theorem successful_copy_iff (env : Env) (w : Fleet β) (self dest : NodeId) :
    (∀ id record file d', (w self).getVolume id = some record →
      record.backend.external = false → (w self).files record.path = some file →
      peerPutBlob env dest (w self) (w dest) id = .ok d' →
      (d'.volumeFile id = some file ↔
        ¬ (0 < len file ∧ Answers env (w self) dest (.stat id) ∧
            ∃ old, (w dest).volumeFile id = some old ∧ len old = len file) ∨
          (w dest).volumeFile id = some file)) ∧
    ∀ spec w', ensureIsosOnNode env w self spec dest = (w', .ok ()) →
      ((∀ name, Attached spec.disks name → (w' dest).isoFile name = (w' self).isoFile name) ↔
        ∀ name iso old, Attached spec.disks name → (w self).isos.get name = some iso →
          (w dest).isos.get name = some old → old.record.sizeBytes = iso.record.sizeBytes →
          old.contents = iso.contents) := by
  refine ⟨?_, ?_⟩
  · intro id record file d' hr hb hf h
    rw [peerPutBlob_copies_iff hr hb hf h, sameSize_iff]
  · intro spec w' h
    unfold ensureIsosOnNode at h
    split at h
    · rename_i heq
      cases h
      subst heq
      refine ⟨fun _ name iso old _ hiso hold _ => ?_, fun _ _ _ => rfl⟩
      obtain rfl : iso = old := Option.some.inj (hiso.symm.trans hold)
      rfl
    · rename_i hne
      simp only [Prod.mk.injEq] at h
      obtain ⟨rfl, hok⟩ := h
      have hland : IsosLanded (w self) (w dest) (ensureIsos env (w self) dest spec.disks
          (w dest)).1 spec.disks := ensureIsos_ok (by rw [← hok])
      rw [Function.update_self, Function.update_of_ne (Ne.symm hne)]
      constructor
      · intro hsame name iso old ha hiso hold hsize
        obtain ⟨iso', bytes, hiso', hbytes, hl⟩ := hland.landed name ha
        obtain rfl : iso = iso' := Option.some.inj (hiso.symm.trans hiso')
        have hfile : (w self).isoFile name = some bytes := by simp [Host.isoFile, hiso, hbytes]
        have hthere := (hsame name ha).trans hfile
        rw [hbytes]
        exact hl.isoFile_iff.mp hthere old hold (hsize.trans (iso.size bytes hbytes))
      · intro hold name ha
        obtain ⟨iso, bytes, hiso, hbytes, hl⟩ := hland.landed name ha
        have hfile : (w self).isoFile name = some bytes := by simp [Host.isoFile, hiso, hbytes]
        rw [hfile]
        refine hl.isoFile_iff.mpr ?_
        intro old hget hsize
        rw [hold name iso old ha hiso hget (hsize.trans (iso.size bytes hbytes).symm), hbytes]

/-- A push over a shorter file. -/
theorem successful_copy_shorter :
    ∃ d', peerPutBlob .calm 2 (pairFleet (some ⟨[0]⟩) 1) (pairFleet (some ⟨[0]⟩) 2) 7 = .ok d' ∧
      d'.volumeFile 7 = some ⟨[1, 2]⟩ := by
  refine ⟨_, rfl, ?_⟩
  refine ((successful_copy_iff .calm (pairFleet (some ⟨[0]⟩)) 1 2).1 7 twoBytes ⟨[1, 2]⟩ _ rfl rfl
    rfl rfl).mpr (.inl ?_)
  rintro ⟨-, -, old, hold, hlen⟩
  cases hold
  revert hlen
  decide

def isoOf (bytes : Bytes) : StoredIso Bytes where
  record := { name := "a.iso", path := .iso "a.iso", sizeBytes := len bytes }
  contents := some bytes
  path := rfl
  size := fun b hb => by cases hb; rfl

/-- Nodes 1 and 2 have different ISOs of one name and length. -/
def isoFleet : Fleet Bytes := fun id =>
  { Host.withFile id none with
    isos := Table.empty.insert (isoOf (if id = 1 then ⟨[1, 2]⟩ else ⟨[3, 4]⟩)) }

def isoSpec : VmSpec where
  name := "vm"
  disks := [{ path := .iso "a.iso", cdrom := true, isoName := some "a.iso" }]

/-- Two bytes of zeros at the peer pass for the two bytes pushed, and one ISO for another. -/
theorem same_length_not_copied :
    (¬ ∀ (env : Env) (w : Fleet Bytes) (self dest : NodeId) (id : VolumeId)
        (record : VolumeRecord) (file : Bytes) (d' : Host Bytes),
      (w self).getVolume id = some record → record.backend.external = false →
      (w self).files record.path = some file →
      peerPutBlob env dest (w self) (w dest) id = .ok d' → d'.volumeFile id = some file) ∧
    ¬ ∀ (env : Env) (w w' : Fleet Bytes) (self dest : NodeId) (spec : VmSpec),
      ensureIsosOnNode env w self spec dest = (w', .ok ()) →
      ∀ name, Attached spec.disks name →
        (w' dest).isoFile name = (w' self).isoFile name := by
  refine ⟨?_, ?_⟩
  · intro h
    have hsame := h .calm (pairFleet (some ⟨[0, 0]⟩)) 1 2 7 twoBytes ⟨[1, 2]⟩ _ rfl rfl rfl rfl
    revert hsame
    decide
  · intro h
    have hsame := h .calm isoFleet (ensureIsosOnNode .calm isoFleet 1 isoSpec 2).1 1 2 isoSpec
      (Prod.ext rfl rfl) "a.iso" ⟨_, List.mem_singleton_self _, rfl, rfl⟩
    revert hsame
    decide

end Pertisk.Storage
