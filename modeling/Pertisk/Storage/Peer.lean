import Mathlib.Logic.Function.Basic
import Pertisk.Storage.Host

namespace Pertisk.Storage
open Lib

variable {β : Type} [Contents β]

/-- All nodes, as the files and records each of them has. -/
abbrev Fleet (β : Type) [Contents β] := NodeId → Host β

/-- Ask a peer. An answer that is not a success comes back as a peer error. -/
def call {α : Type} (env : Env) (s : Host β) (dest : NodeId) (request : Request)
    (handler : Except DaemonError α) : Except DaemonError α :=
  match s.node.cluster.memberUrl dest with
  | none => .error (.peer s!"unknown node {uuidText dest}")
  | some _ =>
    match env.fault dest request with
    | some text => .error (.peer text)
    | none =>
      match handler with
      | .error err => .error (.peer (env.httpText err))
      | .ok answer => .ok answer

/-- The request gets to the peer and its answer comes back. -/
def Answers (env : Env) (s : Host β) (dest : NodeId) (request : Request) : Prop :=
  s.node.cluster.memberUrl dest ≠ none ∧ env.fault dest request = none

instance (env : Env) (s : Host β) (dest : NodeId) (request : Request) :
    Decidable (Answers env s dest request) := inferInstanceAs (Decidable (_ ∧ _))

theorem call_answers {α : Type} {env : Env} {s : Host β} {dest : NodeId} {request : Request}
    (h : Answers env s dest request) (answer : α) :
    call env s dest request (.ok answer) = .ok answer := by
  obtain ⟨hurl, hfault⟩ := h
  unfold call
  cases hm : s.node.cluster.memberUrl dest with
  | none => exact absurd hm hurl
  | some url => simp [hfault]

theorem call_ok {α : Type} {env : Env} {s : Host β} {dest : NodeId} {request : Request}
    {handler : Except DaemonError α} {answer : α}
    (h : call env s dest request handler = .ok answer) :
    Answers env s dest request ∧ handler = .ok answer := by
  unfold call at h
  cases hm : s.node.cluster.memberUrl dest with
  | none => simp [hm] at h
  | some url =>
    cases hf : env.fault dest request with
    | some text => simp [hm, hf] at h
    | none =>
      cases handler with
      | error err => simp [hm, hf] at h
      | ok a =>
        simp only [hm, hf, Except.ok.injEq] at h
        exact ⟨⟨by simp [hm], hf⟩, by rw [h]⟩

def peerVolumeStatRemote (env : Env) (s : Host β) (dest : NodeId) (request : Request)
    (d : Host β) (id : VolumeId) : Except DaemonError VolumeStat :=
  call env s dest request (.ok (d.volumeStat env dest request id))

/-- The remote file is taken for a copy already. -/
def sameSize (env : Env) (s : Host β) (dest : NodeId) (d : Host β) (id : VolumeId)
    (file : β) : Bool :=
  decide (len file > 0) &&
    match peerVolumeStatRemote env s dest (.stat id) d id with
    | .ok stat => stat.exists && stat.size == len file
    | .error _ => false

def lacksSpace (env : Env) (s : Host β) (dest : NodeId) (d : Host β) (record : VolumeRecord)
    (file : β) : Option DaemonError :=
  match peerVolumeStatRemote env s dest (.free record.id) d record.id with
  | .error _ => none
  | .ok stat =>
    match stat.freeBytes with
    | none => none
    | some free =>
      if free < saturatingAdd (allocated file) (1024 * mib) then
        some (.capacity (s!"peer {uuidText dest} has {free / mib} MiB free; " ++
          s!"volume {record.name} needs ~{divCeil (allocated file) mib} " ++
          "MiB allocated plus 1 GiB headroom"))
      else none

/-- Copy our file of a volume to a peer; what the peer's host becomes. -/
def peerPutBlob (env : Env) (dest : NodeId) (s d : Host β) (id : VolumeId) :
    Except DaemonError (Host β) :=
  match s.getVolume id with
  | none => .error (.storage (.notFound id))
  | some record =>
    if record.backend.external then .ok d
    else
      match s.files record.path with
      | none => .error (.peer s!"local volume {uuidText id} missing")
      | some file =>
        if sameSize env s dest d id file then .ok d
        else
          match lacksSpace env s dest d record file with
          | some err => .error err
          | none =>
            match call env s dest (.put id)
              (d.peerVolumeBlobPut env dest id (some (allocated file)) file) with
            | .error err => .error err
            | .ok (d, _) => .ok d

namespace Host

variable {env : Env} {self : NodeId} {h t : Host β} {id j : VolumeId} {record : VolumeRecord}

theorem id_of_getVolume (hr : h.getVolume id = some record) : record.id = id := by
  obtain ⟨v, hv, rfl⟩ := Option.map_eq_some_iff.mp hr
  have hkey : v.id = id := Table.key_of_get hv
  exact hkey

/-- A stored record of a volume that is not external names the local path. -/
theorem path_of_getVolume (hr : h.getVolume id = some record)
    (hb : record.backend.external = false) : record.path = .disk id record.format := by
  have hid := id_of_getVolume hr
  obtain ⟨v, _, rfl⟩ := Option.map_eq_some_iff.mp hr
  rw [v.localPath hb, hid]

theorem getVolume_putRecord (h : Host β) (record : VolumeRecord) (j : VolumeId) :
    (h.putRecord record).getVolume j =
      if record.id = j then some record.localize else h.getVolume j := by
  simp only [getVolume, putRecord, Node.getVolume, Node.putRecord, Table.get_insert,
    StoredVolume.ofRecord_id]
  split
  · rfl
  · rfl

theorem volumeFile_of_get (hr : h.getVolume id = some record) :
    h.volumeFile id = h.files record.path := by
  simp [volumeFile, hr]

/-- What an accepted body does: the volume's local file has its bytes. -/
theorem writeBlobFromPath_ok {src : β} {stored : VolumeRecord}
    (hw : h.writeBlobFromPath id src = .ok (t, stored)) :
    ∃ record, h.getVolume id = some record ∧ record.backend.external = false ∧
      t.files = Function.update h.files (.disk id record.format) (some src) ∧
      t.getVolume id = some { record with
        path := .disk id record.format, sizeBytes := max record.sizeBytes (len src) } ∧
      (∀ j, j ≠ id → t.getVolume j = h.getVolume j) ∧ t.node.store = h.node.store ∧
      t.node.cluster = h.node.cluster ∧ t.isos = h.isos := by
  unfold writeBlobFromPath at hw
  cases hr : h.getVolume id with
  | none => simp [hr] at hw
  | some record =>
    have hid := id_of_getVolume hr
    cases hb : record.backend.external with
    | true => simp [hr, hb] at hw
    | false =>
      simp only [hr, hb, Bool.false_eq_true, if_false, Except.ok.injEq, Prod.mk.injEq] at hw
      obtain ⟨rfl, rfl⟩ := hw
      refine ⟨record, rfl, hb, by simp [writeFile, putRecord, hid], ?_, ?_, rfl, rfl, rfl⟩
      · rw [getVolume_putRecord, if_pos hid]
        simp [VolumeRecord.localize, hb, hid]
      · intro j hj
        rw [getVolume_putRecord, if_neg (by simpa [hid] using Ne.symm hj)]
        rfl

theorem peerVolumeBlobPut_ok {header : Option Nat} {body : β} {stored : VolumeRecord}
    (hw : h.peerVolumeBlobPut env self id header body = .ok (t, stored)) :
    h.writeBlobFromPath id body = .ok (t, stored) := by
  unfold peerVolumeBlobPut at hw
  cases hr : h.getVolume id with
  | none => simp [hr] at hw
  | some record =>
    simp only [hr] at hw
    split at hw
    · cases hw
    · cases he : h.writeBlobFromPath id body with
      | error err => simp [he] at hw
      | ok done => simpa [he] using hw

end Host

variable {env : Env} {dest : NodeId} {s d d' : Host β} {id : VolumeId}

/-- A push that reports success either found a file of the same nonzero length at the peer and
left it, or replaced the peer's file. -/
theorem peerPutBlob_ok {record : VolumeRecord} {file : β} (hr : s.getVolume id = some record)
    (hb : record.backend.external = false) (hf : s.files record.path = some file)
    (h : peerPutBlob env dest s d id = .ok d') :
    (sameSize env s dest d id file = true ∧ d' = d) ∨
      (sameSize env s dest d id file = false ∧ Answers env s dest (.put id) ∧
        ∃ stored, d.writeBlobFromPath id file = .ok (d', stored)) := by
  simp only [peerPutBlob, hr, hb, hf, Bool.false_eq_true, if_false] at h
  cases hsame : sameSize env s dest d id file with
  | true =>
    simp only [hsame, if_true, Except.ok.injEq] at h
    exact .inl ⟨rfl, h.symm⟩
  | false =>
    right
    simp only [hsame, Bool.false_eq_true, if_false] at h
    split at h
    · cases h
    · split at h
      · cases h
      · rename_i d₁ stored hcall
        cases h
        obtain ⟨hans, hput⟩ := call_ok hcall
        exact ⟨rfl, hans, stored, Host.peerVolumeBlobPut_ok hput⟩

theorem peerPutBlob_cases (h : peerPutBlob env dest s d id = .ok d') :
    d' = d ∨ ∃ record file stored, s.getVolume id = some record ∧
      record.backend.external = false ∧ s.files record.path = some file ∧
      d.writeBlobFromPath id file = .ok (d', stored) := by
  have h' := h
  unfold peerPutBlob at h'
  split at h'
  · cases h'
  · rename_i record hr
    split at h'
    · cases h'
      exact .inl rfl
    · rename_i hext
      split at h'
      · cases h'
      · rename_i file hf
        rcases peerPutBlob_ok hr (by simpa using hext) hf h with ⟨-, rfl⟩ | ⟨-, -, stored, hw⟩
        · exact .inl rfl
        · exact .inr ⟨record, file, stored, hr, by simpa using hext, hf, hw⟩

/-- The remote file passes for a copy when the peer answers that it has one of the length. -/
theorem sameSize_iff {file : β} :
    sameSize env s dest d id file = true ↔
      0 < len file ∧ Answers env s dest (.stat id) ∧
        ∃ old, d.volumeFile id = some old ∧ len old = len file := by
  have hstat : ((d.volumeStat env dest (.stat id) id).exists = true ∧
      (d.volumeStat env dest (.stat id) id).size = len file) ↔
      ∃ old, d.volumeFile id = some old ∧ len old = len file := by
    unfold Host.volumeStat Host.localStat Host.volumeFile
    cases hr : d.getVolume id with
    | none => simp
    | some record =>
      cases hf : d.files record.path with
      | none => simp [hf]
      | some old => simp [hf]
  unfold sameSize peerVolumeStatRemote
  by_cases hans : Answers env s dest (.stat id)
  · rw [call_answers hans]
    simp only [Bool.and_eq_true, decide_eq_true_eq, beq_iff_eq, hans, true_and]
    rw [hstat]
  · have herr : ∀ r : VolumeStat, call env s dest (.stat id) (.ok r) ≠ .ok r :=
      fun r hr => hans (call_ok hr).1
    simp only [hans, false_and, and_false, iff_false]
    cases hc : call env s dest (.stat id) (.ok (d.volumeStat env dest (.stat id) id)) with
    | error err => simp
    | ok r =>
      have := (call_ok hc).2
      cases this
      exact absurd hc (herr _)

/-- After a successful push the peer's file is ours exactly when the peer was not taken for
up to date by its length, or was up to date. -/
theorem peerPutBlob_copies_iff {record : VolumeRecord} {file : β}
    (hr : s.getVolume id = some record) (hb : record.backend.external = false)
    (hf : s.files record.path = some file) (h : peerPutBlob env dest s d id = .ok d') :
    d'.volumeFile id = some file ↔
      (¬ sameSize env s dest d id file = true ∨ d.volumeFile id = some file) := by
  rcases peerPutBlob_ok hr hb hf h with ⟨hsame, rfl⟩ | ⟨hsame, _, stored, hput⟩
  · simp [hsame]
  · obtain ⟨rec', -, -, hfiles, hget, -⟩ := Host.writeBlobFromPath_ok hput
    simp [hsame, Host.volumeFile, hget, hfiles]

end Pertisk.Storage
