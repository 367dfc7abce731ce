import Pertisk.Disks.Refused
import Pertisk.Disks.Requests
import Pertisk.Lib.Run

namespace Pertisk.Disks
open Lib Storage Volume

/-- The requests that give a volume its name. -/
inductive Call (β : Type)
  | create (id : VolumeId) (req : CreateVolumeRequest) (configured : Option Nat)
  | clone (converts : Bool) (id newId : VolumeId) (req : CloneVolumeRequest)
  | rename (id : VolumeId) (name : String)
  | cloudinit (req : CloudInitIsoRequest) (bytes : β)

/-- What a request goes on with once a record is in the inventory. -/
inductive Rest
  | done
  | place (configured : Nat)
  | note (notes : Option String)
  | copy (source : VolumeRecord) (newId : VolumeId) (req : CloneVolumeRequest)

/-- What a request still has to do. In one turn it takes the lock of the inventory at most once, or
runs one command; other requests have their turns in between. -/
inductive Task (β : Type)
  | call (asked : Call β)
  | createFile (id : VolumeId) (req : CreateVolumeRequest) (configured : Nat)
  | makeFile (id : VolumeId) (req : CreateVolumeRequest) (configured : Nat)
  | makeOutside (backend : StorageBackend) (id : VolumeId) (req : CreateVolumeRequest)
  | readNote (id : VolumeId) (notes : String)
  | cloneFile (converts : Bool) (id newId : VolumeId) (req : CloneVolumeRequest)
  | cloneNamed (converts : Bool) (source : VolumeRecord) (newId : VolumeId)
      (req : CloneVolumeRequest)
  | copyFile (converts : Bool) (source : VolumeRecord) (newId : VolumeId)
      (req : CloneVolumeRequest)
  | readSource (source : VolumeRecord) (newId : VolumeId) (req : CloneVolumeRequest)
  | tag (now : Nat) (record source : VolumeRecord) (newId : VolumeId) (req : CloneVolumeRequest)
  | copyOutside (source : VolumeRecord) (newId : VolumeId) (req : CloneVolumeRequest)
  | renameFile (id : VolumeId) (name : String)
  | readNamed (id : VolumeId) (name : String)
  | moveOutside (current : VolumeRecord) (name : String)
  | put (record : VolumeRecord) (rest : Rest)

namespace VolumePool

variable {β : Type} (p : VolumePool β)

/-- `rbd rename` and `zfs rename` refuse a name that is taken in the backend. -/
def moveOutside (source dest : Spot) (command : Option (String × Option (Image β))) :
    VolumePool β × Except Fault Unit :=
  match command, p.images source, p.images dest with
  | some (text, _), _, _ => (p, .error (.failed text))
  | none, none, _ => (p, .error (.failed "No such file or directory"))
  | none, some _, some _ => (p, .error (.failed "File exists"))
  | none, some image, none => ((p.set source none).set dest (some image), .ok ())

end VolumePool

namespace Task

variable {β : Type} [Contents β] (a : Site) (luck : Luck β) (p : VolumePool β)

/-- A request that a check refuses, or that fails, has no more to do. -/
def after {α : Type} (r : VolumePool β × Except Fault α)
    (next : VolumePool β → α → Option (Task β)) : VolumePool β × Option (Task β) :=
  match r with
  | (p, .error _) => (p, none)
  | (p, .ok done) => (p, next p done)

def goOn {ε α : Type} (checked : Except ε α) (next : α → Option (Task β)) : Option (Task β) :=
  match checked with
  | .error _ => none
  | .ok done => next done

/-- What a request asks before its first step. -/
def begin : Call β → VolumePool β × Option (Task β)
  | .create id req configured =>
    (p, match a.node.cluster.quorumError a.now with
      | some _ => none
      | none =>
        let backend := req.backend.getD a.backend
        if backend.external then
          if a.cli backend then some (.makeOutside backend id req) else none
        else
          goOn (a.requireStorageBytes 0 "create volume") fun _ =>
            some (.createFile id req (configured.getD a.replicaCount)))
  | .clone converts id newId req =>
    (p, goOn (a.node.requireVolumeIdle id) fun _ =>
      goOn (p.getVolume id) fun source =>
        if source.backend.external then
          if a.cli source.backend then
            goOn (p.spot source) fun _ =>
              some (if req.linked then .readSource source newId req
                else .copyOutside source newId req)
          else none
        else
          let occupied := match p.images (.file (p.localPath source.id source.format)) with
            | some image => allocated image.active
            | none => 0
          goOn (a.requireStorageBytes occupied "clone volume") fun _ =>
            some (.cloneFile converts id newId req))
  | .rename id name =>
    (p, match a.node.cluster.quorumError a.now with
      | some _ => none
      | none =>
        if (trimmed name).isEmpty then none
        else
          goOn (p.getVolume id) fun current =>
            if current.name = trimmed name then none
            else if current.backend.external then
              goOn (a.node.requireVolumeIdle id) fun _ =>
                if a.cli current.backend then some (.moveOutside current name) else none
            else some (.renameFile id name))
  | .cloudinit req bytes => after (p.createCloudinitIso luck req bytes) fun _ _ => none

def goOnWith (record : VolumeRecord) : Rest → Option (Task β)
  | .done => none
  | .place configured => some (.put (Service.placed a.node a.now configured record) .done)
  | .note none => none
  | .note (some notes) => some (.readNote record.id notes)
  | .copy source newId req => some (.copyOutside source newId req)

def turn : Task β → VolumePool β × Option (Task β)
  | .call asked => begin a luck p asked
  | .createFile id req configured =>
    (p, goOn (p.createChecks req) fun _ => some (.makeFile id req configured))
  | .makeFile id req configured =>
    after (p.write (.file (p.localPath id req.format)) (VolumePool.blank req.format req.sizeBytes)
      luck.command) fun _ _ =>
      goOn (cleanVolumeNotes req.notes) fun notes =>
        some (.put
          { id := id, name := req.name, format := req.format, sizeBytes := req.sizeBytes
            path := .disk id req.format, notes := notes } (.place configured))
  | .makeOutside backend id req =>
    after (p.makeOutside backend req.name req.sizeBytes luck.command) fun p _ =>
      some (.put (p.outsideRecord a backend id req.name req.format req.sizeBytes)
        (.note req.notes))
  | .readNote id notes =>
    (p, goOn (cleanVolumeNotes (some notes)) fun notes =>
      goOn (p.getVolume id) fun record => some (.put { record with notes := notes } .done))
  | .cloneFile converts id newId req =>
    (p, if (trimmed req.name).isEmpty then none
      else goOn (p.getVolume id) fun source => some (.cloneNamed converts source newId req))
  | .cloneNamed converts source newId req =>
    (p, goOn (p.cloneChecks req) fun _ => some (.copyFile converts source newId req))
  | .copyFile converts source newId req =>
    match p.image (.file (p.localPath source.id source.format)) with
    | .error _ => (p, none)
    | .ok image =>
      let format := if req.linked then .qcow2 else source.format
      after (p.write (.file (p.localPath newId format))
        (VolumePool.cloneImage req.linked converts image) luck.command) fun _ _ =>
        some (.put
          { id := newId, name := req.name, format := format, sizeBytes := source.sizeBytes
            path := .disk newId format
            backingId := if req.linked then some source.id else none
            replicaCount := max source.replicaCount 1, backend := source.backend }
          (.place (max source.replicaCount 1)))
  | .readSource source newId req =>
    (p, if (trimmed (rbdCloneSnap req.name)).isEmpty then none
      else
        goOn (p.getVolume source.id) fun record =>
          goOn ((Edit.snapshot (rbdCloneSnap req.name) none a.now false).check record) fun _ =>
            some (.tag a.now record source newId req))
  | .tag now record source newId req =>
    match p.spot record with
    | .error _ => (p, none)
    | .ok s =>
      match p.image s with
      | .error _ => (p, none)
      | .ok image =>
        let edit := Edit.snapshot (rbdCloneSnap req.name) none now false
        let snap := Edit.entry p.tools record (rbdCloneSnap req.name) none now false
        after (p.capture s record image snap luck.command) fun p _ =>
          some (.put (edit.write p.tools record) (.copy source newId req))
  | .copyOutside source newId req =>
    match p.spot source with
    | .error _ => (p, none)
    | .ok s =>
      match p.image s with
      | .error _ => (p, none)
      | .ok image =>
        after (p.copyOutside source.backend req.linked req.name image luck.command) fun p _ =>
          some (.put (p.outsideRecord a source.backend newId req.name .raw source.sizeBytes) .done)
  | .renameFile id name =>
    (p, if p.volumes.rows.any (fun v => v.record.id != id && v.record.name == trimmed name) then none
      else some (.readNamed id name))
  | .readNamed id name =>
    (p, goOn (p.getVolume id) fun record =>
      if record.name = trimmed name then none
      else some (.put ((Edit.rename name).write p.tools record) .done))
  | .moveOutside current name =>
    match p.spot current with
    | .error _ => (p, none)
    | .ok s =>
      after (p.moveOutside s (.outside (p.outsidePlace current.backend (trimmed name)))
        luck.command) fun p _ => some (.put ((Edit.rename name).write p.tools current) .done)
  | .put record rest =>
    after (p.upsertVolume record luck.flush) fun _ record => goOnWith a record rest

end Task

/-- The volumes of a node, and the requests that are under way. -/
structure Desk (β : Type) where
  pool : VolumePool β
  tasks : List (Task β)

/-- A request arrives, or one of those under way has a turn, with the node as it is by then. -/
inductive Turn (β : Type)
  | arrive (asked : Call β)
  | turn (i : Nat) (a : Site) (luck : Luck β)

namespace Desk

variable {β : Type} [Contents β]

def step (d : Desk β) : Turn β → Option (Desk β)
  | .arrive asked => some { d with tasks := d.tasks ++ [.call asked] }
  | .turn i a luck =>
    match d.tasks[i]? with
    | none => none
    | some task =>
      match task.turn a luck d.pool with
      | (p, none) => some { pool := p, tasks := d.tasks.eraseIdx i }
      | (p, some next) => some { pool := p, tasks := d.tasks.set i next }

end Desk

end Pertisk.Disks

namespace Pertisk.Disks
open Lib Storage Volume

namespace VolumePool

variable {β : Type} {p : VolumePool β}

theorem putRecord_fst (record : VolumeRecord) (flush : Option String) :
    (p.putRecord record flush).1 = (p.upsertVolume record flush).1 := by
  unfold putRecord upsertVolume
  rw [StoredVolume.ofRecord_localize]

theorem upsertVolume_cases (p : VolumePool β) (record : VolumeRecord) (flush : Option String) :
    p.upsertVolume record flush =
      ({ p with volumes := p.volumes.insert (.ofRecord record) }, .ok record) ∨
    ∃ text, p.upsertVolume record flush =
      ({ p with volumes := p.volumes.insert (.ofRecord record) }, .error (.failed text)) := by
  cases flush with
  | none => exact .inl rfl
  | some text => exact .inr ⟨text, rfl⟩

end VolumePool

namespace Task

variable {β : Type} {a : Site} {p : VolumePool β}

/-- The turns of a request that has the node to itself. -/
def inTurn [Contents β] (a : Site) :
    List (Luck β) → VolumePool β × Option (Task β) → VolumePool β
  | luck :: lucks, (p, some task) => inTurn a lucks (task.turn a luck p)
  | _, (p, _) => p

variable [Contents β]

theorem put_alone (record : VolumeRecord) (luck : Luck β) :
    inTurn a [luck] (p, some (.put record .done)) = (p.putRecord record luck.flush).1 := by
  rw [VolumePool.putRecord_fst]
  rcases p.upsertVolume_cases record luck.flush with hput | ⟨text, hput⟩
  · simp only [inTurn, turn, hput, after, goOnWith]
  · simp only [inTurn, turn, hput, after]

/-- A new file is listed, and then with the nodes for its copies. -/
theorem place_alone (luck next : Luck β) (record : VolumeRecord) (configured : Nat)
    (bump : Option String) :
    inTurn a [luck, next] (p, some (.put record (.place configured))) =
      (match p.upsertVolume record luck.flush with
        | (p, .error fault) => (p, .error fault)
        | (p, .ok record) =>
          VolumePool.finish
            (p.putRecord (Service.placed a.node a.now configured record) next.flush) bump :
        VolumePool β × Except Fault VolumeRecord).1 := by
  rcases p.upsertVolume_cases record luck.flush with hput | ⟨text, hput⟩
  · simp only [inTurn, turn, hput, after, goOnWith]
    rw [VolumePool.finish_fst]
    exact put_alone (a := a) _ next
  · simp only [inTurn, turn, hput, after]

/-- A new volume of a backend is listed, and then with its note. -/
theorem note_alone (luck next : Luck β) (record : VolumeRecord) (notes : Option String)
    (hexternal : record.backend.external = true) :
    inTurn a [luck, luck, next] (p, some (.put record (.note notes))) =
      (match p.putRecord record luck.flush with
        | (p, .error fault) => (p, .error fault)
        | (p, .ok record) =>
          match notes with
          | none => (p, .ok record)
          | some notes => p.setVolumeNotes record.id (some notes) next.flush :
        VolumePool β × Except Fault VolumeRecord).1 := by
  have hlocal : record.localize = record := by
    unfold VolumeRecord.localize
    rw [if_pos hexternal]
  unfold VolumePool.putRecord
  rw [hlocal]
  rcases p.upsertVolume_cases record luck.flush with hput | ⟨text, hput⟩
  · cases notes with
    | none => simp only [inTurn, turn, hput, after, goOnWith]
    | some notes =>
      simp only [inTurn, turn, hput, after, goOnWith, VolumePool.setVolumeNotes]
      cases hclean : cleanVolumeNotes (some notes) with
      | error text => simp only [goOn, inTurn]
      | ok notes =>
        simp only [goOn]
        split
        · rename_i fault hget
          simp only [hget, inTurn]
        · rename_i current hget
          simp only [hget]
          rw [put_alone, VolumePool.putRecord_fst]
  · simp only [inTurn, turn, hput, after]

/-- A request for a volume that has the node to itself does what it does in one go. -/
theorem create_alone (luck next : Luck β) (id : VolumeId) (req : CreateVolumeRequest)
    (configured : Option Nat) :
    inTurn a [luck, luck, luck, luck, next] (p, some (.call (.create id req configured))) =
      (p.requestCreate a luck next id req configured).1 := by
  simp only [VolumePool.requestCreate, inTurn, turn, begin]
  cases hquorum : a.node.cluster.quorumError a.now with
  | some text => rfl
  | none =>
    dsimp only
    by_cases hexternal : (req.backend.getD a.backend).external = true
    · rw [if_pos hexternal, if_pos hexternal, VolumePool.finish_fst]
      unfold VolumePool.createOutside
      by_cases hcli : a.cli (req.backend.getD a.backend) = true
      · rw [if_pos hcli, if_neg (by simp [hcli])]
        simp only [inTurn, turn]
        rcases p.makeOutside (req.backend.getD a.backend) req.name req.sizeBytes luck.command with
          ⟨q, fault | u⟩
        · rfl
        · exact note_alone luck next _ req.notes hexternal
      · rw [if_neg hcli, if_pos (by simp [hcli])]
        rfl
    · rw [if_neg hexternal, if_neg hexternal]
      cases hspace : a.requireStorageBytes 0 "create volume" with
      | error text => rfl
      | ok u =>
        simp only [goOn, inTurn, turn, VolumePool.createVolume]
        cases hchecks : p.createChecks req with
        | error text => rfl
        | ok u =>
          simp only [goOn, inTurn, turn]
          rcases p.write (.file (p.localPath id req.format))
            (VolumePool.blank req.format req.sizeBytes) luck.command with ⟨q, fault | u⟩
          · rfl
          · simp only [after]
            cases hnotes : cleanVolumeNotes req.notes with
            | error text => rfl
            | ok notes => exact place_alone luck next _ _ next.bump

end Task

end Pertisk.Disks
