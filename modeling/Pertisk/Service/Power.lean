import Pertisk.Service.Snapshots

namespace Pertisk.Service
open Lib Op Volume Storage

variable (env : Env)

def mentions (text word : String) : Bool :=
  decide (word.toList <:+: text.toList.map Char.toLower)

/-- What stands behind the last slash. -/
def fileNameOf : PathBuf → String
  | .disk id format =>
    let ext := match format with
      | .raw => "raw"
      | .qcow2 => "qcow2"
    s!"{uuidText id}.{ext}"
  | .iso name => name
  | .text s => String.ofList (s.toList.reverse.takeWhile (· ≠ '/')).reverse

def isoIsCidata (disk : DiskSpec) : Bool :=
  mentions (disk.isoName.getD "") "cidata" || mentions (fileNameOf disk.path) "cidata"

/-- Paths as this node has them; what is not in its inventory keeps its path. -/
def localizeDisks : List DiskSpec → Op (List DiskSpec)
  | [] => pure []
  | disk :: rest => do
    let n ← node
    let o ← ask env
    let path := match disk.volumeId, disk.isoName with
      | some id, _ =>
        match n.getVolume id with
        | some vol => if vol.backend.external then vol.path else .disk vol.id vol.format
        | none => disk.path
      | none, some _ =>
        match o.iso with
        | some iso => iso.path
        | none => disk.path
      | none, none => disk.path
    let others ← localizeDisks rest
    pure ({ disk with path := path } :: others)

/-- The cloud-init ISO of a clone is put back when the record has lost it. -/
def restoreCloneCidata (record : VmRecord) : Op VmRecord := do
  if record.spec.disks.any isoIsCidata then pure record
  else do
    let o ← ask env
    match o.iso with
    | none => pure record
    | some iso =>
      let record := withDisk record (isoDisk iso)
      if (nonBlank record.spec.sshUser).isSome then pure record
      else pure { record with
        spec := { record.spec with sshUser := some (defaultCloudUser [record.spec.name]) } }

def prepare (record : VmRecord) : Op VmRecord := do
  let disks ← localizeDisks env record.spec.disks
  let record ← restoreCloneCidata env { record with spec := { record.spec with disks := disks } }
  upsertVm record
  pure record

/-- Refuse to start when host disk or free RAM is too low. -/
def ensureStartCapacity (record : VmRecord) : Op Unit := do
  let o ← ask env
  let n ← node
  let running := n.store.rows.filter (fun vm => vm.id != record.id && vm.state == .running &&
    vm.nodeId == some n.cluster.selfId)
  let runningMem := (running.map (fun vm => vm.spec.memoryMib)).sum
  let need := record.spec.memoryMib
  check (match o.freeMib with
    | some avail =>
      if avail < 1024 then
        .error (.capacity (s!"only {avail} MiB free on storage (need ≥ 1024 MiB); " ++
          "free disk or expand the appliance volume"))
      else .ok ()
    | none => .ok ())
  check (match o.hostMib with
    | some host =>
      let reserve := hostMemoryReserveMib (min host u32Max)
      if saturatingAdd runningMem need ≤ host - reserve then .ok ()
      else .error (.capacity (s!"guest needs {need} MiB; already running {runningMem} MiB of " ++
        s!"guests on a {host} MiB host ({host - reserve} MiB available after {reserve} MiB " ++
        "host reserve)"))
    | none => .ok ())

/-- A hypervisor process is made when there is none that can be used. -/
def needsCreate (record : VmRecord) : Op Bool := do
  let o ← ask env
  let socket ← ask env
  pure (if env.config.driver = .mock then record.state == .created || record.state == .failed
    else !o.yes || record.apiSocket.isNone || !socket.yes)

def createProcess (record : VmRecord) : Op VmRecord := do
  let o ← ask env
  match o.created with
  | .ok created => do
    upsertVm (record.withCreated (some created))
    pure (record.withCreated (some created))
  | .error text => do
    upsertVm (record.failed text)
    check (.error (.other text))

/-- The part of `start_local` behind its checks of the record. -/
def launch (record : VmRecord) : Op VmRecord := do
  ensureStartCapacity env record
  run env (fun text => text)
  each record.spec.nets (fun _ => run env (fun text => text))
  let recreate ← needsCreate env record
  let record ← (if recreate then createProcess env record else pure record)
  let o ← ask env
  let n ← node
  match o.started with
  | .ok pid => do
    upsertVm (record.started n.cluster.selfId none pid)
    bump
    pure (record.started n.cluster.selfId none pid)
  | .error text => do
    upsertVm (record.failed text)
    check (.error (.other text))

/-- The record is read once more behind the start gate. -/
def startLocal (id : VmId) : Op VmRecord := do
  let record ← getVm id
  requireNotTemplate record "start"
  let record ← prepare env record
  demand (record.state ≠ .running) (.other "invalid vm state running for start")
  let record ← getVm id
  let record ← prepare env record
  if record.state = .running then pure record else launch env record

def peerVm (word : String → String) : Op VmRecord := do
  let o ← ask env
  check (o.peerVm.mapError (fun text => .other s!"cluster peer: {word text}"))

/-- The destination's holders of one volume get it into the record, and the file. -/
def ensureVolumeOn (dest : NodeId) (id : VolumeId) : Op Unit := do
  let n ← node
  match n.getVolume id with
  | none => pure ()
  | some vol =>
    if vol.backend = .rbd then pure ()
    else do
      demand (vol.backend ≠ .zfs)
        (.other s!"cluster peer: volume {vol.name} is a ZFS zvol on this node and cannot move")
      onlyIf (!vol.replicas.contains dest) (do
        let _ ← putRecord (joined dest vol)
        bump)
      run env (fun text =>
        s!"cluster peer: ensure volume {vol.name} on {uuidText dest}: {text}")
      let copied ← ask env
      onlyIf (!copied.yes) (run env (fun text =>
        s!"cluster peer: sync volume {vol.name} to {uuidText dest}: {text}"))

/-- Make sure `dest` has disk files before peer start/migrate. -/
def ensureVolumesOnNode (vm : VmRecord) (dest : NodeId) : Op Unit := do
  let n ← node
  if dest = n.cluster.selfId then pure ()
  else each (vm.spec.disks.filterMap DiskSpec.volumeId) (ensureVolumeOn env dest)

/-- The peers are tried in turn. A file that came over is written before this node is put among
the holders. -/
def pullFrom (n : Node) (vol : VolumeRecord) : List NodeId → Op Unit
  | [] => check (.error (.other
      s!"cluster peer: volume {vol.name} has no reachable replica for this node"))
  | _ :: rest => do
    let o ← ask env
    let pulled ← Proc.attempt (edit env true (.writeBlob o.bytes) vol.id)
    match pulled with
    | .ok _ =>
      onlyIf (!vol.replicas.contains n.cluster.selfId)
        (ignore (putRecord (joined n.cluster.selfId vol)))
    | .error _ => pullFrom n vol rest

def pullVolume (id : VolumeId) : Op Unit := do
  let n ← node
  match n.getVolume id with
  | none => pure ()
  | some vol =>
    if vol.backend.external then pure ()
    else do
      let o ← ask env
      if o.yes then
        onlyIf (!vol.replicas.contains n.cluster.selfId)
          (ignore (putRecord (joined n.cluster.selfId vol)))
      else pullFrom env n vol (pullSources (n.cluster.onlineIds o.nowMs) n.cluster.selfId vol)

/-- Pull any missing local disks from a peer that holds a replica. -/
def pullMissingVolumes (vm : VmRecord) : Op Unit :=
  each (vm.spec.disks.filterMap DiskSpec.volumeId) (pullVolume env)

/-- The hypervisor has the guest's process, or it has not. -/
def applyRunWith (alive : Bool) (record : VmRecord) : Op VmRecord := do
  let n ← node
  let record := { record with nodeId := some n.cluster.selfId }
  if alive then do
    upsertVm { record with state := .running }
    pure { record with state := .running }
  else do
    let record := record.toRun n.cluster.selfId env.config.runDir
    upsertVm record
    ignore (run env (fun text => text))
    pullMissingVolumes env record
    startLocal env record.id

def applyRun (record : VmRecord) : Op VmRecord := do
  let o ← ask env
  applyRunWith env o.yes record

def peerRun (dest : NodeId) (record : VmRecord) : Op VmRecord := do
  let n ← node
  if dest = n.cluster.selfId then applyRun env record else peerVm env (fun text => text)

def start (id : VmId) : Op VmRecord := do
  requireQuorum env
  let record ← getVm id
  requireNotTemplate record "start"
  if record.state = .running then pure record
  else do
    let o ← ask env
    let n ← node
    let affinity := n.volumeAffinity record.spec
    let loads := n.loads o.nowMs
    let picked := match scheduleSpread loads record.spec affinity.head? affinity
        (n.groupNodes record.spec (some record.id)) with
      | some dest => .ok dest
      | none => .error (.unschedulable (Migrate.unschedulableDetail loads))
    let dest ← check (match record.nodeId with
      | some current => if affinity.isEmpty || affinity.contains current then .ok current else picked
      | none => picked)
    onlyIf (record.nodeId != some dest) (upsertVm { record with nodeId := some dest })
    let record := { record with nodeId := some dest }
    if dest = n.cluster.selfId then startLocal env id
    else do
      ensureVolumesOnNode env record dest
      let started ← peerRun env dest record
      upsertVm started
      bump
      pure started

/-- The guest's process is gone: its record says so, and the peers hear of it. -/
def settle (record : VmRecord) : Op VmRecord := do
  upsertVm record.stopped
  bump
  syncVmVolumes env record.stopped
  pure record.stopped

/-- `stop_local` and `shutdown_local` once they have the record. -/
def endLocal (record : VmRecord) : Op VmRecord := do
  let o ← ask env
  onlyIf o.yes (run env (fun text => text))
  settle env record

def stopLocal (id : VmId) : Op VmRecord := do
  let record ← getVm id
  endLocal env record

def requireRunning (record : VmRecord) (op : String) : Op Unit :=
  demand (record.state = .running) (.other s!"invalid vm state {record.state.text} for {op}")

def shutdownLocal (id : VmId) : Op VmRecord := do
  let record ← getVm id
  requireRunning record "shutdown"
  endLocal env record

/-- An installer's ISO is attached, and a disk that looks installed. -/
def preferDiskRecreate (o : Outside) (record : VmRecord) : Bool :=
  record.spec.disks.any (fun disk => disk.cdrom && !isoIsCidata disk) &&
    record.spec.disks.any (fun disk => !disk.cdrom) && o.yes

/-- The restart takes the guest down and starts it anew. -/
def recreates (o : Outside) (record : VmRecord) : Bool :=
  env.config.driver == .cloudHypervisor || (env.config.driver == .qemu && preferDiskRecreate o record)

def restartWith (o : Outside) (record : VmRecord) : Op VmRecord :=
  if recreates env o record then do
    let _ ← shutdownLocal env record.id
    startLocal env record.id
  else do
    run env (fun text => text)
    pure record

def restartLocal (id : VmId) : Op VmRecord := do
  let record ← getVm id
  requireRunning record "restart"
  let o ← ask env
  restartWith env o record

/-- `stop`, `shutdown` and `restart`: the node that has the guest does it. -/
def onOwner (op : String) (here : VmId → Op VmRecord) (id : VmId) : Op VmRecord := do
  requireQuorum env
  let record ← getVm id
  requireNotTemplate record op
  let n ← node
  if record.nodeId.getD n.cluster.selfId = n.cluster.selfId then here id
  else peerVm env (fun text => text)

def stop : VmId → Op VmRecord := onOwner env "stop" (stopLocal env)

def shutdown : VmId → Op VmRecord := onOwner env "shutdown" (shutdownLocal env)

def restart : VmId → Op VmRecord := onOwner env "restart" (restartLocal env)

def destroy (id : VmId) : Op Unit := do
  requireQuorum env
  let n ← node
  match n.store.get id with
  | none => pure ()
  | some record => do
    let o ← ask env
    -- only a hypervisor of this node that still has the process stops it
    check (match o.ran with
      | .error text =>
        if record.nodeId.getD n.cluster.selfId = n.cluster.selfId ∧ o.yes = true then
          .error (.other text)
        else .ok ()
      | .ok _ => .ok ())
    removeVm id
    each (record.spec.disks.filterMap DiskSpec.volumeId) (fun volumeId => do
      let n ← node
      if n.volumeUsers volumeId ≠ [] ∨ n.volumeIsBacking volumeId then pure ()
      else ignore (deleteVolume env volumeId))
    bump

/-- A peer sends its record of the guest along; `here` is what it asks for. -/
def applyThen (here : VmId → Op VmRecord) (record : VmRecord) : Op VmRecord := do
  upsertVm record
  here record.id

def applyStop : VmRecord → Op VmRecord := applyThen (stopLocal env)

def applyShutdown : VmRecord → Op VmRecord := applyThen (shutdownLocal env)

def applyRestart : VmRecord → Op VmRecord := applyThen (restartLocal env)

/-- Running QEMU guest; the ISOs of its CD-ROMs are in the library. -/
def canLiveMigrate (vm : VmRecord) : Op Bool := do
  let o ← ask env
  let n ← node
  pure (vm.state == .running && env.config.driver == .qemu &&
    vm.spec.disks.all (fun disk =>
      if disk.cdrom then disk.isoName.isSome && o.yes
      else
        match disk.volumeId.bind n.getVolume with
        | none => false
        | some vol => vol.backend == .rbd || vol.backend == .replica) &&
    vm.spec.disks.any (fun disk => !disk.cdrom))

/-- The destination listens, the disks are mirrored, the guest goes over and is resumed. -/
def liveMigrate (dest : NodeId) : Op VmRecord := do
  run env (fun text => s!"cluster peer: live migration listen: {text}")
  run env (fun text => s!"cluster peer: disk mirror failed; guest is still on the source: {text}")
  run env (fun text => s!"cluster peer: live migration failed; guest is still on the source: {text}")
  let started ← peerVm env (fun text => s!"live migration landed but resume failed: {text}")
  ignore (run env (fun text => text))
  let started := { started with nodeId := some dest, state := .running }
  upsertVm started
  bump
  pure started

def migrate (id : VmId) (target : Option NodeId) : Op VmRecord := do
  let o ← ask env
  let n ← node
  match Migrate.plan n o.nowMs n.cluster.selfId id target with
  | .refuse text => check (.error (.other text))
  | .stay record => pure record
  | .move call => do
    ensureVolumesOnNode env call.record call.dest
    let live ← canLiveMigrate env call.record
    if live then do
      run env (fun text => s!"cluster peer: {text}")
      liveMigrate env call.dest
    else do
      let started ← peerRun env call.dest call.record
      ignore (run env (fun text => text))
      let record := { started with nodeId := some call.dest }
      upsertVm record
      bump
      pure record

/-- Migrate the running guests off a node, one after the other. -/
def drainNode (at_ : Option NodeId) : Op Unit := do
  requireQuorum env
  let n ← node
  let from_ := at_.getD n.cluster.selfId
  let guests := n.store.rows.filter (fun vm =>
    !vm.template && vm.nodeId == some from_ && vm.state == .running)
  each guests (fun vm => do
    let o ← ask env
    let n ← node
    let loads := (n.loads o.nowMs).filter (fun load => load.id != from_)
    let dest ← check (match scheduleSpread loads vm.spec none (n.volumeAffinity vm.spec)
        (n.groupNodes vm.spec (some vm.id)) with
      | some dest => .ok dest
      | none => .error (.unschedulable (Migrate.unschedulableDetail loads)))
    let _ ← migrate env vm.id (some dest)
    pure ())

/-- A prepared guest is taken out, whatever comes of it. -/
def takeIncoming (id : VmId) : Op (Option VmRecord) :=
  Proc.look (fun b => b.incoming.find? (fun r => r.id == id))
    (fun b => { b with incoming := b.incoming.filter (fun r => r.id != id) }) (fun _ => rfl)

def finishIncoming (id : VmId) : Op VmRecord := do
  let prepared ← takeIncoming id
  let record ← check (match prepared with
    | some record => .ok record
    | none => .error (.other s!"cluster peer: no incoming migration for {id.text}"))
  run env (fun text => text)
  let n ← node
  let record := { record with
    state := .running, nodeId := some n.cluster.selfId, lastError := none }
  upsertVm record
  bump
  pure record

section
variable {env : Env}

theorem restoreCloneCidata_ok {record r : VmRecord} {b b' : Noted Book.generation}
    (h : restoreCloneCidata env record b = (.ok r, b')) :
    r.state = record.state ∧ r.id = record.id := by
  unfold restoreCloneCidata at h
  split at h
  · cases h
    exact ⟨rfl, rfl⟩
  · obtain ⟨o, m, -, h⟩ := Proc.bind_ok h
    cases hiso : o.iso with
    | none =>
      simp only [hiso] at h
      cases h
      exact ⟨rfl, rfl⟩
    | some iso =>
      simp only [hiso] at h
      split at h
      · cases h
        exact ⟨rfl, rfl⟩
      · cases h
        exact ⟨rfl, rfl⟩

/-- A record that is put in place keeps its id and its state, and is the one in the store. -/
theorem prepare_ok {record r : VmRecord} {b b' : Noted Book.generation}
    (h : prepare env record b = (.ok r, b')) :
    r.state = record.state ∧ r.id = record.id ∧ b'.state.node.store.get r.id = some r := by
  obtain ⟨disks, m, -, h⟩ := Proc.bind_ok h
  obtain ⟨r', m', hcidata, h⟩ := Proc.bind_ok h
  obtain ⟨_, m'', hput, h⟩ := Proc.bind_ok h
  cases h
  have hkept := restoreCloneCidata_ok hcidata
  exact ⟨hkept.1, hkept.2, upsertVm_ok hput⟩

theorem settles_launch (record : VmRecord) : Proc.Settles (launch env record) := by
  refine .of_bind (fun _ => .of_bind (fun _ => .of_bind (fun _ => .of_bind (fun recreate => ?_))))
  refine .of_bind (fun record => .of_bind (fun o => .of_bind (fun n => ?_)))
  split
  · exact .of_bind (fun _ => settles_bump_pure _)
  · exact .of_bind (fun _ => settles_fail _)

/-- Nobody else is at the record between the two looks, so the second finds it fit too. -/
theorem settles_startLocal (id : VmId) : Proc.Settles (startLocal env id) := by
  intro b a b' h
  obtain ⟨record, m, hget, h⟩ := Proc.bind_ok h
  obtain ⟨_, m₁, -, h⟩ := Proc.bind_ok h
  obtain ⟨record₁, m₂, hprepare, h⟩ := Proc.bind_ok h
  obtain ⟨_, m₃, hdemand, h⟩ := Proc.bind_ok h
  obtain ⟨record₂, m₄, hget₂, h⟩ := Proc.bind_ok h
  obtain ⟨record₃, m₅, hprepare₂, hlaunch⟩ := Proc.bind_ok h
  obtain ⟨-, hid, hstored⟩ := prepare_ok hprepare
  obtain ⟨hrunning, rfl⟩ := demand_ok hdemand
  obtain ⟨rfl, hfound⟩ := getVm_ok hget
  obtain ⟨rfl, hfound₂⟩ := getVm_ok hget₂
  rw [hid, Table.key_of_get hfound, hfound₂] at hstored
  cases hstored
  rw [if_neg ((prepare_ok hprepare₂).1 ▸ hrunning)] at hlaunch
  exact settles_launch record₃ m₅ a b' hlaunch

theorem settles_endLocal (record : VmRecord) : Proc.Settles (endLocal env record) := by
  refine .of_bind (fun o => .of_bind (fun _ => .of_bind (fun _ => ?_)))
  exact settles_bump.bind (fun _ => ((still_syncVmVolumes _).bind (fun _ => .pure _)).keeps)

theorem settles_stopLocal (id : VmId) : Proc.Settles (stopLocal env id) :=
  .of_bind (fun record => settles_endLocal record)

theorem settles_shutdownLocal (id : VmId) : Proc.Settles (shutdownLocal env id) :=
  .of_bind (fun record => .of_bind (fun _ => settles_endLocal record))

theorem settles_restartWith {o : Outside} {record : VmRecord} (h : recreates env o record = true) :
    Proc.Settles (restartWith env o record) := by
  unfold restartWith
  rw [if_pos h]
  exact .of_bind (fun _ => settles_startLocal record.id)

theorem still_restartWith {o : Outside} {record : VmRecord} (h : recreates env o record = false) :
    Proc.Still (restartWith env o record) := by
  unfold restartWith
  rw [if_neg (by simp [h])]
  exact (still_run env _).bind (fun _ => .pure _)

theorem keeps_restartLocal (id : VmId) : Proc.Keeps (restartLocal env id) := by
  refine (still_getVm id).keeps.bind (fun record => (still_demand _ _).keeps.bind (fun _ => ?_))
  refine (still_ask env).keeps.bind (fun o => ?_)
  cases h : recreates env o record with
  | true => exact (settles_restartWith h).keeps
  | false => exact (still_restartWith h).keeps

/-- What `apply_restart` does behind the record that the peer sent. -/
theorem applyRestart_ok {record r : VmRecord} {b b' : Noted Book.generation}
    (h : applyRestart env record b = (.ok r, b')) :
    ∃ m, b.Unmoved m ∧ restartWith env (env.answers b.state.asked) record m = (.ok r, b') := by
  obtain ⟨_, m, hput, h⟩ := Proc.bind_ok h
  obtain ⟨found, m₁, hget, h⟩ := Proc.bind_ok h
  obtain ⟨_, m₂, hrunning, h⟩ := Proc.bind_ok h
  obtain ⟨o, m₃, hask, hwith⟩ := Proc.bind_ok h
  have hstored := upsertVm_ok hput
  have hunmoved := (silent_upsertVm record).unmoved hput
  have hasked : m.state.asked = b.state.asked := by
    cases hput
    rfl
  have hasks := (still_ask env).silent.unmoved hask
  obtain ⟨rfl, hfound⟩ := getVm_ok hget
  obtain ⟨-, rfl⟩ := demand_ok hrunning
  rw [hstored] at hfound
  cases hfound
  rw [ask_ok hask, hasked] at hwith
  exact ⟨_, hunmoved.trans hasks, hwith⟩

theorem settles_applyRunWith (record : VmRecord) :
    Proc.Settles (applyRunWith env false record) := by
  refine .of_bind (fun n => ?_)
  simp only [Bool.false_eq_true, if_false]
  exact .of_bind (fun _ => .of_bind (fun _ => .of_bind (fun _ => settles_startLocal _)))

theorem silent_applyRunWith (record : VmRecord) : Proc.Silent (applyRunWith env true record) := by
  refine still_node.silent.bind (fun n => ?_)
  simp only [if_true]
  exact (silent_upsertVm _).bind (fun _ => (Proc.Still.pure _).silent)

theorem silent_join (n : Node) (vol : VolumeRecord) :
    Proc.Silent (onlyIf (!vol.replicas.contains n.cluster.selfId)
      (ignore (putRecord (joined n.cluster.selfId vol)))) :=
  silent_onlyIf (silent_ignore (silent_putRecord _))

theorem silent_pullFrom (n : Node) (vol : VolumeRecord) (peers : List NodeId) :
    Proc.Silent (pullFrom env n vol peers) := by
  induction peers with
  | nil => exact (still_check _).silent
  | cons peer peers ih =>
    refine (still_ask env).silent.bind (fun o => ?_)
    refine (silent_edit true _ vol.id).attempt.bind (fun pulled => ?_)
    split
    · exact silent_join n vol
    · exact ih

theorem silent_pullVolume (id : VolumeId) : Proc.Silent (pullVolume env id) := by
  refine still_node.silent.bind (fun n => ?_)
  split
  · exact (Proc.Still.pure _).silent
  · split
    · exact (Proc.Still.pure _).silent
    · refine (still_ask env).silent.bind (fun o => ?_)
      split
      · exact silent_join n _
      · exact silent_pullFrom n _ _

theorem silent_pullMissingVolumes (vm : VmRecord) : Proc.Silent (pullMissingVolumes env vm) :=
  .each (fun id => silent_pullVolume id)

theorem still_peerVm (word : String → String) : Proc.Still (peerVm env word) :=
  (still_ask env).bind (fun _ => still_check _)

theorem keeps_onOwner {op : String} {here : VmId → Op VmRecord} (h : ∀ id, Proc.Keeps (here id))
    (id : VmId) : Proc.Keeps (onOwner env op here id) := by
  refine (still_requireQuorum env).keeps.bind (fun _ => (still_getVm id).keeps.bind (fun r => ?_))
  refine (still_demand _ _).keeps.bind (fun _ => still_node.keeps.bind (fun n => ?_))
  split
  · exact h id
  · exact (still_peerVm _).keeps

theorem keeps_ensureVolumeOn (dest : NodeId) (id : VolumeId) :
    Proc.Keeps (ensureVolumeOn env dest id) := by
  refine still_node.keeps.bind (fun n => ?_)
  split
  · exact (Proc.Still.pure _).keeps
  · split
    · exact (Proc.Still.pure _).keeps
    · refine (still_demand _ _).keeps.bind (fun _ => Proc.Keeps.bind ?_ (fun _ => ?_))
      · exact keeps_onlyIf (Proc.Settles.of_bind (fun _ => settles_bump)).keeps
      · refine (still_run env _).keeps.bind (fun _ => (still_ask env).keeps.bind (fun o => ?_))
        exact (still_onlyIf (still_run env _)).keeps

/-- Each new holder of a volume is announced by itself. -/
theorem keeps_ensureVolumesOnNode (vm : VmRecord) (dest : NodeId) :
    Proc.Keeps (ensureVolumesOnNode env vm dest) := by
  refine still_node.keeps.bind (fun n => ?_)
  split
  · exact (Proc.Still.pure _).keeps
  · exact .each (fun id _ => keeps_ensureVolumeOn dest id)

theorem keeps_start (id : VmId) : Proc.Keeps (start env id) := by
  refine (still_requireQuorum env).keeps.bind (fun _ => (still_getVm id).keeps.bind (fun r => ?_))
  refine (still_demand _ _).keeps.bind (fun _ => ?_)
  split
  · exact (Proc.Still.pure _).keeps
  · refine Proc.Settles.keeps ?_
    refine .of_bind (fun o => .of_bind (fun n => .of_bind (fun dest => .of_bind (fun _ => ?_))))
    dsimp only
    split
    · exact settles_startLocal id
    · exact .of_bind (fun _ => .of_bind (fun _ => .of_bind (fun _ => settles_bump_pure _)))

theorem keeps_destroy (id : VmId) : Proc.Keeps (destroy env id) := by
  refine (still_requireQuorum env).keeps.bind (fun _ => still_node.keeps.bind (fun n => ?_))
  split
  · exact (Proc.Still.pure _).keeps
  · refine Proc.Settles.keeps ?_
    refine .of_bind (fun o => .of_bind (fun _ => .of_bind (fun _ => ?_)))
    exact .of_bind (fun _ => settles_bump)

theorem settles_applyThen {here : VmId → Op VmRecord} (h : ∀ id, Proc.Settles (here id))
    (record : VmRecord) : Proc.Settles (applyThen here record) := .of_bind (fun _ => h record.id)

theorem keeps_migrate (id : VmId) (target : Option NodeId) :
    Proc.Keeps (migrate env id target) := by
  refine (still_ask env).keeps.bind (fun o => still_node.keeps.bind (fun n => ?_))
  split
  · exact (still_check _).keeps
  · exact (Proc.Still.pure _).keeps
  · refine Proc.Settles.keeps ?_
    refine .of_bind (fun _ => .of_bind (fun live => ?_))
    split
    · refine .of_bind (fun _ => .of_bind (fun _ => .of_bind (fun _ => .of_bind (fun _ => ?_))))
      exact .of_bind (fun _ => .of_bind (fun _ => .of_bind (fun _ => settles_bump_pure _)))
    · refine .of_bind (fun started => .of_bind (fun _ => .of_bind (fun _ => ?_)))
      exact settles_bump_pure _

theorem keeps_drainNode (at_ : Option NodeId) : Proc.Keeps (drainNode env at_) := by
  refine (still_requireQuorum env).keeps.bind (fun _ => still_node.keeps.bind (fun n => ?_))
  refine .each (fun vm _ => (still_ask env).keeps.bind (fun o => still_node.keeps.bind (fun n => ?_)))
  refine (still_check _).keeps.bind (fun dest => (keeps_migrate vm.id _).bind (fun _ => ?_))
  exact (Proc.Still.pure _).keeps

theorem settles_finishIncoming (id : VmId) : Proc.Settles (finishIncoming env id) := by
  refine .of_bind (fun p => .of_bind (fun r => .of_bind (fun _ => .of_bind (fun n => ?_))))
  exact .of_bind (fun _ => settles_bump_pure _)

end

end Pertisk.Service
