import Mathlib.Data.List.Forall2
import Pertisk.Control.Store
import Pertisk.Lib.Text

namespace Pertisk.Http
open Control Lib PeerUrl

inductive Method
  | get | head | post | put | patch | delete | other
  deriving DecidableEq, Repr

/-- The functions that answer requests. -/
inductive Handler
  | health | login | openapi | session | changeOwnPassword | host | hostShutdown | hostReboot
  | getSettings | putSettings | testMail | hostShellWs | listUpdates | refreshUpdates
  | upgradeUpdates | listRepositories | addRepository | setRepository | clusterMetrics
  | nodeMetrics | eventsWs | list | create | showVm | updateVm | destroy | vmMetrics | start
  | stop | shutdown | restart | migrate | cloneVm | convertToTemplate | listVmBackups
  | createVmBackup | updateVmBackup | deleteVmBackup | restoreVmBackup | setBackupSchedule
  | clearBackupSchedule | setSnapshotSchedule | clearSnapshotSchedule | createVmSnapshot
  | updateVmSnapshot | deleteVmSnapshot | restoreVmSnapshot | cloneVmSnapshot | attachDisk
  | detachDisk | attachIso | detachIso | attachNic | detachNic | consoleInfo | consoleSerial
  | consoleInput | consoleWs | graphicsWs | guestSshWs | listVolumes | createVolume | showVolume
  | updateVolume | deleteVolume | renameVolume | resizeVolume | cloneVolume | snapshotVolume
  | updateVolumeSnapshot | deleteVolumeSnapshot | restoreVolume | listTemplates | createTemplate
  | listIsos | importIso | createCloudinitIso | updateIso | deleteIso | listNetworks
  | createNetwork | showNetwork | updateNetwork | deleteNetwork | renameNetwork | listTasks
  | listAudit | listUsers | createUser | deleteUser | setUserPassword | clusterStatus
  | clusterJoin | clusterLeave | clusterHa | clusterDrain | clusterRebalance | witnessClaim
  | clusterAccept | peerHeartbeat | peerSnapshot | peerAccept | peerRun | peerStop | peerShutdown
  | peerRestart | peerDrop | peerIncoming | peerIncomingFinish | peerIncomingAbort | peerForget
  | peerVolumeEnsure | peerVolumeSnapshot | peerVolumeDelete | peerVolumeStat | peerIsoStat
  | peerVolumeBlobGet | peerVolumeBlobPut | peerIsoPut | uploadIso | uploadVolumeImport
  | importTemplate | staticHandler
  deriving DecidableEq, Repr

structure Route where
  pattern : String
  methods : List (Method × Handler)
  deriving DecidableEq

/-- What is asked for with `HEAD` is answered as with `GET`. -/
def Route.handler (route : Route) (method : Method) : Option Handler :=
  ((route.methods.lookup method).or
    (if method = .head then route.methods.lookup .get else none))

def publicRoutes : List Route :=
  [⟨"/v1/health", [(.get, .health)]⟩,
    ⟨"/v1/login", [(.post, .login)]⟩,
    ⟨"/v1/openapi.json", [(.get, .openapi)]⟩]

def protectedRoutes : List Route :=
  [⟨"/v1/session", [(.get, .session)]⟩,
    ⟨"/v1/session/password", [(.post, .changeOwnPassword)]⟩,
    ⟨"/v1/host", [(.get, .host)]⟩,
    ⟨"/v1/host/shutdown", [(.post, .hostShutdown)]⟩,
    ⟨"/v1/host/reboot", [(.post, .hostReboot)]⟩,
    ⟨"/v1/settings", [(.get, .getSettings), (.put, .putSettings)]⟩,
    ⟨"/v1/settings/mail/test", [(.post, .testMail)]⟩,
    ⟨"/v1/node/shell/ws", [(.get, .hostShellWs)]⟩,
    ⟨"/v1/updates", [(.get, .listUpdates)]⟩,
    ⟨"/v1/updates/refresh", [(.post, .refreshUpdates)]⟩,
    ⟨"/v1/updates/upgrade", [(.post, .upgradeUpdates)]⟩,
    ⟨"/v1/repositories",
      [(.get, .listRepositories), (.post, .addRepository), (.patch, .setRepository)]⟩,
    ⟨"/v1/metrics", [(.get, .clusterMetrics)]⟩,
    ⟨"/v1/metrics/node", [(.get, .nodeMetrics)]⟩,
    ⟨"/v1/events/ws", [(.get, .eventsWs)]⟩,
    ⟨"/v1/vms", [(.get, .list), (.post, .create)]⟩,
    ⟨"/v1/vms/{id}", [(.get, .showVm), (.patch, .updateVm), (.delete, .destroy)]⟩,
    ⟨"/v1/vms/{id}/metrics", [(.get, .vmMetrics)]⟩,
    ⟨"/v1/vms/{id}/start", [(.post, .start)]⟩,
    ⟨"/v1/vms/{id}/stop", [(.post, .stop)]⟩,
    ⟨"/v1/vms/{id}/shutdown", [(.post, .shutdown)]⟩,
    ⟨"/v1/vms/{id}/restart", [(.post, .restart)]⟩,
    ⟨"/v1/vms/{id}/migrate", [(.post, .migrate)]⟩,
    ⟨"/v1/vms/{id}/clone", [(.post, .cloneVm)]⟩,
    ⟨"/v1/vms/{id}/template", [(.post, .convertToTemplate)]⟩,
    ⟨"/v1/vms/{id}/backups", [(.get, .listVmBackups), (.post, .createVmBackup)]⟩,
    ⟨"/v1/vms/{id}/backups/{backup_id}", [(.patch, .updateVmBackup), (.delete, .deleteVmBackup)]⟩,
    ⟨"/v1/vms/{id}/backups/{backup_id}/restore", [(.post, .restoreVmBackup)]⟩,
    ⟨"/v1/vms/{id}/backup-schedule",
      [(.put, .setBackupSchedule), (.delete, .clearBackupSchedule)]⟩,
    ⟨"/v1/vms/{id}/snapshot-schedule",
      [(.put, .setSnapshotSchedule), (.delete, .clearSnapshotSchedule)]⟩,
    ⟨"/v1/vms/{id}/snapshots", [(.post, .createVmSnapshot)]⟩,
    ⟨"/v1/vms/{id}/snapshots/{name}",
      [(.patch, .updateVmSnapshot), (.delete, .deleteVmSnapshot)]⟩,
    ⟨"/v1/vms/{id}/snapshots/{name}/restore", [(.post, .restoreVmSnapshot)]⟩,
    ⟨"/v1/vms/{id}/snapshots/{name}/clone", [(.post, .cloneVmSnapshot)]⟩,
    ⟨"/v1/vms/{id}/disks", [(.post, .attachDisk)]⟩,
    ⟨"/v1/vms/{id}/disks/{volume_id}", [(.delete, .detachDisk)]⟩,
    ⟨"/v1/vms/{id}/cdrom", [(.post, .attachIso)]⟩,
    ⟨"/v1/vms/{id}/cdrom/{iso}", [(.delete, .detachIso)]⟩,
    ⟨"/v1/vms/{id}/nics", [(.post, .attachNic)]⟩,
    ⟨"/v1/vms/{id}/nics/{tap}", [(.delete, .detachNic)]⟩,
    ⟨"/v1/vms/{id}/console", [(.get, .consoleInfo)]⟩,
    ⟨"/v1/vms/{id}/console/serial", [(.get, .consoleSerial)]⟩,
    ⟨"/v1/vms/{id}/console/input", [(.post, .consoleInput)]⟩,
    ⟨"/v1/vms/{id}/console/ws", [(.get, .consoleWs)]⟩,
    ⟨"/v1/vms/{id}/graphics/ws", [(.get, .graphicsWs)]⟩,
    ⟨"/v1/vms/{id}/ssh/ws", [(.get, .guestSshWs)]⟩,
    ⟨"/v1/volumes", [(.get, .listVolumes), (.post, .createVolume)]⟩,
    ⟨"/v1/volumes/{id}",
      [(.get, .showVolume), (.patch, .updateVolume), (.delete, .deleteVolume)]⟩,
    ⟨"/v1/volumes/{id}/rename", [(.post, .renameVolume)]⟩,
    ⟨"/v1/volumes/{id}/resize", [(.post, .resizeVolume)]⟩,
    ⟨"/v1/volumes/{id}/clone", [(.post, .cloneVolume)]⟩,
    ⟨"/v1/volumes/{id}/snapshots", [(.post, .snapshotVolume)]⟩,
    ⟨"/v1/volumes/{id}/snapshots/{name}",
      [(.patch, .updateVolumeSnapshot), (.delete, .deleteVolumeSnapshot)]⟩,
    ⟨"/v1/volumes/{id}/snapshots/{name}/restore", [(.post, .restoreVolume)]⟩,
    ⟨"/v1/templates", [(.get, .listTemplates), (.post, .createTemplate)]⟩,
    ⟨"/v1/isos", [(.get, .listIsos), (.post, .importIso)]⟩,
    ⟨"/v1/isos/cloud-init", [(.post, .createCloudinitIso)]⟩,
    ⟨"/v1/isos/{name}", [(.patch, .updateIso), (.delete, .deleteIso)]⟩,
    ⟨"/v1/networks", [(.get, .listNetworks), (.post, .createNetwork)]⟩,
    ⟨"/v1/networks/{id}",
      [(.get, .showNetwork), (.patch, .updateNetwork), (.delete, .deleteNetwork)]⟩,
    ⟨"/v1/networks/{id}/rename", [(.post, .renameNetwork)]⟩,
    ⟨"/v1/tasks", [(.get, .listTasks)]⟩,
    ⟨"/v1/audit", [(.get, .listAudit)]⟩,
    ⟨"/v1/users", [(.get, .listUsers), (.post, .createUser)]⟩,
    ⟨"/v1/users/{id}", [(.delete, .deleteUser)]⟩,
    ⟨"/v1/users/{id}/password", [(.post, .setUserPassword)]⟩,
    ⟨"/v1/cluster", [(.get, .clusterStatus)]⟩,
    ⟨"/v1/cluster/join", [(.post, .clusterJoin)]⟩,
    ⟨"/v1/cluster/leave", [(.post, .clusterLeave)]⟩,
    ⟨"/v1/cluster/ha", [(.post, .clusterHa)]⟩,
    ⟨"/v1/cluster/drain", [(.post, .clusterDrain)]⟩,
    ⟨"/v1/cluster/rebalance", [(.post, .clusterRebalance)]⟩,
    ⟨"/v1/witness/claim", [(.post, .witnessClaim)]⟩,
    ⟨"/v1/cluster/accept", [(.post, .clusterAccept)]⟩,
    ⟨"/v1/peer/heartbeat", [(.post, .peerHeartbeat)]⟩,
    ⟨"/v1/peer/snapshot", [(.post, .peerSnapshot)]⟩,
    ⟨"/v1/peer/accept", [(.post, .peerAccept)]⟩,
    ⟨"/v1/peer/run", [(.post, .peerRun)]⟩,
    ⟨"/v1/peer/stop", [(.post, .peerStop)]⟩,
    ⟨"/v1/peer/shutdown", [(.post, .peerShutdown)]⟩,
    ⟨"/v1/peer/restart", [(.post, .peerRestart)]⟩,
    ⟨"/v1/peer/drop", [(.post, .peerDrop)]⟩,
    ⟨"/v1/peer/incoming", [(.post, .peerIncoming)]⟩,
    ⟨"/v1/peer/incoming/finish", [(.post, .peerIncomingFinish)]⟩,
    ⟨"/v1/peer/incoming/abort", [(.post, .peerIncomingAbort)]⟩,
    ⟨"/v1/peer/forget", [(.post, .peerForget)]⟩,
    ⟨"/v1/peer/volumes/ensure", [(.post, .peerVolumeEnsure)]⟩,
    ⟨"/v1/peer/volumes/{id}/snapshot", [(.post, .peerVolumeSnapshot)]⟩,
    ⟨"/v1/peer/volumes/{id}", [(.delete, .peerVolumeDelete)]⟩,
    ⟨"/v1/peer/volumes/{id}/stat", [(.get, .peerVolumeStat)]⟩,
    ⟨"/v1/peer/isos/{name}/stat", [(.get, .peerIsoStat)]⟩]

def peerBlobs : List Route :=
  [⟨"/v1/peer/volumes/{id}/blob", [(.get, .peerVolumeBlobGet), (.put, .peerVolumeBlobPut)]⟩,
    ⟨"/v1/peer/isos/{name}", [(.put, .peerIsoPut)]⟩]

def largeUpload : List Route :=
  [⟨"/v1/isos/upload", [(.post, .uploadIso)]⟩,
    ⟨"/v1/volumes/import", [(.post, .uploadVolumeImport)]⟩,
    ⟨"/v1/templates/import", [(.post, .importTemplate)]⟩]

/-- The routes behind the middleware. A literal goes before a parameter in its place. -/
def guardedRoutes : List Route := largeUpload ++ protectedRoutes ++ peerBlobs

def segments (path : String) : List (List Char) := path.toList.splitOn '/'

/-- A parameter stands for any one segment that is not empty. -/
def segmentMatches (pattern segment : List Char) : Bool :=
  if pattern.head? = some '{' then !segment.isEmpty else pattern == segment

def Route.matches (route : Route) (path : String) : Bool :=
  let pattern := segments route.pattern
  let path := segments path
  pattern.length == path.length && (pattern.zip path).all (fun (p, s) => segmentMatches p s)

def find (routes : List Route) (path : String) : Option Route :=
  routes.find? (fun route => route.matches path)

structure ChangePasswordRequest where
  currentPassword : String
  newPassword : String

inductive Body
  | login (username password : String)
  | changePassword (req : ChangePasswordRequest)
  | other (bytes : List UInt8)

/-- `authorization` and `peer` are the headers, where they are there and are text. -/
structure Request where
  method : Method
  path : String
  query : Option String := none
  authorization : Option String := none
  peer : Option String := none
  body : Body := .other []

def bearerToken (authorization : Option String) : Option String := do
  let token ← stripPrefix (← authorization).toList "Bearer "
  let token := trim token
  if token.isEmpty then none else some (String.ofList token)

def queryToken (query : Option String) : Option String := do
  let pairs := (← query).toList.splitOn '&'
  let value ← pairs.findSome? (fun pair =>
    let value := (pair.dropWhile (· ≠ '=')).drop 1
    if pair.takeWhile (· ≠ '=') = "token".toList && !value.isEmpty then some value else none)
  return String.ofList value

def requestToken (req : Request) : Option String :=
  (bearerToken req.authorization).or (queryToken req.query)

def requiredRole (method : Method) (path : String) : Role :=
  if path = "/v1/session/password" then .viewer
  else if startsWith path.toList "/v1/users" then .admin
  else if startsWith path.toList "/v1/node/shell" || contains path.toList "/ssh/ws" then .operator
  else if method = .get then .viewer
  else .operator

/-- The secrets of the witness and of the cluster's nodes. -/
structure Secrets where
  witness : Option String
  peer : String

def Secrets.witnessOk (secrets : Secrets) (got : String) : Bool :=
  secrets.witness == some got && got ≠ ""

def Secrets.peerOk (secrets : Secrets) (got : String) : Bool := secrets.peer == got

def authMiddleware (secrets : Secrets) (db : Db) (req : Request) :
    Except ControlError AuthUser :=
  if req.path = "/v1/witness/claim" then
    if req.peer.any secrets.witnessOk then .ok ⟨"witness", "witness", .admin⟩
    else .error .unauthorized
  else if startsWith req.path.toList "/v1/peer/" then
    if req.peer.any secrets.peerOk then .ok ⟨"peer", "cluster", .admin⟩
    else .error .unauthorized
  else
    match requestToken req with
    | none => .error .unauthorized
    | some token => do
      let user ← db.authenticate token
      if user.role.allows (requiredRole req.method req.path) then .ok user
      else .error .forbidden

/-- They read and write nothing, whatever the events socket is sent. -/
def readers : List Handler :=
  [.health, .openapi, .session, .host, .getSettings, .listUpdates, .listRepositories,
    .clusterMetrics, .nodeMetrics, .eventsWs, .list, .vmMetrics, .listVmBackups, .consoleInfo,
    .consoleSerial, .listVolumes, .showVolume, .listTemplates, .listIsos, .listNetworks,
    .showNetwork, .listTasks, .listAudit, .clusterStatus]

/-- What a viewer reaches. -/
def viewerHandlers : List Handler :=
  [.changeOwnPassword, .showVm, .consoleWs, .graphicsWs] ++ readers

/-- The literals of the patterns that more than a viewer's role is asked for. -/
def Closed (fields : List (List Char)) : Prop :=
  [[], "v1".toList, "users".toList] <+: fields ∨
    [[], "v1".toList, "node".toList, "shell".toList] <+: fields ∨
    [[], "v1".toList, "peer".toList] <+: fields.dropLast ∨
    ["ssh".toList, "ws".toList] <:+ fields.drop 1

instance : DecidablePred Closed := fun _ => by
  unfold Closed
  infer_instance

def Literal (field : List Char) : Prop := field.head? ≠ some '{'

instance : DecidablePred Literal := fun _ => by
  unfold Literal
  infer_instance

variable {route : Route} {method : Method} {path : String} {lits p s : List (List Char)}
  {h : Handler}

theorem matches_iff :
    route.matches path = true ↔
      List.Forall₂ (fun p s => segmentMatches p s = true) (segments route.pattern)
        (segments path) := by
  unfold Route.matches
  dsimp only
  rw [Bool.and_eq_true, beq_iff_eq, List.all_eq_true, List.forall₂_iff_zip]
  exact and_congr_right fun _ => ⟨fun hall {p s} hmem => hall (p, s) hmem,
    fun hall x hmem => hall hmem⟩

/-- Literals stand for themselves. -/
theorem literal_eq (hm : List.Forall₂ (fun p s => segmentMatches p s = true) lits s)
    (hlits : ∀ field ∈ lits, Literal field) : s = lits := by
  induction hm with
  | nil => rfl
  | @cons p field ps fields hp _ ih =>
    unfold segmentMatches at hp
    rw [if_neg (hlits p List.mem_cons_self), beq_iff_eq] at hp
    rw [hp, ih (fun field hmem => hlits field (List.mem_cons_of_mem p hmem))]

theorem begins_with_literals (hm : List.Forall₂ (fun p s => segmentMatches p s = true) p s)
    (hp : lits <+: p) (hlits : ∀ field ∈ lits, Literal field) : lits <+: s := by
  have htake := List.forall₂_take lits.length hm
  rw [← List.prefix_iff_eq_take.mp hp] at htake
  rw [← literal_eq htake hlits]
  exact List.take_prefix _ _

theorem ends_with_literals (hm : List.Forall₂ (fun p s => segmentMatches p s = true) p s)
    (hp : lits <:+ p.drop 1) (hlits : ∀ field ∈ lits, Literal field) (hne : lits ≠ []) :
    ∃ a ≠ [], s = a ++ lits := by
  obtain ⟨b, hb⟩ := hp
  cases hm with
  | nil => 
    rw [List.drop_nil] at hb
    exact absurd (List.append_eq_nil_iff.mp hb).2 hne
  | @cons x y p s hx hm =>
    rw [List.drop_succ_cons, List.drop_zero] at hb
    have hdrop := List.forall₂_drop b.length hm
    rw [← hb, List.drop_left] at hdrop
    refine ⟨y :: s.take b.length, List.cons_ne_nil _ _, ?_⟩
    rw [List.cons_append, ← literal_eq hdrop hlits, List.take_append_drop]

theorem guarded_get : ∀ route ∈ guardedRoutes, ∀ h ∈ route.handler .get,
    h ∈ viewerHandlers ∨ Closed (segments route.pattern) := by decide +kernel

theorem startsWith_iff {s : List Char} {text : String} :
    startsWith s text = true ↔ text.toList <+: s := List.isPrefixOf_iff_prefix

theorem contains_of_suffix {s : List Char} {text : String} (h : text.toList <:+ s) :
    contains s text = true := by
  unfold contains
  exact List.any_eq_true.mpr
    ⟨_, (List.mem_tails _ _).mpr h, List.isPrefixOf_iff_prefix.mpr (List.prefix_refl _)⟩

/-- The path of a closed pattern says so itself. -/
theorem closed_path (hm : route.matches path = true) (hclosed : Closed (segments route.pattern)) :
    startsWith path.toList "/v1/users" = true ∨ startsWith path.toList "/v1/node/shell" = true ∨
      startsWith path.toList "/v1/peer/" = true ∨ contains path.toList "/ssh/ws" = true := by
  have hfields := matches_iff.mp hm
  rcases hclosed with husers | hshell | hpeer | hssh
  · exact .inl (startsWith_iff.mpr (prefix_of_fields
      (begins_with_literals hfields husers (by decide))))
  · exact .inr (.inl (startsWith_iff.mpr (prefix_of_fields
      (begins_with_literals hfields hshell (by decide)))))
  · have hpattern := hpeer.trans (List.dropLast_prefix _)
    obtain ⟨rest, hrest⟩ := begins_with_literals hfields hpattern (by decide)
    have hne : rest ≠ [] := by
      rintro rfl
      have hlen := hpeer.length_le
      have hsame := hfields.length_eq
      rw [← hrest] at hsame
      simp at hlen hsame
      omega
    refine .inr (.inr (.inl (startsWith_iff.mpr ?_)))
    have hpath : ['/'].intercalate (path.toList.splitOn '/') = path.toList :=
      List.intercalate_splitOn '/'
    unfold segments at hrest
    rw [← hpath, ← hrest, intercalate_append (by simp) hne]
    exact ⟨['/'].intercalate rest, rfl⟩
  · obtain ⟨a, ha, hs⟩ := ends_with_literals hfields hssh (by decide) (by simp)
    exact .inr (.inr (.inr (contains_of_suffix (suffix_of_fields hs ha (by simp)))))

theorem password_route : find guardedRoutes "/v1/session/password" =
    some ⟨"/v1/session/password", [(.post, .changeOwnPassword)]⟩ := by decide +kernel

theorem reached (hfind : find guardedRoutes path = some route) (hh : route.handler method = some h)
    (hpeer : startsWith path.toList "/v1/peer/" = false)
    (hrole : requiredRole method path = .viewer) : h ∈ viewerHandlers := by
  have hroute : route ∈ guardedRoutes := List.mem_of_find?_eq_some hfind
  have hm : route.matches path = true := by simpa using List.find?_some hfind
  unfold requiredRole at hrole
  split at hrole
  · rename_i heq
    rw [heq, password_route] at hfind
    cases hfind
    have hall : ∀ m, ∀ h ∈ Route.handler ⟨"/v1/session/password", [(.post, .changeOwnPassword)]⟩ m,
      h ∈ viewerHandlers := by intro m; cases m <;> decide
    exact hall method h hh
  · split at hrole
    · cases hrole
    · rename_i husers
      split at hrole
      · cases hrole
      · rename_i hshell
        split at hrole
        · rename_i hget
          rw [hget] at hh
          rw [Bool.not_eq_true, Bool.or_eq_false_iff] at hshell
          refine (guarded_get route hroute h hh).resolve_right (fun hclosed => ?_)
          rcases closed_path hm hclosed with h | h | h | h
          · exact husers h
          · rw [hshell.1] at h
            cases h
          · rw [hpeer] at h
            cases h
          · rw [hshell.2] at h
            cases h
        · cases hrole

end Pertisk.Http
