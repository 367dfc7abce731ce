import Pertisk.Control.Sessions
import Pertisk.Http.Routes
import Pertisk.Lib.Run
import Pertisk.Net.Networks
import Pertisk.Service.Guests
import Pertisk.Store.Ids

namespace Pertisk.Http
open Control Lib

/-- The keyboard and the pointer come with the graphics. -/
inductive Device
  | console
  | graphics
  deriving DecidableEq, Repr

/-- The daemon, the guests that websockets are open to, and what they have been sent. -/
structure World where
  node : Node
  networks : Net.Networks
  db : Db
  sockets : List (VmId × Device) := []
  input : List (VmId × Device × List UInt8) := []

/-- What a request meets outside of the daemon. -/
structure Meets where
  now : Nat := 0
  /-- The token and the salt that are drawn. -/
  token : String := ""
  salt : String := ""
  /-- How the deletion of the other tokens ends. -/
  deletes : Except String Unit := .ok ()
  /-- The addresses of the guest's NICs when they are others than the record's. -/
  seen : Option (List NetSpec) := none
  upgrades : Bool := true

/-- What does not change here, with the handlers that are looked at elsewhere. -/
structure Site where
  config : Service.Config := {}
  witnessSecret : Option String := none
  argon : Argon2
  uuids : Store.UuidCrate
  /-- A segment of a path as text. -/
  percentDecode : List Char → Option String
  elsewhere : Handler → AuthUser → Request → World → World

variable (site : Site)

/-- The segment of a path behind `/v1/vms`. -/
def vmId (req : Request) : Option VmId := do
  let text ← site.percentDecode (← (segments req.path)[3]?)
  (Store.parse site.uuids text).toOption

def changePassword (db : Db) (user : AuthUser) (req : ChangePasswordRequest) (token : String)
    (meets : Meets) : Db :=
  match db.checkPassword site.argon user.id req.currentPassword req.newPassword with
  | .error _ => db
  | .ok () =>
    (db.writePassword site.argon meets.salt user.id req.newPassword (some token) meets.deletes).1

def observe (node : Node) (id : VmId) (meets : Meets) : Node :=
  (Service.get ⟨site.config, fun _ => { seen := meets.seen }⟩ id (.ofState ⟨node, [], 0⟩)).2.state.node

def handle (h : Handler) (user : AuthUser) (req : Request) (meets : Meets) (w : World) : World :=
  match h with
  | .login =>
    match req.body with
    | .login username password =>
      match w.db.login site.argon meets.token meets.now username password with
      | .ok (db, _) => { w with db := db }
      | .error _ => w
    | _ => w
  | .changeOwnPassword =>
    match req.body, bearerToken req.authorization with
    | .changePassword change, some token =>
      { w with db := changePassword site w.db user change token meets }
    | _, _ => w
  | .showVm =>
    match vmId site req with
    | some id => { w with node := observe site w.node id meets }
    | none => w
  | .consoleWs =>
    match (vmId site req).bind w.node.store.get with
    | some vm =>
      if meets.upgrades then { w with sockets := w.sockets ++ [(vm.id, .console)] } else w
    | none => w
  | .graphicsWs =>
    match (vmId site req).bind w.node.store.get with
    | some vm =>
      if meets.upgrades && vm.graphicsSocket.isSome then
        { w with sockets := w.sockets ++ [(vm.id, .graphics)] }
      else w
    | none => w
  | h => if h ∈ readers then w else site.elsewhere h user req w

/-- The handler that a request is for, and whether the middleware is before it. -/
def dispatch (req : Request) : Option (Handler × Bool) :=
  match find publicRoutes req.path with
  | some route => (route.handler req.method).map (·, false)
  | none => (find guardedRoutes req.path).bind (fun route =>
      (route.handler req.method).map (·, true))

/-- Everything else is a static file, or not allowed. -/
def serve (req : Request) (meets : Meets) (w : World) : World :=
  match dispatch req with
  | none => w
  | some (h, false) => handle site h ⟨"", "", .viewer⟩ req meets w
  | some (h, true) =>
    match authMiddleware ⟨site.witnessSecret, w.node.cluster.secret⟩ w.db req with
    | .error _ => w
    | .ok user => handle site h user req meets w

/-- A viewer's requests, what is sent over his websockets, and everything else. -/
inductive Event
  | viewer (req : Request) (meets : Meets)
  /-- With nothing, the websocket is closed. -/
  | message (i : ℕ) (data : Option (List UInt8))
  | other (f : World → World)

def World.receive (w : World) (i : ℕ) (data : Option (List UInt8)) : Option World :=
  match w.sockets[i]?, data with
  | some (id, device), some bytes => some { w with input := w.input ++ [(id, device, bytes)] }
  | some _, none => some { w with sockets := w.sockets.eraseIdx i }
  | none, _ => none

def step (w : World) : Event → Option World
  | .viewer req meets => some (serve site req meets w)
  | .message i data => w.receive i data
  | .other f => some (f w)

/-- The request carries a token of the account, which is a viewer's, and no other secret. -/
def OnlyToken (me : String) (w : World) (req : Request) : Prop :=
  req.peer = none ∧ (match req.body with | .login _ _ => False | _ => True) ∧
    match (requestToken req).map w.db.authenticate with
    | some (.ok user) => user.id = me ∧ user.role = .viewer
    | _ => False

def Viewing (me : String) (w : World) : Event → Prop
  | .viewer req _ => OnlyToken me w req
  | _ => True

/-- The event is the viewer's. -/
def Event.own : Event → Bool
  | .other _ => false
  | _ => true

/-- Nothing is sent over a websocket to a guest. -/
def Event.silent : Event → Bool
  | .message _ _ => false
  | _ => true

/-- A viewer's request that is not for his password or for a websocket to a guest; where it is for
a guest's record, no other addresses are seen. -/
def Event.looks : Event → Bool
  | .viewer req meets =>
    match dispatch req with
    | some (.changeOwnPassword, _) | some (.consoleWs, _) | some (.graphicsWs, _) => false
    | some (.showVm, _) => meets.seen.isNone
    | _ => true
  | _ => false

def withoutAddrs (vm : VmRecord) : VmRecord :=
  { vm with
    spec := { vm.spec with nets := vm.spec.nets.map (fun nic => { nic with ip := none, ipv6 := none }) } }

def withoutPassword (me : String) (u : UserRow) : UserRow :=
  if u.id = me then { u with passwordHash := "" } else u

/-- The inventories are as before, up to addresses of NICs and the one account's password. -/
structure Kept (me : String) (w w' : World) : Prop where
  cluster : w'.node.cluster = w.node.cluster
  volumes : w'.node.volumes = w.node.volumes
  vms : ∀ id, (w'.node.store.get id).map withoutAddrs = (w.node.store.get id).map withoutAddrs
  networks : w'.networks = w.networks
  users : w'.db.users.map (withoutPassword me) = w.db.users.map (withoutPassword me)

variable {site} {me : String} {w w' : World} {req : Request} {meets : Meets} {user : AuthUser}
  {h : Handler}

theorem Kept.refl (w : World) : Kept me w w := ⟨rfl, rfl, fun _ => rfl, rfl, rfl⟩

theorem Kept.trans {u : World} (h : Kept me w w') (h' : Kept me w' u) : Kept me w u where
  cluster := h'.cluster.trans h.cluster
  volumes := h'.volumes.trans h.volumes
  vms id := (h'.vms id).trans (h.vms id)
  networks := h'.networks.trans h.networks
  users := h'.users.trans h.users

section observe
variable {n : Node}

/-- The daemon is as it was, up to addresses of NICs. -/
structure Addressed (n : Node) (b : Service.Book) : Prop where
  cluster : b.node.cluster = n.cluster
  volumes : b.node.volumes = n.volumes
  vms : ∀ id, (b.node.store.get id).map withoutAddrs = (n.store.get id).map withoutAddrs

theorem withoutAddrs_patch (vm : VmRecord) (nets : List NetSpec) :
    withoutAddrs { vm with spec := { vm.spec with
      nets := Service.patchNicAddrs vm.spec.nets nets } } = withoutAddrs vm := by
  unfold withoutAddrs Service.patchNicAddrs
  dsimp only
  rw [List.map_map]
  congr 2
  refine List.map_congr_left (fun nic _ => ?_)
  dsimp only [Function.comp_apply]
  split <;> rfl

theorem addressed_getVm (id : VmId) : Proc.Upholds (Addressed n) (Service.Op.getVm id) := by
  refine Proc.Upholds.bind (.look (fun _ h => h)) (fun node => ?_)
  split
  · exact .pure _
  · exact .check _

theorem addressed_get (env : Service.Env) (id : VmId) :
    Proc.Upholds (Addressed n) (Service.get env id) := by
  refine (addressed_getVm id).bind (fun vm => ?_)
  refine Proc.Upholds.bind (.look (fun b h => ⟨h.cluster, h.volumes, h.vms⟩)) (fun o => ?_)
  cases o.seen with
  | none => exact .pure _
  | some nets =>
    refine Proc.Upholds.bind (.attempt ?_) (fun r => ?_)
    · -- what is written is the record that has just been read
      refine (addressed_getVm id).bind_of (q := fun latest => latest.id = id ∧
        (n.store.get id).map withoutAddrs = some (withoutAddrs latest)) ?_ (fun latest hlatest => ?_)
      · intro b latest b' hb hrun
        obtain ⟨-, hget⟩ := Service.Op.getVm_ok hrun
        refine ⟨Table.key_of_get hget, ?_⟩
        rw [← hb.vms id, hget, Option.map_some]
      · refine Proc.Upholds.bind (.alter (fun b hb => ⟨hb.cluster, hb.volumes, fun other => ?_⟩))
          (fun _ => .pure _)
        unfold Node.upsertVm
        dsimp only
        rw [Table.get_insert]
        split
        · rename_i hid
          have hother : id = other := hlatest.1.symm.trans hid
          rw [Option.map_some, withoutAddrs_patch, ← hother]
          exact hlatest.2.symm
        · exact hb.vms other
    · cases r <;> exact .pure _

theorem observe_addressed (site : Site) (n : Node) (id : VmId) (meets : Meets) :
    (observe site n id meets).cluster = n.cluster ∧ (observe site n id meets).volumes = n.volumes ∧
      ∀ other, ((observe site n id meets).store.get other).map withoutAddrs =
        (n.store.get other).map withoutAddrs := by
  obtain ⟨hcluster, hvolumes, hvms⟩ := addressed_get (n := n)
    ⟨site.config, fun _ => { seen := meets.seen }⟩ id (.ofState ⟨n, [], 0⟩)
    ⟨rfl, rfl, fun _ => rfl⟩
  exact ⟨hcluster, hvolumes, hvms⟩

/-- Where nothing else is seen, a look writes nothing. -/
theorem observe_unseen (n : Node) (id : VmId) (h : meets.seen = none) :
    observe site n id meets = n := by
  have hup : Proc.Upholds (fun b => b.node = n)
      (Service.get ⟨site.config, fun _ => { seen := meets.seen }⟩ id) := by
    refine Proc.Upholds.bind (Proc.Upholds.bind (.look (fun _ h => h)) (fun node => ?_)) (fun vm => ?_)
    · split
      · exact .pure _
      · exact .check _
    · refine Proc.Upholds.bind_of (q := fun o => o.seen = none) (.look (fun b h => h))
        (fun b o b' _ hrun => ?_) (fun o ho => ?_)
      · rw [Service.Op.ask_ok hrun]
        exact h
      · rw [ho]
        exact .pure _
  exact hup (.ofState ⟨n, [], 0⟩) rfl

end observe

theorem handle_reader (hh : h ∈ readers) : handle site h user req meets w = w := by
  have hnot : h ≠ .login ∧ h ≠ .changeOwnPassword ∧ h ≠ .showVm ∧ h ≠ .consoleWs ∧
      h ≠ .graphicsWs := by
    refine ⟨?_, ?_, ?_, ?_, ?_⟩ <;> · rintro rfl; revert hh; decide
  unfold handle
  split
  · exact absurd rfl hnot.1
  · exact absurd rfl hnot.2.1
  · exact absurd rfl hnot.2.2.1
  · exact absurd rfl hnot.2.2.2.1
  · exact absurd rfl hnot.2.2.2.2
  · exact if_pos hh

/-- A password is changed in its own row only. -/
theorem changePassword_users (db : Db) (user : AuthUser) (change : ChangePasswordRequest)
    (token : String) (meets : Meets) :
    (changePassword site db user change token meets).users.map (withoutPassword user.id) =
      db.users.map (withoutPassword user.id) := by
  have hrows (passwordHash : String) : (db.users.map (fun u =>
      if u.id = user.id then { u with passwordHash := passwordHash } else u)).map
        (withoutPassword user.id) = db.users.map (withoutPassword user.id) := by
    rw [List.map_map]
    refine List.map_congr_left (fun u _ => ?_)
    unfold withoutPassword
    dsimp only [Function.comp_apply]
    by_cases hid : u.id = user.id
    · simp only [hid, if_true]
    · simp only [hid, if_false]
  unfold changePassword
  split
  · rfl
  · unfold Db.writePassword
    split
    · rfl
    · split
      · rfl
      · split
        · dsimp only
          split
          · exact hrows _
          · exact hrows _
        · rfl

/-- Of what a viewer reaches, nothing changes more than addresses and his password, and nothing
is sent to a guest. -/
theorem handle_kept (hh : h ∈ viewerHandlers) :
    Kept user.id w (handle site h user req meets w) ∧
      (handle site h user req meets w).input = w.input := by
  rcases List.mem_append.mp hh with hh | hh
  · simp only [List.mem_cons, List.not_mem_nil, or_false] at hh
    rcases hh with rfl | rfl | rfl | rfl
    · dsimp only [handle]
      split
      · exact ⟨⟨rfl, rfl, fun _ => rfl, rfl, changePassword_users _ _ _ _ _⟩, rfl⟩
      · exact ⟨.refl w, rfl⟩
    · dsimp only [handle]
      split
      · obtain ⟨hcluster, hvolumes, hvms⟩ := observe_addressed site w.node _ meets
        exact ⟨⟨hcluster, hvolumes, hvms, rfl, rfl⟩, rfl⟩
      · exact ⟨.refl w, rfl⟩
    · dsimp only [handle]
      split
      · split
        · exact ⟨⟨rfl, rfl, fun _ => rfl, rfl, rfl⟩, rfl⟩
        · exact ⟨.refl w, rfl⟩
      · exact ⟨.refl w, rfl⟩
    · dsimp only [handle]
      split
      · split
        · exact ⟨⟨rfl, rfl, fun _ => rfl, rfl, rfl⟩, rfl⟩
        · exact ⟨.refl w, rfl⟩
      · exact ⟨.refl w, rfl⟩
  · rw [handle_reader hh]
    exact ⟨.refl w, rfl⟩

/-- The middleware lets a viewer pass where a viewer's role is enough. -/
theorem authMiddleware_viewer {secrets : Secrets} (hreq : OnlyToken me w req)
    (hok : authMiddleware secrets w.db req = .ok user) :
    user.id = me ∧ PeerUrl.startsWith req.path.toList "/v1/peer/" = false ∧
      requiredRole req.method req.path = .viewer := by
  obtain ⟨hpeer, -, htoken⟩ := hreq
  unfold authMiddleware at hok
  rw [hpeer] at hok
  split at hok
  · cases hok
  · split at hok
    · cases hok
    · rename_i hprefix
      cases hreq : requestToken req with
      | none => simp [hreq] at hok
      | some token =>
        rw [hreq, Option.map_some] at htoken
        simp only [hreq] at hok
        cases hauth : w.db.authenticate token with
        | error e => simp [hauth] at htoken
        | ok found =>
          simp only [hauth] at htoken hok
          obtain ⟨hid, hrole⟩ := htoken
          simp only [bind, Except.bind] at hok
          split at hok
          · rename_i hallows
            cases hok
            refine ⟨hid, by simpa using hprefix, ?_⟩
            rw [hrole] at hallows
            revert hallows
            cases requiredRole req.method req.path <;> decide
          · cases hok

theorem public_handlers : ∀ route ∈ publicRoutes, ∀ method, ∀ h ∈ route.handler method,
    h = .login ∨ h ∈ readers := by
  intro route hroute method
  revert route
  cases method <;> decide

theorem login_viewer (hreq : OnlyToken me w req) : handle site .login user req meets w = w := by
  obtain ⟨-, hbody, -⟩ := hreq
  dsimp only [handle]
  split
  · rename_i username password heq
    rw [heq] at hbody
    exact hbody.elim
  · rfl

/-- A viewer is refused, or reaches what a viewer may reach. -/
theorem serve_viewer (site : Site) (meets : Meets) (hreq : OnlyToken me w req) :
    serve site req meets w = w ∨ ∃ h guarded user, dispatch req = some (h, guarded) ∧
      h ∈ viewerHandlers ∧ user.id = me ∧
        serve site req meets w = handle site h user req meets w := by
  unfold serve
  split
  · exact .inl rfl
  · rename_i h hdispatch
    unfold dispatch at hdispatch
    split at hdispatch
    · rename_i route hfind
      obtain ⟨h', hh, heq⟩ := Option.map_eq_some_iff.mp hdispatch
      cases heq
      rcases public_handlers route (List.mem_of_find?_eq_some hfind) req.method h hh with rfl | hh
      · exact .inl (login_viewer hreq)
      · exact .inl (handle_reader hh)
    · obtain ⟨route, -, hmap⟩ := Option.bind_eq_some_iff.mp hdispatch
      obtain ⟨h', -, heq⟩ := Option.map_eq_some_iff.mp hmap
      cases heq
  · rename_i h hdispatch
    split
    · exact .inl rfl
    · rename_i user hok
      obtain ⟨hid, hpeer, hrole⟩ := authMiddleware_viewer hreq hok
      refine .inr ⟨h, true, user, hdispatch, ?_, hid, rfl⟩
      unfold dispatch at hdispatch
      split at hdispatch
      · obtain ⟨_, -, heq⟩ := Option.map_eq_some_iff.mp hdispatch
        cases heq
      · obtain ⟨route, hfind, hmap⟩ := Option.bind_eq_some_iff.mp hdispatch
        obtain ⟨h', hh, heq⟩ := Option.map_eq_some_iff.mp hmap
        cases heq
        exact reached hfind hh hpeer hrole

theorem serve_kept (site : Site) (meets : Meets) (hreq : OnlyToken me w req) :
    Kept me w (serve site req meets w) ∧ (serve site req meets w).input = w.input := by
  rcases serve_viewer site meets hreq with heq | ⟨h, _, user, -, hh, rfl, heq⟩
  · rw [heq]
    exact ⟨.refl w, rfl⟩
  · rw [heq]
    exact handle_kept hh

theorem serve_looks (hreq : OnlyToken me w req) (hlooks : Event.looks (.viewer req meets) = true) :
    serve site req meets w = w := by
  rcases serve_viewer site meets hreq with
    heq | ⟨h, _, user, hdispatch, hh, -, heq⟩
  · exact heq
  · rw [heq]
    unfold Event.looks at hlooks
    dsimp only at hlooks
    rw [hdispatch] at hlooks
    rcases List.mem_append.mp hh with hh | hh
    · simp only [List.mem_cons, List.not_mem_nil, or_false] at hh
      rcases hh with rfl | rfl | rfl | rfl
      · cases hlooks
      · have hseen : meets.seen = none := by simpa using hlooks
        dsimp only [handle]
        split
        · rw [observe_unseen w.node _ hseen]
        · rfl
      · cases hlooks
      · cases hlooks
    · exact handle_reader hh

theorem receive_kept {i : ℕ} {data : Option (List UInt8)} (h : w.receive i data = some w') :
    Kept me w w' := by
  unfold World.receive at h
  split at h
  · cases h
    exact ⟨rfl, rfl, fun _ => rfl, rfl, rfl⟩
  · cases h
    exact ⟨rfl, rfl, fun _ => rfl, rfl, rfl⟩
  · cases h

/-- A run ends the same without the requests of a viewer that only look, whatever else happens in
it. Alone, a viewer changes no more than the addresses that are seen of NICs and his own password,
and nothing is sent to a guest that does not come over a websocket. -/
theorem viewer_looks_on {events : List Event}
    (r : Run (Guarded (Viewing me) (Steps (step site))) w events w') :
    Run (Steps (step site)) w (events.filter (fun e => !e.looks)) w' ∧
      ((∀ e ∈ events, e.own = true) → Kept me w w' ∧
        ((∀ e ∈ events, e.silent = true) → w'.input = w.input)) := by
  constructor
  · refine (Run.purge Event.looks (fun u e t hlooks hstep => ?_) r).unguard
    obtain ⟨hviewing, hstep⟩ := hstep
    cases e with
    | viewer req meets =>
      cases hstep
      exact serve_looks hviewing hlooks
    | message i data => cases hlooks
    | other f => cases hlooks
  · intro hown
    induction r with
    | nil w => exact ⟨.refl w, fun _ => rfl⟩
    | @cons w u w' e events hstep r ih =>
      obtain ⟨hkept, hinput⟩ := ih (fun e he => hown e (List.mem_cons_of_mem _ he))
      obtain ⟨hviewing, hstep⟩ := hstep
      cases e with
      | viewer req meets =>
        cases hstep
        obtain ⟨hserved, hsame⟩ := serve_kept site meets hviewing
        exact ⟨hserved.trans hkept, fun hsilent =>
          (hinput (fun e he => hsilent e (List.mem_cons_of_mem _ he))).trans hsame⟩
      | message i data =>
        exact ⟨(receive_kept hstep).trans hkept, fun hsilent =>
          nomatch hsilent _ List.mem_cons_self⟩
      | other f => exact nomatch hown _ List.mem_cons_self

instance (me : String) (w : World) (req : Request) : Decidable (OnlyToken me w req) := by
  unfold OnlyToken
  have : Decidable (match req.body with | .login _ _ => False | _ => True) := by
    split <;> infer_instance
  have : Decidable (match (requestToken req).map w.db.authenticate with
      | some (.ok user) => user.id = me ∧ user.role = .viewer
      | _ => False) := by
    split <;> infer_instance
  infer_instance

instance (me : String) (w : World) (e : Event) : Decidable (Viewing me w e) := by
  unfold Viewing
  split <;> infer_instance

def plainSite : Site where
  argon := Sessions.plain
  uuids := Store.hyphenatedCrate
  percentDecode segment := some (String.ofList segment)
  elsewhere _ _ _ w := w

/-- One guest, and a viewer who is logged in. -/
def watched : World where
  node :=
    { cluster :=
        { offlineAfterMs := 5000, selfId := 1, name := "c", secret := "s", generation := 1
          members := Table.empty, fenced := false, haArmed := false, witnessHolder := none
          witnessUntilMs := 0 }
      store := Table.ofList [{ id := .numeric 100, spec := { name := "web" }, state := .running }]
      volumes := Table.empty }
  networks := Table.empty
  db := { users := [⟨"1", "ann", "secret", .viewer, 0⟩], tokens := [⟨"t", "1", 0⟩] }

def ask (method : Method) (path : String) (body : Body) : Event :=
  .viewer { method := method, path := path, authorization := some "Bearer t", body := body } {}

def lookAround : List Event :=
  [ask .get "/v1/vms" (.other []), ask .post "/v1/vms/100/start" (.other []),
    .other (fun w => { w with node := w.node.removeVm (.numeric 100) }),
    ask .get "/v1/vms/100" (.other [])]

theorem looked_around :
    Run (Steps (step plainSite)) watched (lookAround.filter (fun e => !e.looks))
        (exec (step plainSite) watched lookAround) ∧
      ((∀ e ∈ lookAround, e.own = true) →
        Kept "1" watched (exec (step plainSite) watched lookAround) ∧
          ((∀ e ∈ lookAround, e.silent = true) →
            (exec (step plainSite) watched lookAround).input = watched.input)) :=
  viewer_looks_on (.of_exec_guarded (by decide +kernel))

/-- The websockets to a guest are open to a viewer, and take what he types. -/
example : (exec (step plainSite) watched [ask .get "/v1/vms/100/console/ws" (.other []),
    .message 0 (some [7])]).input = [(.numeric 100, .console, [7])] := by decide +kernel

/-- A viewer may change his own password, and that is in the user table. -/
theorem own_password_changes :
    ¬ ∀ (site : Site) (me : String) (w w' : World) (events : List Event),
      (∀ e ∈ events, e.own = true) →
        Run (Guarded (Viewing me) (Steps (step site))) w events w' →
          w'.node = w.node ∧ w'.networks = w.networks ∧ w'.db.users = w.db.users ∧
            w'.input = w.input := by
  intro h
  have hsame := (h plainSite "1" watched _
    [ask .post "/v1/session/password" (.changePassword ⟨"secret", "better"⟩)] (by decide)
    (.of_exec_guarded (by decide +kernel))).2.2.1
  revert hsame
  decide +kernel

end Pertisk.Http
