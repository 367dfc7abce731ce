import Pertisk.Lib.Pairs
import Pertisk.Lib.Pool
import Pertisk.Lib.Run
import Pertisk.Net.Networks
import Pertisk.Net.Ranges

namespace Pertisk.Net.NetworkPool
open Lib

/-- Where a call is. Between two phases the others may take their steps. -/
inductive Phase
  /-- No network had the name. -/
  | creating (req : CreateNetworkRequest) (notes : Option String)
  | naming (id : Uuid) (name : String)
  | writing (record : Network)

/-- The networks, with the calls that are under way. -/
abbrev World := Crew Networks Phase

/-- `host` is what a call meets on the host in its turn; after a reboot the bridges are gone. -/
inductive Action
  | create (req : CreateNetworkRequest)
  | rename (id : Uuid) (name : String)
  | delete (id : Uuid)
  | turn (task : ℕ) (host : Host) (id : Uuid)

section
variable (pool : Networks)

def checkCreate (req : CreateNetworkRequest) : Except String (Option String) := do
  if trimmed req.name = "" then .error (invalid "network name is required")
  let notes ← cleanNotes req.notes
  if pool.rows.any (fun n => n.name == req.name) then
    .error s!"network name already exists: {req.name}"
  return notes

def makeNetwork (host : Host) (req : CreateNetworkRequest) (id : Uuid) (notes : Option String) :
    Except String Network := do
  let bridge := req.bridge.getD (defaultBridge req.name pool.rows.length)
  if !validIfname bridge then
    .error (invalid s!"invalid bridge name '{bridge}' (max 15 [A-Za-z0-9_-])")
  match req.mode with
  | .bridge => createBridged host req id bridge notes
  | .nat => createNat host req id bridge notes

def checkRename (id : Uuid) (name : String) : Except String String := do
  let name := trimmed name
  if name = "" then .error (invalid "network name is required")
  if pool.rows.any (fun n => n.id != id && n.name == name) then
    .error s!"network name already exists: {name}"
  return name

/-- With nothing in between, the phases are the call. -/
theorem create_eq (host : Host) (req : CreateNetworkRequest) (id : Uuid) :
    pool.create host req id = checkCreate pool req >>= makeNetwork pool host req id := by
  unfold Networks.create checkCreate
  by_cases hname : trimmed req.name = ""
  · simp only [if_pos hname]
    rfl
  · simp only [if_neg hname]
    cases cleanNotes req.notes with
    | error text => rfl
    | ok notes =>
      by_cases htaken : pool.rows.any (fun n => n.name == req.name) = true
      · simp only [htaken]
        rfl
      · simp only [htaken]
        rfl

theorem rename_eq (id : Uuid) (name : String) : pool.rename id name =
    (do
      let name ← checkRename pool id name
      let record ← pool.find id
      return ({ record with name := name }, decide (record.name = name))) := by
  unfold Networks.rename checkRename
  by_cases hname : trimmed name = ""
  · simp only [if_pos hname]
    rfl
  · simp only [if_neg hname]
    by_cases htaken : pool.rows.any (fun n => n.id != id && n.name == trimmed name) = true
    · simp only [htaken]
      rfl
    · simp only [htaken]
      rfl

/-- A call that fails on its way ends there. -/
def Phase.turn (host : Host) (id : Uuid) : Phase → Move Networks Phase
  | .creating req notes =>
    match makeNetwork pool host req id notes with
    | .error _ => { shared := pool }
    | .ok record => { shared := pool, next := some (.writing record) }
  | .naming id name =>
    match pool.find id with
    | .error _ => { shared := pool }
    | .ok record =>
      if record.name = name then { shared := pool }
      else { shared := pool, next := some (.writing { record with name := name }) }
  | .writing record => { shared := pool.insert record }

end

def step (w : World) : Action → Option World
  | .create req =>
    (checkCreate w.shared req).toOption.map (fun notes =>
      { w with pool := w.pool.spawn (.creating req notes) })
  | .rename id name =>
    (checkRename w.shared id name).toOption.map (fun name =>
      { w with pool := w.pool.spawn (.naming id name) })
  | .delete id => (w.shared.get id).map (fun _ => { w with shared := w.shared.erase id })
  | .turn task host id => (w.pool.get task).map (fun p => w.take task (p.turn w.shared host id))

/-- The gateway of a network with a range of its own is a host address of that range. -/
def Own (n : Network) : Prop := n.mode = .nat →
  ∃ net, Ipv4Net.parse n.cidr = .ok net ∧ ∃ text, n.gateway = some text ∧
    ∃ gw, parseIpv4 text = .ok gw ∧ net.Usable gw

/-- Two networks have different names, and with ranges of their own, bridges of their own, too, and
no address in common. -/
def Between (a b : Network) : Prop :=
  a.name ≠ b.name ∧ (a.mode = .nat → b.mode = .nat → a.bridge ≠ b.bridge ∧
    ∀ na nb, Ipv4Net.parse a.cidr = .ok na → Ipv4Net.parse b.cidr = .ok nb →
      ∀ ip < 2 ^ 32, ¬ (na.contains ip = true ∧ nb.contains ip = true))

def Consistent (w : World) : Prop := Table.Pairs Own Between w.shared

/-- What `create` does not check of the gateway, -/
def gatewayUsable (n : Network) : Bool :=
  match Ipv4Net.parse n.cidr, n.gateway.map parseIpv4 with
  | .ok net, some (.ok gw) => decide (net.Usable gw)
  | _, _ => false

/-- and what it does not check of another network. -/
def clashes (a b : Network) : Bool :=
  a.name == b.name || (a.mode == .nat && b.mode == .nat && (a.bridge == b.bridge ||
    match Ipv4Net.parse a.cidr, Ipv4Net.parse b.cidr with
    | .ok na, .ok nb => na.overlaps nb
    | _, _ => false))

/-- A network that is written has a usable gateway, and clashes with none that is there by then. -/
def Careful (w : World) : Action → Prop
  | .turn task _ _ =>
    match w.pool.get task with
    | some (.writing record) => (record.mode = .nat → gatewayUsable record = true) ∧
        ∀ other ∈ w.shared.rows, other.id ≠ record.id → clashes record other = false
    | _ => True
  | _ => True

instance (w : World) (action : Action) : Decidable (Careful w action) := by
  unfold Careful
  split
  · split <;> infer_instance
  · infer_instance

variable {w w' : World} {a b n : Network} {action : Action}

section
variable {host : Host} {req : CreateNetworkRequest} {id : Uuid} {bridge : String}
  {notes : Option String}

/-- What is asked of the host decides nothing but whether there is a network. -/
theorem createNat_made (h : createNat host req id bridge notes = .ok n) :
    ∃ net gw, Ipv4Net.parse req.cidr = .ok net ∧ n.cidr = net.toCidrString ∧
      n.gateway = some (ipv4String gw) ∧
        (req.gateway.map parseIpv4).getD (.ok (net.nth 1)) = .ok gw := by
  unfold createNat at h
  obtain ⟨net, hnet, h⟩ := bind_ok h
  dsimp only at h
  cases hreq : req.gateway with
  | none =>
    rw [hreq] at h
    refine ⟨net, net.nth 1, hnet, ?_⟩
    simp only [bind, Except.bind, pure, Except.pure] at h
    repeat' split at h
    all_goals cases h
    exact ⟨rfl, rfl, rfl⟩
    exact ⟨rfl, rfl, rfl⟩
  | some text =>
    rw [hreq] at h
    obtain ⟨gw, hgw, h⟩ := bind_ok h
    refine ⟨net, gw, hnet, ?_⟩
    simp only [bind, Except.bind, pure, Except.pure] at h
    repeat' split at h
    all_goals cases h
    exact ⟨rfl, rfl, hgw⟩
    exact ⟨rfl, rfl, hgw⟩

/-- The gateway that a network gets of itself is usable exactly when there is room for hosts. -/
theorem default_gateway (h : createNat host req id bridge notes = .ok n)
    (hnone : req.gateway = none) :
    gatewayUsable n = true ↔ ∃ net, Ipv4Net.parse req.cidr = .ok net ∧ net.pfx ≤ 30 := by
  obtain ⟨net, gw, hnet, hcidr, hgateway, hgw⟩ := createNat_made h
  have hformed := Ipv4Net.parse_formed hnet
  obtain rfl : net.nth 1 = gw := by
    rw [hnone] at hgw
    exact Except.ok.inj hgw
  have hlt : net.nth 1 < 2 ^ 32 := (Nat.min_le_right _ _).trans_lt (by decide)
  unfold gatewayUsable
  rw [hcidr, Ipv4Net.parse_toCidrString hformed, hgateway, Option.map_some,
    parseIpv4_ipv4String hlt]
  dsimp only
  rw [decide_eq_true_iff, Ipv4Net.usable_first_iff hformed, hnet]
  exact ⟨fun hpfx => ⟨net, rfl, hpfx⟩, fun ⟨other, heq, hpfx⟩ => by
    cases heq
    exact hpfx⟩

end

theorem own_iff : Own n ↔ (n.mode = .nat → gatewayUsable n = true) := by
  refine imp_congr_right fun _ => ?_
  unfold gatewayUsable
  cases hnet : Ipv4Net.parse n.cidr with
  | error text => simp
  | ok net =>
    cases hgateway : n.gateway with
    | none => simp
    | some text => cases hgw : parseIpv4 text <;> simp [hgw]

theorem between_iff : Between a b ↔ clashes a b = false := by
  unfold Between clashes
  rw [Bool.or_eq_false_iff, beq_eq_false_iff_ne]
  refine and_congr_right fun _ => ?_
  rw [Bool.and_eq_false_iff, Bool.and_eq_false_iff, beq_eq_false_iff_ne, beq_eq_false_iff_ne,
    Bool.or_eq_false_iff, beq_eq_false_iff_ne]
  have hranges : (∀ na nb, Ipv4Net.parse a.cidr = .ok na → Ipv4Net.parse b.cidr = .ok nb →
      ∀ ip < 2 ^ 32, ¬ (na.contains ip = true ∧ nb.contains ip = true)) ↔
        (match Ipv4Net.parse a.cidr, Ipv4Net.parse b.cidr with
          | .ok na, .ok nb => na.overlaps nb
          | _, _ => false) = false := by
    cases hna : Ipv4Net.parse a.cidr with
    | error text => simp
    | ok na =>
      cases hnb : Ipv4Net.parse b.cidr with
      | error text => simp
      | ok nb =>
        have hoverlaps := Ipv4Net.overlaps_iff (Ipv4Net.parse_formed hna) (Ipv4Net.parse_formed hnb)
        rw [← Bool.not_eq_true, hoverlaps]
        simp
  rw [hranges]
  tauto

theorem between_symm (a b : Network) (h : Between a b) : Between b a := by
  obtain ⟨hname, hrange⟩ := h
  refine ⟨hname.symm, fun hb ha => ?_⟩
  obtain ⟨hbridge, hips⟩ := hrange ha hb
  exact ⟨hbridge.symm, fun nb na hnb hna ip hip hin => hips na nb hna hnb ip hip hin.symm⟩

theorem step_consistent (h : Consistent w) (hstep : step w action = some w') :
    Consistent w' ↔ Careful w action := by
  cases action with
  | create req =>
    obtain ⟨notes, -, rfl⟩ := Option.map_eq_some_iff.mp hstep
    exact iff_of_true h trivial
  | rename id name =>
    obtain ⟨name, -, rfl⟩ := Option.map_eq_some_iff.mp hstep
    exact iff_of_true h trivial
  | delete id =>
    obtain ⟨record, -, rfl⟩ := Option.map_eq_some_iff.mp hstep
    exact iff_of_true h.erase trivial
  | turn task host id =>
    obtain ⟨p, hget, rfl⟩ := Option.map_eq_some_iff.mp hstep
    unfold Consistent Careful
    rw [Crew.take_shared]
    dsimp only
    rw [hget]
    cases p with
    | creating req notes =>
      refine iff_of_true ?_ trivial
      unfold Phase.turn
      dsimp only
      split <;> exact h
    | naming id name =>
      refine iff_of_true ?_ trivial
      unfold Phase.turn
      dsimp only
      split
      · exact h
      · split <;> exact h
    | writing record =>
      refine (Table.pairs_insert_iff between_symm h).trans ?_
      constructor
      · intro hfits
        exact ⟨own_iff.mp hfits.own,
          fun other hother hne => between_iff.mp (hfits.others other hother hne)⟩
      · rintro ⟨hgateway, hothers⟩
        exact ⟨own_iff.mpr hgateway,
          fun other hother hne => between_iff.mpr (hothers other hother hne)⟩

/-- A host that has no bridge yet, or has lost those it had. -/
def freshHost : Host where
  applyHostLinks := true

def lab (name bridge cidr : String) : CreateNetworkRequest where
  name := name
  bridge := some bridge
  cidr := cidr

def noNetworks : World := ⟨Table.empty, ⟨[]⟩⟩

/-- The second network is created after a reboot. -/
def afterReboot (second : CreateNetworkRequest) : List Action :=
  [.create (lab "lab" "lab0" "10.88.0.0/24"), .turn 0 freshHost 1, .turn 0 freshHost 1,
    .create second, .turn 1 freshHost 2, .turn 1 freshHost 2]

theorem noNetworks_consistent : Consistent noNetworks := Table.pairs_empty

end Pertisk.Net.NetworkPool
