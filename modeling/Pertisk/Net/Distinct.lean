import Pertisk.Net.Nics

namespace Pertisk.Net
open Lib

/-- On one node two NICs have different taps and different MAC addresses; of two addresses that the
pool chose in one network, each is different from the other. -/
structure Nic.Apart (near : Prop) (a b : Nic) : Prop where
  taps : near → ∀ tap, a.tap = some tap → b.tap ≠ some tap
  macs : near → ∀ key, a.mac.bind normalizeMac = some key → b.mac.bind normalizeMac ≠ some key
  ips : a.assigned → b.assigned → a.networkId = b.networkId → a.ip ≠ b.ip

def Guest.Own (vm : Guest) : Prop := vm.nets.Pairwise (Nic.Apart True)

def Guest.Between (vm other : Guest) : Prop :=
  ∀ a ∈ vm.nets, ∀ b ∈ other.nets, a.Apart (vm.node = other.node) b

def Distinct (w : World) : Prop := Table.Pairs Guest.Own Guest.Between w.shared

/-- What keeps a NIC that is about to be written apart from another one: the tap's number is free,
and where the other's addresses were not among those listed, they are different. -/
structure New (site : Site) (vm : Guest) (nic : Nic) (usedIps usedMacs : List String) (near : Prop)
    (o : Nic) : Prop where
  tap : near → o.tap ≠ some (tapName vm.id (nicIndex vm))
  mac : near → ¬ (o.mac.any (· ∈ usedMacs) ∧ ¬ Crowded vm.id (nicIndex vm) usedMacs site.salt) →
    ∀ key, o.mac.bind normalizeMac = some key → nic.mac.bind normalizeMac ≠ some key
  ip : ¬ o.ip.any (· ∈ usedIps) → o.assigned → nic.assigned → o.networkId = nic.networkId →
    o.ip ≠ nic.ip

/-- The NICs that a write brings back are still apart from those of the other guests. -/
def StillApart (guests : Guests) (vm : Guest) : Prop :=
  ∀ other ∈ guests.rows, other.id ≠ vm.id → vm.Between other

/-- The NICs that come with a new guest are apart; no one looks at them. A NIC that is attached is
new, and what a write brings back does not clash. -/
def Careful (site : Site) (w : World) : Action → Prop
  | .create requested picked name nets node =>
    Table.Fits Guest.Own Guest.Between w.shared (created (requested.getD picked) name nets node)
  | .turn task _ =>
    match w.pool.get task with
    | some (.adding vm nic usedIps usedMacs) =>
      StillApart w.shared vm ∧
      (∀ o ∈ vm.nets, New site vm nic usedIps usedMacs True o) ∧
      ∀ other ∈ w.shared.rows, other.id ≠ vm.id →
        ∀ o ∈ other.nets, New site vm nic usedIps usedMacs (vm.node = other.node) o
    | some (.detaching vm tap) => StillApart w.shared (vm.without tap)
    | _ => True
  | _ => True

/-- The NIC of an attach was made for its record from the lists. -/
structure Made (site : Site) (vm : Guest) (nic : Nic) (usedIps usedMacs : List String) : Prop where
  tap : nic.tap = some (tapName vm.id (nicIndex vm))
  mac : nic.mac = some (uniqueGuestMac vm.id (nicIndex vm) usedMacs site.salt)
  ip : nic.assigned → ∃ ip, nic.ip = some (ipv4String ip) ∧ ip < 2 ^ 32 ∧
    ∀ s ∈ usedIps, parseIpv4 s ≠ .ok ip

def Phase.Sound (site : Site) : Phase → Prop
  | .attaching vm _ => vm.Own
  | .adding vm nic usedIps usedMacs => vm.Own ∧ Made site vm nic usedIps usedMacs
  | .detaching vm _ => vm.Own

def Sound (site : Site) (w : World) : Prop := ∀ i p, w.pool.get i = some p → p.Sound site

variable {site : Site} {w w' : World} {vm : Guest} {nic o : Nic} {ips macs : List String} {near : Prop}

theorem Nic.Apart.symm {a b : Nic} (h : a.Apart near b) : b.Apart near a where
  taps hn tap hb ha := h.taps hn tap ha hb
  macs hn key hb ha := h.macs hn key ha hb
  ips hb ha hnet := (h.ips ha hb hnet.symm).symm

theorem between_symm (x y : Guest) (h : x.Between y) : y.Between x := by
  intro b hb a ha
  have hab := (h a ha b hb).symm
  exact ⟨fun hn => hab.taps hn.symm, fun hn => hab.macs hn.symm, hab.ips⟩

/-- What the pool made is apart from another NIC exactly when it is new beside it. -/
theorem Made.apart_iff (h : Made site vm nic ips macs) :
    o.Apart near nic ↔ New site vm nic ips macs near o := by
  constructor
  · intro hap
    exact ⟨fun hn ho => hap.taps hn _ ho h.tap, fun hn _ => hap.macs hn,
      fun _ ho hnic hnet => hap.ips ho hnic hnet⟩
  · intro hnew
    refine ⟨?_, ?_, ?_⟩
    · intro hn tap ho hnic
      rw [h.tap] at hnic
      exact hnew.tap hn (ho.trans hnic.symm)
    · intro hn key ho
      by_cases hlisted : o.mac.any (· ∈ macs) ∧ ¬ Crowded vm.id (nicIndex vm) macs site.salt
      · obtain ⟨hin, hroom⟩ := hlisted
        cases hmac : o.mac with
        | none => rw [hmac] at hin; cases hin
        | some mac =>
          rw [hmac] at hin ho
          rw [h.mac]
          exact uniqueGuestMac_ne hroom (of_decide_eq_true hin) ho
      · exact hnew.mac hn hlisted key ho
    · intro ho hnic hnet
      by_cases hlisted : o.ip.any (· ∈ ips)
      · obtain ⟨ip, hip, hlt, hfree⟩ := h.ip hnic
        cases hoip : o.ip with
        | none => rw [hoip] at hlisted; cases hlisted
        | some s =>
          rw [hoip] at hlisted
          rw [hip]
          intro heq
          obtain rfl := Option.some.inj heq
          exact hfree _ (of_decide_eq_true hlisted) (parseIpv4_ipv4String hlt)
      · exact hnew.ip hlisted ho hnic hnet

theorem range_lt {network : NetworkRecord} {net : Ipv4Net} (h : network.range = .ok (some net)) :
    net.network < 2 ^ 32 := by
  unfold NetworkRecord.range at h
  split at h
  · cases h
  · cases hparse : Ipv4Net.parse network.cidr with
    | error e => rw [hparse] at h; cases h
    | ok parsed =>
      rw [hparse] at h
      cases h
      exact Ipv4Net.parse_lt hparse

theorem nicIp_made {network : NetworkRecord} {requested : Option String} {ip : Option String}
    (h : nicIp network requested ips = .ok ip) (hr : requested.isNone) (hip : ip.isSome) :
    ∃ a, ip = some (ipv4String a) ∧ a < 2 ^ 32 ∧ ∀ s ∈ ips, parseIpv4 s ≠ .ok a := by
  obtain rfl := Option.isNone_iff_eq_none.mp hr
  obtain ⟨net, hnet, h⟩ := bind_ok h
  cases net with
  | none =>
    cases h
    cases hip
  | some net =>
    dsimp only at h
    split at h
    · obtain ⟨a, ha, h⟩ := bind_ok h
      cases h
      exact ⟨a, rfl, Ipv4Net.allocate_free (range_lt hnet) ha⟩
    · cases h
      cases hip

theorem allocateNic_made {networkId : Uuid} {requested : Option String} {links : Except String Unit}
    (h : allocateNic site networkId vm.id (nicIndex vm) requested ips macs links = .ok nic)
    (dual : Bool) : Made site vm { nic with dualStack := dual } ips macs := by
  unfold allocateNic at h
  split at h
  · cases h
  · dsimp only at h
    split at h
    · cases h
    · obtain ⟨ip, hip, h⟩ := bind_ok h
      obtain ⟨-, -, h⟩ := bind_ok h
      cases h
      refine ⟨rfl, rfl, fun hassigned => ?_⟩
      rw [Bool.and_eq_true] at hassigned
      exact nicIp_made hip hassigned.1 hassigned.2

theorem created_guest {guests guests' : Guests} {requested : Option VmId} {picked : VmId}
    {name : String} {nets : List NetSpec} {node : NodeId}
    (h : createGuest guests requested picked name nets node = .ok guests') :
    guests' = guests.insert (created (requested.getD picked) name nets node) := by
  unfold createGuest at h
  dsimp only at h
  split at h
  · cases h
  · split at h
    · cases h
    · exact (Except.ok.inj h).symm

theorem stopped_mem {guests : Guests} {id : VmId} {op : String}
    (h : stoppedGuest guests id op = .ok vm) : vm ∈ guests.rows := by
  unfold stoppedGuest at h
  split at h
  · cases h
  · rename_i hget
    split at h
    · cases h
    · cases h
      exact Table.mem_of_get hget

theorem Guest.Own.taps_nodup (h : vm.Own) : (vm.nets.filterMap (fun nic => nic.tap)).Nodup := by
  refine List.pairwise_filterMap.mpr (h.imp (fun {a b} hab tap ha tap' hb heq => ?_))
  subst heq
  exact hab.taps trivial tap ha hb

theorem own_without (h : vm.Own) (tap : String) : (vm.without tap).Own := h.filter _

/-- A record with a new NIC fits the other guests. -/
theorem fits_push_iff (hown : vm.Own) (hmade : Made site vm nic ips macs) (guests : Guests) :
    Table.Fits Guest.Own Guest.Between guests (vm.push nic) ↔
      StillApart guests vm ∧ (∀ o ∈ vm.nets, New site vm nic ips macs True o) ∧
      ∀ other ∈ guests.rows, other.id ≠ vm.id →
        ∀ o ∈ other.nets, New site vm nic ips macs (vm.node = other.node) o := by
  have hself : (vm.push nic).Own ↔ ∀ o ∈ vm.nets, New site vm nic ips macs True o := by
    unfold Guest.Own Guest.push
    rw [List.pairwise_append]
    constructor
    · rintro ⟨-, -, hnew⟩ o ho
      exact hmade.apart_iff.mp (hnew o ho nic List.mem_cons_self)
    · intro hnew
      refine ⟨hown, List.pairwise_singleton _ _, fun o ho b hb => ?_⟩
      rw [List.mem_singleton.mp hb]
      exact hmade.apart_iff.mpr (hnew o ho)
  have hbetween (other : Guest) : (vm.push nic).Between other ↔ vm.Between other ∧
      ∀ o ∈ other.nets, New site vm nic ips macs (vm.node = other.node) o := by
    constructor
    · intro h
      refine ⟨fun a ha => h a (List.mem_append_left _ ha), fun o ho => ?_⟩
      exact hmade.apart_iff.mp (h nic (List.mem_append_right _ List.mem_cons_self) o ho).symm
    · rintro ⟨hkept, hnew⟩ a ha b hb
      rcases List.mem_append.mp ha with ha | ha
      · exact hkept a ha b hb
      · rw [List.mem_singleton.mp ha]
        exact (hmade.apart_iff.mpr (hnew b hb)).symm
  constructor
  · intro h
    exact ⟨fun other ho hne => ((hbetween other).mp (h.others other ho hne)).1, hself.mp h.own,
      fun other ho hne => ((hbetween other).mp (h.others other ho hne)).2⟩
  · rintro ⟨hkept, hown', hnew⟩
    exact ⟨hself.mpr hown',
      fun other ho hne => (hbetween other).mpr ⟨hkept other ho hne, hnew other ho hne⟩⟩

theorem Sound.spawn {p : Phase} (h : Sound site w) (hp : p.Sound site) :
    Sound site { w with pool := w.pool.spawn p } := by
  intro i q hq
  rcases Pool.of_get_spawn hq with ⟨-, rfl⟩ | ⟨-, hq⟩
  · exact hp
  · exact h i q hq

theorem Sound.take {i : ℕ} {p : Phase} {m : Move Guests Phase} (h : Sound site w)
    (hget : w.pool.get i = some p) (hs : m.spawned = none)
    (hnext : ∀ q, m.next = some q → q.Sound site) : Sound site (w.take i m) := by
  intro j q hq
  rcases Crew.of_get_take hget hq with ⟨-, hq⟩ | hq | ⟨-, hq⟩
  · exact hnext q hq
  · rw [hs] at hq
    cases hq
  · exact h j q hq

theorem distinct_insert (h : Distinct w) : Table.Pairs Guest.Own Guest.Between (w.shared.insert vm) ↔
    Table.Fits Guest.Own Guest.Between w.shared vm :=
  Table.pairs_insert_iff between_symm h

theorem sound_turn (w : World) (links : Except String Unit) {p : Phase} (hp : p.Sound site) :
    (p.turn site w.shared links).spawned = none ∧
      ∀ q, (p.turn site w.shared links).next = some q → q.Sound site := by
  cases p with
  | adding vm nic ips macs => exact ⟨rfl, by simp [Phase.turn]⟩
  | detaching vm tap => exact ⟨rfl, by simp [Phase.turn]⟩
  | attaching vm req =>
    unfold Phase.turn
    dsimp only
    split
    · exact ⟨rfl, by simp⟩
    · rename_i nic hnic
      refine ⟨rfl, fun q hq => ?_⟩
      cases hq
      exact ⟨hp, allocateNic_made hnic req.dualStack⟩

/-- One step: the calls stay sound, and the NICs stay distinct when the step is careful. -/
theorem step_distinct {a : Action} (hs : Sound site w) (hd : Distinct w)
    (h : step site w a = some w') : Sound site w' ∧ (Distinct w' ↔ Careful site w a) := by
  cases a with
  | create requested picked name nets node =>
    obtain ⟨guests, hguests, rfl⟩ := Option.map_eq_some_iff.mp h
    rw [created_guest (toOption_some hguests)]
    exact ⟨hs, distinct_insert hd⟩
  | attachNic id req =>
    obtain ⟨vm, hvm, rfl⟩ := Option.map_eq_some_iff.mp h
    exact ⟨hs.spawn (hd.each vm (stopped_mem (toOption_some hvm))), iff_of_true hd trivial⟩
  | detachNic id tap =>
    obtain ⟨vm, hvm, rfl⟩ := Option.map_eq_some_iff.mp h
    exact ⟨hs.spawn (hd.each vm (stopped_mem (toOption_some hvm))), iff_of_true hd trivial⟩
  | turn task links =>
    obtain ⟨p, hget, rfl⟩ := Option.map_eq_some_iff.mp h
    have hp := hs task p hget
    obtain ⟨hspawned, hnext⟩ := sound_turn w links hp
    refine ⟨hs.take hget hspawned hnext, ?_⟩
    unfold Distinct Careful
    rw [Crew.take_shared]
    dsimp only
    rw [hget]
    cases p with
    | attaching vm req =>
      refine iff_of_true ?_ trivial
      unfold Phase.turn
      dsimp only
      split <;> exact hd
    | adding vm nic ips macs => exact (distinct_insert hd).trans (fits_push_iff hp.1 hp.2 w.shared)
    | detaching vm tap =>
      refine (distinct_insert hd).trans ⟨fun hf => hf.others, fun hf => ⟨own_without hp tap, hf⟩⟩

/-- Through every run the NICs stay distinct exactly when each step of it is careful. -/
theorem nics_distinct_iff {as : List Action} (r : Run (Steps (step site)) w as w')
    (hcalls : ∀ i, w.pool.get i = none) (hd : Distinct w) :
    (∀ bs u, bs <+: as → Run (Steps (step site)) w bs u → Distinct u) ↔
      Run (Guarded (Careful site) (Steps (step site))) w as w' :=
  r.always_iff_of (fun _ _ _ _ => Run.steps_det) (fun _ _ _ hs hd h => step_distinct hs hd h)
    (fun i p hp => by rw [hcalls i] at hp; cases hp) hd

def lanSite : Site where
  networks id := some { id := id, name := "lan", cidr := "10.88.0.0/24", mode := .bridge }
  salt := []

def nobody : World := ⟨Table.empty, ⟨[]⟩⟩

theorem nobody_distinct : Distinct nobody := Table.pairs_empty

theorem nobody_calls (i : ℕ) : nobody.pool.get i = none := rfl

def attaches (task : ℕ) : List Action :=
  [.attachNic (.numeric 100) { networkId := 7 }, .turn task (.ok ()), .turn task (.ok ())]

/-- A NIC is detached from before another one. -/
def attachesAgain : List Action :=
  .create (some (.numeric 100)) (.numeric 100) "web" [] 1 :: attaches 0 ++ attaches 1 ++
    [.detachNic (.numeric 100) "p1000", .turn 2 (.ok ())] ++ attaches 3

theorem attachesAgain_run :
    Run (Steps (step lanSite)) nobody attachesAgain (exec (step lanSite) nobody attachesAgain) :=
  .of_exec (by decide +kernel)

theorem attachesAgain_distinct :
    (∀ bs u, bs <+: attachesAgain → Run (Steps (step lanSite)) nobody bs u → Distinct u) ↔
      Run (Guarded (Careful lanSite) (Steps (step lanSite))) nobody attachesAgain
        (exec (step lanSite) nobody attachesAgain) :=
  nics_distinct_iff attachesAgain_run nobody_calls nobody_distinct

/-- The number of NICs is again that of one that stayed, and so is the tap. -/
theorem attached_again_shares_tap : ¬ ∀ (site : Site) (w w' : World) (as : List Action),
    (∀ i, w.pool.get i = none) → Distinct w → Run (Steps (step site)) w as w' → Distinct w' := by
  intro hall
  have hd := hall lanSite nobody _ _ nobody_calls nobody_distinct attachesAgain_run
  have htaps : (exec (step lanSite) nobody attachesAgain).shared.rows.map (fun vm =>
      vm.nets.filterMap (fun nic => nic.tap)) = [["p1001", "p1001"]] := by decide +kernel
  obtain ⟨vm, hvm, hnets⟩ := List.mem_map.mp (htaps ▸ List.mem_singleton_self ["p1001", "p1001"])
  have hnodup := (hd.each vm hvm).taps_nodup
  rw [hnets] at hnodup
  exact absurd hnodup (by decide)

end Pertisk.Net
