import Pertisk.Net.Exact

namespace Pertisk.Net
open Lib

/-- The address is a host's of the network's range, and neither the gateway's nor one in use. -/
structure Fits (network : NetworkRecord) (used : List String) (ip : ℕ) : Prop where
  usable : ∀ net, Ipv4Net.parse network.cidr = .ok net → net.Usable ip
  gateway : ∀ s, network.gateway = some s → parseIpv4 s ≠ .ok ip
  used : ∀ s ∈ used, parseIpv4 s ≠ .ok ip

/-- What is not looked at in an address that is asked for: whether it is the first or the last of
the range, whether it is in a bridged network's, and whether another spelling of it is taken. -/
structure Plain (network : NetworkRecord) (used : List String) (text : String) (ip : ℕ) : Prop where
  inner : ∀ net, Ipv4Net.parse network.cidr = .ok net →
    ip ≠ net.network ∧ ip ≠ net.broadcast ∧ (network.mode = .bridge → net.contains ip = true)
  spelled : ∀ s, network.gateway = some s ∨ s ∈ used → s ≠ text → parseIpv4 s ≠ .ok ip

variable {network : NetworkRecord} {used : List String} {requested : Option String}
  {text : String} {ip : ℕ} {net : Ipv4Net}

theorem usable_of_free {gw : Option ℕ} (hn : net.Formed) (h : Ipv4Net.Free net gw used ip) :
    net.Usable ip := by
  obtain ⟨hle, hlt, -, -⟩ := h
  have hend := Ipv4Net.end_le hn
  have hbroadcast := Ipv4Net.broadcast_eq hn
  have hhas : net.Has ip := ⟨by omega, by omega⟩
  exact ⟨(Ipv4Net.contains_iff_has hn (hhas.lt hn)).mpr hhas, by omega, by omega⟩

/-- Only a network with a range of its own has one here. -/
theorem range_some (h : network.range = .ok (some net)) : Ipv4Net.parse network.cidr = .ok net := by
  unfold NetworkRecord.range at h
  cases hmode : network.mode with
  | bridge =>
    simp only [hmode] at h
    cases h
  | nat =>
    simp only [hmode] at h
    cases hcidr : Ipv4Net.parse network.cidr with
    | error e =>
      rw [hcidr] at h
      cases h
    | ok other =>
      rw [hcidr] at h
      cases h
      rfl

theorem allocated_lt (hrange : network.range = .ok (some net))
    (h : net.allocate network.gateway used = .ok ip) : ip < 2 ^ 32 := by
  have hn := Ipv4Net.parse_formed (range_some hrange)
  obtain ⟨gw, hgw, -⟩ := bind_ok h
  obtain ⟨-, hlt, -⟩ := ((Ipv4Net.allocate_ok_iff hn hgw).mp h).1
  have hend := Ipv4Net.end_le hn
  omega

/-- An address that the pool finds of itself fits. -/
theorem fits_allocated (hrange : network.range = .ok (some net))
    (h : net.allocate network.gateway used = .ok ip) : Fits network used ip := by
  have hparse := range_some hrange
  have hn := Ipv4Net.parse_formed hparse
  obtain ⟨gw, hgw, -⟩ := bind_ok h
  have hfree := ((Ipv4Net.allocate_ok_iff hn hgw).mp h).1
  refine ⟨fun other hother => ?_, fun s hs hsame => ?_, hfree.2.2.2⟩
  · rw [hparse] at hother
    cases hother
    exact usable_of_free hn hfree
  · rw [hs] at hgw
    refine hfree.2.2.1 ?_
    simp only [Option.mapM_some, hsame] at hgw
    cases hgw
    rfl

/-- What is checked of an address that is asked for. -/
theorem requested_ok {found : Option String} (h : nicIp network (some text) used = .ok found) :
    ∃ range ip, network.range = .ok range ∧ parseIpv4 text = .ok ip ∧ found = some (ipv4String ip) ∧
      (∀ net ∈ range, net.contains ip = true) ∧ network.gateway ≠ some text ∧ text ∉ used := by
  obtain ⟨range, hrange, h⟩ := bind_ok h
  obtain ⟨ip, hip, h⟩ := bind_ok h
  split at h
  · cases h
  · rename_i hin
    split at h
    · cases h
    · rename_i hgateway
      split at h
      · cases h
      · rename_i hused
        cases h
        refine ⟨range, ip, hrange, hip, rfl, ?_, hgateway, hused⟩
        rintro net hnet
        cases hnet
        simpa using hin

/-- The address of an automatic NIC is one that the pool finds. -/
theorem automatic_ok {found : Option String} (h : nicIp network none used = .ok found) :
    found = none ∨ ∃ net ip, network.range = .ok (some net) ∧
      net.allocate network.gateway used = .ok ip ∧ found = some (ipv4String ip) := by
  obtain ⟨range, hrange, h⟩ := bind_ok h
  cases range with
  | none =>
    cases h
    exact .inl rfl
  | some net =>
    dsimp only at h
    split at h
    · obtain ⟨ip, hip, h⟩ := bind_ok h
      cases h
      exact .inr ⟨net, ip, hrange, hip, rfl⟩
    · cases h
      exact .inl rfl

theorem fits_iff_plain {range : Option Ipv4Net} (hrange : network.range = .ok range)
    (hip : parseIpv4 text = .ok ip) (hin : ∀ net ∈ range, net.contains ip = true)
    (hgateway : network.gateway ≠ some text) (hused : text ∉ used) :
    Fits network used ip ↔ Plain network used text ip := by
  constructor
  · intro h
    refine ⟨fun net hnet => ?_, ?_⟩
    · obtain ⟨hcontains, hfirst, hlast⟩ := h.usable net hnet
      exact ⟨hfirst, hlast, fun _ => hcontains⟩
    · rintro s (hs | hs) -
      · exact h.gateway s hs
      · exact h.used s hs
  · intro h
    refine ⟨fun net hnet => ?_, fun s hs => ?_, fun s hs => ?_⟩
    · obtain ⟨hfirst, hlast, hbridge⟩ := h.inner net hnet
      refine ⟨?_, hfirst, hlast⟩
      cases hmode : network.mode with
      | bridge => exact hbridge hmode
      | nat =>
        unfold NetworkRecord.range at hrange
        simp only [hmode, hnet] at hrange
        cases hrange
        exact hin net rfl
    · refine h.spelled s (.inl hs) ?_
      rintro rfl
      exact hgateway hs
    · refine h.spelled s (.inr hs) ?_
      rintro rfl
      exact hused hs

/-- A new NIC's address fits exactly when it was not asked for, or what is not looked at is as it
should be. -/
theorem allocateNic_fits_iff {site : Site} {networkId : Uuid} {vmId : VmId} {i : ℕ}
    {usedMacs : List String} {links : Except String Unit} {nic : Nic}
    (h : allocateNic site networkId vmId i requested used usedMacs links = .ok nic) :
    ∃ network, site.networks networkId = some network ∧
      ((∀ text ip, nic.ip = some text → parseIpv4 text = .ok ip → Fits network used ip) ↔
        ∀ text ip, requested = some text → parseIpv4 text = .ok ip → Plain network used text ip) := by
  unfold allocateNic at h
  split at h
  · cases h
  · rename_i network hnetwork
    refine ⟨network, hnetwork, ?_⟩
    dsimp only at h
    split at h
    · cases h
    · obtain ⟨found, hfound, h⟩ := bind_ok h
      obtain ⟨-, -, h⟩ := bind_ok h
      cases h
      cases requested with
      | none =>
        refine iff_of_true (fun text ip htext hparse => ?_) nofun
        rcases automatic_ok hfound with hnone | ⟨net, found, hrange, hallocate, rfl⟩
        · rw [hnone] at htext
          cases htext
        · cases htext
          have hlt := allocated_lt hrange hallocate
          rw [parseIpv4_ipv4String hlt] at hparse
          cases hparse
          exact fits_allocated hrange hallocate
      | some text =>
        obtain ⟨range, ip, hrange, hip, rfl, hin, hgateway, hused⟩ := requested_ok hfound
        have hiff := fits_iff_plain hrange hip hin hgateway hused
        have hlt := Ipv4Net.parseIpv4_lt hip
        constructor
        · intro hfits text' other htext hother
          cases htext
          rw [hip] at hother
          cases hother
          exact hiff.mp (hfits _ _ rfl (parseIpv4_ipv4String hlt))
        · intro hplain text' other htext hother
          cases htext
          rw [parseIpv4_ipv4String hlt] at hother
          cases hother
          exact hiff.mpr (hplain text ip rfl hip)

def natSite : Site where
  networks id := some {
    id := id, name := "lab", cidr := "10.88.0.0/24", gateway := some "10.88.0.1", mode := .nat }
  salt := []

def labNic (ip : String) : Nic where
  networkId := some 7
  tap := some "p1000"
  mac := some (uniqueGuestMac (.numeric 100) 0 [] [])
  ip := some ip

theorem allocateNic_fits_lab : ∃ network, natSite.networks 7 = some network ∧
    ((∀ text ip, some "10.88.0.9" = some text → parseIpv4 text = .ok ip →
        Fits network ["10.88.0.2"] ip) ↔
      ∀ text ip, some "10.88.0.09" = some text → parseIpv4 text = .ok ip →
        Plain network ["10.88.0.2"] text ip) :=
  allocateNic_fits_iff (show allocateNic natSite 7 (.numeric 100) 0 (some "10.88.0.09")
      ["10.88.0.2"] [] (.ok ()) = .ok (labNic "10.88.0.9") by decide +kernel)

/-- Another spelling of the gateway's address is not the gateway's text. -/
theorem requested_is_gateway : ¬ ∀ (site : Site) (networkId : Uuid) (vmId : VmId) (i : ℕ)
    (requested : Option String) (used usedMacs : List String) (links : Except String Unit)
    (nic : Nic), allocateNic site networkId vmId i requested used usedMacs links = .ok nic →
      ∃ network, site.networks networkId = some network ∧
        ∀ text ip, nic.ip = some text → parseIpv4 text = .ok ip → Fits network used ip := by
  intro hall
  obtain ⟨network, hnetwork, hfits⟩ := hall natSite 7 (.numeric 100) 0 (some "10.88.0.01") [] []
    (.ok ()) (labNic "10.88.0.1") (by decide +kernel)
  cases hnetwork
  have hgateway : parseIpv4 "10.88.0.1" = .ok 173539329 := by decide +kernel
  exact (hfits "10.88.0.1" 173539329 rfl hgateway).gateway "10.88.0.1" rfl hgateway

end Pertisk.Net
