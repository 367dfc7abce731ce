import Mathlib.Data.Finset.Card
import Pertisk.Node

namespace Pertisk
open Lib

namespace Cluster

variable (c : Cluster) (now : Nat)

/-- The node may write, and takes the lead among those that it hears. -/
def leads : Prop := c.hasQuorum now = true ∧ c.isLeader now = true

instance : Decidable (c.leads now) := inferInstanceAs (Decidable (_ ∧ _))

theorem onlineIds_length : (c.onlineIds now).length = (c.onlineMembers now).length :=
  List.length_map _

theorem onlineIds_sublist :
    (c.onlineIds now).Sublist (c.members.rows.map (fun m => m.record.id)) :=
  List.filter_sublist.map _

theorem leader_le (h : c.isLeader now = true) {id : NodeId} (hid : id ∈ c.onlineIds now) :
    c.selfId ≤ id :=
  (List.min?_eq_some_iff.mp (of_decide_eq_true h)).2 id hid

/-- The single survivor of two nodes has the witness; any other quorum is a majority. -/
theorem hasQuorum_cases (h : c.hasQuorum now = true) :
    c.memberCount < 2 * (c.onlineIds now).length ∨
      (c.memberCount = 2 ∧ (c.onlineIds now).length = 1 ∧ c.holdsWitness now = true) := by
  rw [onlineIds_length]
  simp only [hasQuorum, quorumWithWitness, Pertisk.hasQuorum, Bool.or_eq_true, Bool.and_eq_true,
    decide_eq_true_eq, beq_iff_eq] at h
  rcases h with ⟨-, h⟩ | ⟨⟨htotal, honline⟩, hlease⟩
  · left
    omega
  · exact .inr ⟨htotal, honline, hlease⟩

end Cluster

/-- Every member has a view of its own, and all have the same member list. -/
structure Agreed (members : List NodeId) (view : NodeId → Cluster) : Prop where
  distinct : members.Nodup
  self : ∀ n ∈ members, (view n).selfId = n
  ids : ∀ n ∈ members, (view n).members.rows.map (fun m => m.record.id) = members

section
variable {members : List NodeId} {view : NodeId → Cluster} {now : NodeId → Nat} {a b : NodeId}

/-- Two members that both have quorum and both hear a third hear each other. -/
def Linked (members : List NodeId) (view : NodeId → Cluster) (now : NodeId → Nat) : Prop :=
  ∀ a ∈ members, ∀ b ∈ members, ∀ c, (view a).hasQuorum (now a) = true →
    (view b).hasQuorum (now b) = true → c ∈ (view a).onlineIds (now a) →
      c ∈ (view b).onlineIds (now b) → b ∈ (view a).onlineIds (now a)

/-- The witness lease is in one hand. -/
def OneHolder (members : List NodeId) (view : NodeId → Cluster) (now : NodeId → Nat) : Prop :=
  ∀ a ∈ members, ∀ b ∈ members, (view a).holdsWitness (now a) = true →
    (view b).holdsWitness (now b) = true → a = b

theorem Agreed.onlineIds (h : Agreed members view) (now : NodeId → Nat) (ha : a ∈ members) :
    ((view a).onlineIds (now a)).Sublist members := by
  have hsub := (view a).onlineIds_sublist (now a)
  rwa [h.ids a ha] at hsub

theorem Agreed.memberCount (h : Agreed members view) (ha : a ∈ members) :
    (view a).memberCount = members.length := by
  have hlen := congrArg List.length (h.ids a ha)
  rwa [List.length_map] at hlen

/-- Views that count more than all members together have one in common. -/
theorem Agreed.meet (h : Agreed members view) (ha : a ∈ members) (hb : b ∈ members)
    (hcount : members.length <
      ((view a).onlineIds (now a)).length + ((view b).onlineIds (now b)).length) :
    ∃ c, c ∈ (view a).onlineIds (now a) ∧ c ∈ (view b).onlineIds (now b) := by
  have hla := h.onlineIds now ha
  have hlb := h.onlineIds now hb
  have hcard : members.toFinset.card <
      ((view a).onlineIds (now a)).toFinset.card + ((view b).onlineIds (now b)).toFinset.card := by
    rw [List.toFinset_card_of_nodup h.distinct,
      List.toFinset_card_of_nodup (hla.nodup h.distinct),
      List.toFinset_card_of_nodup (hlb.nodup h.distinct)]
    exact hcount
  obtain ⟨c, hc⟩ := Finset.inter_nonempty_of_card_lt_card_add_card
    (fun x hx => List.mem_toFinset.mpr (hla.subset (List.mem_toFinset.mp hx)))
    (fun x hx => List.mem_toFinset.mpr (hlb.subset (List.mem_toFinset.mp hx))) hcard
  obtain ⟨hca, hcb⟩ := Finset.mem_inter.mp hc
  exact ⟨c, List.mem_toFinset.mp hca, List.mem_toFinset.mp hcb⟩

/-- Two quorums share a member, unless both rest on the witness. -/
theorem Agreed.quorums_meet (h : Agreed members view) (hone : OneHolder members view now)
    (ha : a ∈ members) (hb : b ∈ members) (hqa : (view a).hasQuorum (now a) = true)
    (hqb : (view b).hasQuorum (now b) = true) :
    a = b ∨ ∃ c, c ∈ (view a).onlineIds (now a) ∧ c ∈ (view b).onlineIds (now b) := by
  have hna := h.memberCount ha
  have hnb := h.memberCount hb
  rcases (view a).hasQuorum_cases (now a) hqa with hma | ⟨hta, hoa, hwa⟩
  · right
    refine h.meet ha hb ?_
    rcases (view b).hasQuorum_cases (now b) hqb with hmb | ⟨htb, hob, -⟩ <;> omega
  · rcases (view b).hasQuorum_cases (now b) hqb with hmb | ⟨htb, hob, hwb⟩
    · right
      exact h.meet ha hb (by omega)
    · exact .inl (hone a ha b hb hwa hwb)

theorem one_quorate_leader (h : Agreed members view) (hlinked : Linked members view now)
    (hone : OneHolder members view now) (ha : a ∈ members) (hb : b ∈ members)
    (hla : (view a).leads (now a)) (hlb : (view b).leads (now b)) : a = b := by
  rcases h.quorums_meet hone ha hb hla.1 hlb.1 with hab | ⟨c, hca, hcb⟩
  · exact hab
  · have hab := (view a).leader_le (now a) hla.2 (hlinked a ha b hb c hla.1 hlb.1 hca hcb)
    have hba := (view b).leader_le (now b) hlb.2 (hlinked b hb a ha c hlb.1 hla.1 hcb hca)
    rw [h.self a ha] at hab
    rw [h.self b hb] at hba
    exact le_antisymm hab hba

end

/-- The view of a node of three that has just exchanged heartbeats with these. -/
def heard (n : NodeId) (peers : List NodeId) : Cluster :=
  peers.foldl (fun c peer => c.touch 20000 peer none) (Node.fresh n).cluster

/-- Nodes 1 and 2 reach node 3 and not each other. -/
def chain (n : NodeId) : Cluster := heard n (if n = 3 then [1, 2] else [3])

def triangle (n : NodeId) : Cluster := heard n ([1, 2, 3].filter (· ≠ n))

theorem chain_agreed : Agreed [1, 2, 3] chain where
  distinct := by decide
  self := by decide
  ids := by decide

theorem one_quorate_leader_triangle : ∃ a ∈ [1, 2, 3], (triangle a).leads 20000 ∧
    ∀ b ∈ [1, 2, 3], (triangle b).leads 20000 → a = b := by
  have hagreed : Agreed [1, 2, 3] triangle := ⟨by decide, by decide, by decide⟩
  have honline : ∀ a ∈ [1, 2, 3], ∀ b ∈ [1, 2, 3], b ∈ (triangle a).onlineIds 20000 := by decide
  have hlinked : Linked [1, 2, 3] triangle (fun _ => 20000) :=
    fun a ha b hb _ _ _ _ _ => honline a ha b hb
  have hone : OneHolder [1, 2, 3] triangle (fun _ => 20000) := by
    unfold OneHolder
    decide
  have hleads : (triangle 1).leads 20000 := by decide
  refine ⟨1, by decide, hleads, fun b hb hlb => ?_⟩
  exact one_quorate_leader hagreed hlinked hone (by decide) hb hleads hlb

/-- Two nodes that only a third one hears both take the lead. -/
theorem two_quorate_leaders : ¬ ∀ (members : List NodeId) (view : NodeId → Cluster)
    (now : NodeId → Nat), Agreed members view → ∀ a ∈ members, ∀ b ∈ members,
      (view a).leads (now a) → (view b).leads (now b) → a = b := by
  intro h
  have hab := h [1, 2, 3] chain (fun _ => 20000) chain_agreed 1 (by decide) 2 (by decide)
    (by decide) (by decide)
  cases hab

end Pertisk
