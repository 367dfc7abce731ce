import Mathlib.Data.List.Sort
import Pertisk.Lib.Run
import Pertisk.Schedule

namespace Pertisk.Placement
open Lib

/-- A running guest the rebalance planner may move. -/
structure PlacedGuest where
  id : VmId
  node : NodeId
  group : String
  vcpus : Nat
  memoryMib : Nat
  deriving DecidableEq

def guestFits (n : NodeLoad) (vcpus memoryMib : Nat) : Bool :=
  n.online && decide (vcpus ≤ n.cpuCapacity - n.usedVcpus) &&
    decide (memoryMib ≤ n.guestMemoryCapacity - n.usedMemoryMib)

def saturatingAdd32 (a b : Nat) : Nat := min (a + b) u32Max

/-- The loads and the placement that the planner works on. -/
structure Layout where
  nodes : List NodeLoad
  place : List PlacedGuest
  deriving DecidableEq

/-- `iter_mut().find(..)`. -/
def modifyFirst {α : Type} (p : α → Bool) (f : α → α) : List α → List α
  | [] => []
  | x :: xs => if p x then f x :: xs else x :: modifyFirst p f xs

namespace Layout

variable (s : Layout) (hold : List VmId)

/-- The guests that may move and share their node with one of their group, by node and id, with
where they are in the placement. -/
def crowded : List (PlacedGuest × Nat) :=
  (s.place.zipIdx.filter (fun e => !hold.contains e.1.id && s.place.zipIdx.any (fun other =>
    other.2 != e.2 && other.1.node == e.1.node && other.1.group == e.1.group))).insertionSort
      (fun a b => toLex (a.1.node, a.1.id) ≤ toLex (b.1.node, b.1.id))

def occupied (guest : PlacedGuest) : List NodeId :=
  (s.place.filter (fun peer => peer.group == guest.group)).map PlacedGuest.node

def destination (guest : PlacedGuest) : Option NodeId :=
  ((s.nodes.filter (fun n => n.id != guest.node && !(s.occupied guest).contains n.id &&
    guestFits n guest.vcpus guest.memoryMib)).argmin NodeLoad.loadScore).map NodeLoad.id

def relocate (guest : PlacedGuest) (idx : Nat) (dest : NodeId) : Layout :=
  let nodes := modifyFirst (fun n => n.id == guest.node) (fun src =>
    { src with
      usedVcpus := src.usedVcpus - guest.vcpus
      usedMemoryMib := src.usedMemoryMib - guest.memoryMib }) s.nodes
  let nodes := modifyFirst (fun n => n.id == dest) (fun dst =>
    { dst with
      usedVcpus := saturatingAdd32 dst.usedVcpus guest.vcpus
      usedMemoryMib := saturatingAdd32 dst.usedMemoryMib guest.memoryMib }) nodes
  { nodes := nodes, place := s.place.modify idx (fun g => { g with node := dest }) }

/-- The first crowded guest that finds a destination moves there. -/
def next : Option (Layout × (VmId × NodeId)) :=
  (s.crowded hold).findSome? (fun e =>
    (s.destination e.1).map (fun dest => (s.relocate e.1 e.2 dest, (e.1.id, dest))))

end Layout

/-- Move running guests that share a placement group onto free nodes. Guests in `hold` stay where
they are and still occupy their node. -/
def rebalancePlan (guests : List PlacedGuest) (nodes : List NodeLoad) (hold : List VmId) :
    Option (List (VmId × NodeId)) :=
  (greedy (fun s => Layout.next s hold) (guests.length + 1) ⟨nodes, guests⟩).map Prod.fst

end Pertisk.Placement

namespace Pertisk.Placement
open Lib

section lists
variable {α κ : Type} {key : α → κ} {l : List α} {x y : α} {i j : ℕ}

/-- Where the keys differ, so do the places. -/
theorem getElem?_key_ne (h : (l.map key).Nodup) (hx : l[i]? = some x) (hy : l[j]? = some y) :
    i ≠ j ↔ key x ≠ key y := by
  refine not_congr ⟨?_, fun hkey => ?_⟩
  · rintro rfl
    cases hx.symm.trans hy
    rfl
  · have hi : i < (l.map key).length := by
      rw [List.length_map]
      exact (List.getElem?_eq_some_iff.mp hx).1
    refine (List.getElem?_inj hi h).mp ?_
    rw [List.getElem?_map, List.getElem?_map, hx, hy]
    exact congrArg some hkey

variable [DecidableEq κ]

/-- Where the keys differ, what is done to the first of a key is done to all of it. -/
theorem modifyFirst_eq_map (h : (l.map key).Nodup) (k : κ) (f : α → α) :
    modifyFirst (fun x => key x == k) f l = l.map (fun x => if key x = k then f x else x) := by
  induction l with
  | nil => rfl
  | cons a l ih =>
    rw [List.map_cons, List.nodup_cons] at h
    unfold modifyFirst
    by_cases ha : key a = k
    · have hrest : l.map (fun x => if key x = k then f x else x) = l := by
        refine (List.map_congr_left fun x hx => ?_).trans (List.map_id l)
        rw [if_neg]
        · rfl
        · rintro rfl
          exact h.1 (List.mem_map.mpr ⟨x, hx, ha.symm⟩)
      simp [ha, hrest]
    · simp [ha, ih h.2]

theorem modify_eq_map (h : (l.map key).Nodup) (hx : l[i]? = some x) (f : α → α) :
    l.modify i f = l.map (fun y => if key y = key x then f y else y) := by
  refine List.ext_getElem? fun j => ?_
  rw [List.getElem?_modify, List.getElem?_map]
  cases hy : l[j]? with
  | none => simp
  | some y =>
    have hiff := getElem?_key_ne h hy hx
    by_cases hij : i = j
    · subst hij
      cases hx.symm.trans hy
      simp
    · have hne : key y ≠ key x := hiff.mp (Ne.symm hij)
      simp [hij, hne]

end lists

/-- The node without the guest's share, and with it. -/
def unload (guest : PlacedGuest) (n : NodeLoad) : NodeLoad :=
  { n with
    usedVcpus := n.usedVcpus - guest.vcpus
    usedMemoryMib := n.usedMemoryMib - guest.memoryMib }

def burden (guest : PlacedGuest) (n : NodeLoad) : NodeLoad :=
  { n with
    usedVcpus := n.usedVcpus + guest.vcpus
    usedMemoryMib := n.usedMemoryMib + guest.memoryMib }

namespace Layout

variable (s : Layout) (hold : List VmId)

/-- What a move makes of the loads and the placement. -/
def moved (move : VmId × NodeId) : Layout :=
  match s.place.find? (fun g => g.id == move.1) with
  | none => s
  | some guest =>
    { nodes := s.nodes.map (fun n =>
        if n.id = guest.node then unload guest n
        else if n.id = move.2 then burden guest n else n)
      place := s.place.map (fun g => if g.id = move.1 then { g with node := move.2 } else g) }

/-- The ids are distinct, the guests are as large as their specs may be, and the nodes' sizes are
`u32`s. -/
structure Tidy : Prop where
  nodes : (s.nodes.map NodeLoad.id).Nodup
  guests : (s.place.map PlacedGuest.id).Nodup
  sizes : ∀ g ∈ s.place, 1 ≤ g.vcpus ∧ 64 ≤ g.memoryMib
  widths : ∀ n ∈ s.nodes, n.cpus ≤ u32Max ∧ n.memoryMib ≤ u32Max

/-- The guest is on a node with another one of its group. -/
def Shares (guest : PlacedGuest) : Prop :=
  ∃ peer ∈ s.place, peer.id ≠ guest.id ∧ peer.node = guest.node ∧ peer.group = guest.group

instance (guest : PlacedGuest) : Decidable (s.Shares guest) :=
  inferInstanceAs (Decidable (∃ peer ∈ s.place, _))

/-- No guest of the group is on the node. -/
def Free (group : String) (node : NodeId) : Prop :=
  ∀ peer ∈ s.place, peer.group = group → peer.node ≠ node

/-- A guest that may move goes to another node that is online, has none of its group and has room
for it. -/
def Sound (move : VmId × NodeId) : Prop :=
  ∃ guest ∈ s.place, guest.id = move.1 ∧ guest.id ∉ hold ∧ guest.node ≠ move.2 ∧
    s.Free guest.group move.2 ∧ ∃ n ∈ s.nodes, n.id = move.2 ∧ n.online = true ∧
      n.usedVcpus + guest.vcpus ≤ n.cpuCapacity ∧
      n.usedMemoryMib + guest.memoryMib ≤ n.guestMemoryCapacity

/-- No guest that may move shares its node with one of its group while a node without any of them
has room for it. -/
def Spread : Prop :=
  ∀ guest ∈ s.place, guest.id ∉ hold → s.Shares guest →
    ∀ n ∈ s.nodes, s.Free guest.group n.id → guestFits n guest.vcpus guest.memoryMib = false

/-- The ids of the guests that may move and share their node with one of their group. -/
def sharing : Finset VmId :=
  ((s.place.filter (fun g => !hold.contains g.id && decide (s.Shares g))).map
    PlacedGuest.id).toFinset

variable {s t : Layout} {hold : List VmId} {guest : PlacedGuest} {dest : NodeId} {i : ℕ}
  {move : VmId × NodeId}

theorem mem_crowded (hs : s.Tidy) : (guest, i) ∈ s.crowded hold ↔
    s.place[i]? = some guest ∧ guest.id ∉ hold ∧ s.Shares guest := by
  unfold crowded
  rw [List.mem_insertionSort, List.mem_filter, List.mem_zipIdx_iff_getElem?]
  simp only [Bool.and_eq_true, Bool.not_eq_true', List.contains_eq_mem, decide_eq_false_iff_not,
    List.any_eq_true, bne_iff_ne, beq_iff_eq]
  refine and_congr_right fun hi => and_congr_right fun _ => ?_
  constructor
  · rintro ⟨⟨peer, j⟩, hpeer, ⟨hne, hnode⟩, hgroup⟩
    have hj := List.mem_zipIdx_iff_getElem?.mp hpeer
    exact ⟨peer, List.mem_of_getElem? hj, (getElem?_key_ne hs.guests hj hi).mp hne, hnode, hgroup⟩
  · rintro ⟨peer, hpeer, hne, hnode, hgroup⟩
    obtain ⟨j, hj⟩ := List.mem_iff_getElem?.mp hpeer
    exact ⟨(peer, j), List.mem_zipIdx_iff_getElem?.mpr hj,
      ⟨(getElem?_key_ne hs.guests hj hi).mpr hne, hnode⟩, hgroup⟩

theorem mem_sharing {id : VmId} : id ∈ s.sharing hold ↔
    ∃ g ∈ s.place, g.id = id ∧ g.id ∉ hold ∧ s.Shares g := by
  unfold sharing
  rw [List.mem_toFinset, List.mem_map]
  simp only [List.mem_filter, Bool.and_eq_true, Bool.not_eq_true', List.contains_eq_mem,
    decide_eq_false_iff_not, decide_eq_true_eq]
  constructor
  · rintro ⟨g, ⟨hg, hfree, hshares⟩, rfl⟩
    exact ⟨g, hg, rfl, hfree, hshares⟩
  · rintro ⟨g, hg, rfl, hfree, hshares⟩
    exact ⟨g, ⟨hg, hfree, hshares⟩, rfl⟩

theorem occupied_iff {node : NodeId} :
    (s.occupied guest).contains node = false ↔ s.Free guest.group node := by
  unfold occupied Free
  simp only [List.contains_eq_mem, decide_eq_false_iff_not, List.mem_map, List.mem_filter,
    beq_iff_eq, not_exists, not_and, and_imp]

theorem destination_some (h : s.destination guest = some dest) :
    dest ≠ guest.node ∧ s.Free guest.group dest ∧
      ∃ n ∈ s.nodes, n.id = dest ∧ guestFits n guest.vcpus guest.memoryMib = true := by
  obtain ⟨n, hn, rfl⟩ := Option.map_eq_some_iff.mp h
  obtain ⟨hmem, hok⟩ := List.mem_filter.mp (List.argmin_mem hn)
  simp only [Bool.and_eq_true, bne_iff_ne, Bool.not_eq_true'] at hok
  exact ⟨hok.1.1, occupied_iff.mp hok.1.2, n, hmem, rfl, hok.2⟩

theorem destination_none (h : s.destination guest = none) {n : NodeLoad} (hn : n ∈ s.nodes)
    (hne : n.id ≠ guest.node) (hfree : s.Free guest.group n.id) :
    guestFits n guest.vcpus guest.memoryMib = false := by
  by_contra hfits
  have hnil := List.argmin_eq_none.mp (Option.map_eq_none_iff.mp h)
  refine List.ne_nil_of_mem (List.mem_filter.mpr ⟨hn, ?_⟩) hnil
  rw [Bool.not_eq_false] at hfits
  rw [occupied_iff.mpr hfree, hfits]
  simp [hne]

/-- What fits a node has room beside what is there. -/
theorem fits_room {n : NodeLoad} (hsize : 1 ≤ guest.vcpus ∧ 64 ≤ guest.memoryMib)
    (h : guestFits n guest.vcpus guest.memoryMib = true) :
    n.online = true ∧ n.usedVcpus + guest.vcpus ≤ n.cpuCapacity ∧
      n.usedMemoryMib + guest.memoryMib ≤ n.guestMemoryCapacity := by
  unfold guestFits at h
  simp only [Bool.and_eq_true, decide_eq_true_eq] at h
  obtain ⟨⟨honline, hcpu⟩, hmem⟩ := h
  refine ⟨honline, ?_, ?_⟩ <;> omega

theorem capacity_le {n : NodeLoad} (h : n.cpus ≤ u32Max ∧ n.memoryMib ≤ u32Max) :
    n.cpuCapacity ≤ u32Max ∧ n.guestMemoryCapacity ≤ u32Max := by
  constructor
  · exact max_le (Nat.min_le_right _ _) h.1
  · exact (Nat.sub_le _ _).trans h.2

theorem moved_of (hs : s.Tidy) (hguest : guest ∈ s.place) :
    s.moved (guest.id, dest) =
      { nodes := s.nodes.map (fun n =>
          if n.id = guest.node then unload guest n
          else if n.id = dest then burden guest n else n)
        place := s.place.map (fun g => if g.id = guest.id then { g with node := dest } else g) } := by
  have hfind : s.place.find? (fun g => g.id == guest.id) = some guest := by
    cases hfound : s.place.find? (fun g => g.id == guest.id) with
    | none => exact absurd (List.find?_eq_none.mp hfound guest hguest) (by simp)
    | some other =>
      have hid : other.id = guest.id := by simpa using List.find?_some hfound
      rw [List.inj_on_of_nodup_map hs.guests (List.mem_of_find?_eq_some hfound) hguest hid]
  unfold moved
  dsimp only
  rw [hfind]

/-- The planner's move is the move of the guest. -/
theorem relocate_eq (hs : s.Tidy) (hi : s.place[i]? = some guest)
    (hdest : s.destination guest = some dest) :
    s.relocate guest i dest = s.moved (guest.id, dest) := by
  have hguest := List.mem_of_getElem? hi
  obtain ⟨hne, -, n, hn, hid, hfits⟩ := destination_some hdest
  obtain ⟨-, hcpu, hmem⟩ := fits_room (hs.sizes guest hguest) hfits
  obtain ⟨hcpuMax, hmemMax⟩ := capacity_le (hs.widths n hn)
  rw [moved_of hs hguest]
  unfold relocate
  dsimp only
  rw [modify_eq_map hs.guests hi, modifyFirst_eq_map hs.nodes]
  have hkeys : ((s.nodes.map (fun n => if n.id = guest.node then
      ({ n with
        usedVcpus := n.usedVcpus - guest.vcpus
        usedMemoryMib := n.usedMemoryMib - guest.memoryMib } : NodeLoad) else n)).map
          NodeLoad.id).Nodup := by
    rw [List.map_map]
    have hsame : (NodeLoad.id ∘ fun n : NodeLoad => if n.id = guest.node then
        ({ n with
          usedVcpus := n.usedVcpus - guest.vcpus
          usedMemoryMib := n.usedMemoryMib - guest.memoryMib } : NodeLoad) else n) =
            NodeLoad.id := by
      funext n
      simp only [Function.comp_apply]
      split <;> rfl
    rw [hsame]
    exact hs.nodes
  rw [modifyFirst_eq_map hkeys, List.map_map]
  congr 1
  refine List.map_congr_left fun m hm => ?_
  simp only [Function.comp_apply]
  by_cases hsrc : m.id = guest.node
  · have hnot : ¬ guest.node = dest := Ne.symm hne
    simp [hsrc, hnot, unload]
  · by_cases hdst : m.id = dest
    · obtain rfl : m = n := List.inj_on_of_nodup_map hs.nodes hm hn (hdst.trans hid.symm)
      have hcpu32 : saturatingAdd32 m.usedVcpus guest.vcpus = m.usedVcpus + guest.vcpus :=
        Nat.min_eq_left (hcpu.trans hcpuMax)
      have hmem32 : saturatingAdd32 m.usedMemoryMib guest.memoryMib =
          m.usedMemoryMib + guest.memoryMib := Nat.min_eq_left (hmem.trans hmemMax)
      rw [if_neg hsrc, if_neg hsrc, if_pos hdst, if_pos hdst, hcpu32, hmem32]
      rfl
    · rw [if_neg hsrc, if_neg hsrc, if_neg hdst, if_neg hdst]

theorem Tidy.moved (hs : s.Tidy) (hguest : guest ∈ s.place) :
    (s.moved (guest.id, dest)).Tidy := by
  rw [moved_of hs hguest]
  refine ⟨?_, ?_, fun g hg => ?_, fun n hn => ?_⟩
  · have hsame : (NodeLoad.id ∘ fun n => if n.id = guest.node then unload guest n
        else if n.id = dest then burden guest n else n) = NodeLoad.id := by
      funext n
      simp only [Function.comp_apply]
      split
      · rfl
      · split <;> rfl
    rw [List.map_map, hsame]
    exact hs.nodes
  · have hsame : (PlacedGuest.id ∘ fun g => if g.id = guest.id then
        ({ g with node := dest } : PlacedGuest) else g) = PlacedGuest.id := by
      funext g
      simp only [Function.comp_apply]
      split <;> rfl
    rw [List.map_map, hsame]
    exact hs.guests
  · obtain ⟨old, hold, rfl⟩ := List.mem_map.mp hg
    split <;> exact hs.sizes old hold
  · obtain ⟨old, hold, rfl⟩ := List.mem_map.mp hn
    split
    · exact hs.widths old hold
    · split <;> exact hs.widths old hold

/-- What a move of the planner does. -/
theorem next_some (hs : s.Tidy) (h : Moves (fun s => next s hold) s move t) :
    t = s.moved move ∧ ∃ guest ∈ s.place, move.1 = guest.id ∧ guest.id ∉ hold ∧ s.Shares guest ∧
      s.destination guest = some move.2 := by
  obtain ⟨⟨guest, i⟩, hmem, hmove⟩ := List.exists_of_findSome?_eq_some h
  obtain ⟨dest, hdest, heq⟩ := Option.map_eq_some_iff.mp hmove
  obtain ⟨hi, hfree, hshares⟩ := (mem_crowded hs).mp hmem
  cases heq
  exact ⟨relocate_eq hs hi hdest, guest, List.mem_of_getElem? hi, rfl, hfree, hshares, hdest⟩

theorem next_none (hs : s.Tidy) (h : s.next hold = none) : s.Spread hold := by
  intro guest hguest hmovable hshares n hn hfree
  obtain ⟨i, hi⟩ := List.mem_iff_getElem?.mp hguest
  have hnone := List.findSome?_eq_none_iff.mp h (guest, i)
    ((mem_crowded hs).mpr ⟨hi, hmovable, hshares⟩)
  exact destination_none (Option.map_eq_none_iff.mp hnone) hn
    (fun heq => hfree guest hguest rfl heq.symm) hfree

/-- Guests that are alone stay alone, and so does the one that moves. -/
theorem sharing_moved (hs : s.Tidy) (hguest : guest ∈ s.place)
    (hfree : s.Free guest.group dest) :
    (s.moved (guest.id, dest)).sharing hold ⊆ (s.sharing hold).erase guest.id := by
  intro id hid
  obtain ⟨g, hg, rfl, hmovable, peer, hpeer, hne, hnode, hgroup⟩ := mem_sharing.mp hid
  rw [moved_of hs hguest] at hg hpeer
  obtain ⟨old, hold, rfl⟩ := List.mem_map.mp hg
  obtain ⟨oldPeer, holdPeer, rfl⟩ := List.mem_map.mp hpeer
  by_cases hmoves : old.id = guest.id
  · -- the one that moves is alone where it goes
    obtain rfl := List.inj_on_of_nodup_map hs.guests hold hguest hmoves
    rw [if_pos rfl] at hne hnode hgroup
    split at hne
    · rename_i hsame
      exact absurd hsame hne
    · rename_i hother
      rw [if_neg hother] at hnode hgroup
      exact absurd hnode (hfree oldPeer holdPeer hgroup)
  · rw [if_neg hmoves] at hne hnode hgroup hmovable ⊢
    refine Finset.mem_erase.mpr ⟨hmoves, mem_sharing.mpr ⟨old, hold, rfl, hmovable, ?_⟩⟩
    by_cases hpeerMoves : oldPeer.id = guest.id
    · -- it is not joined by the one that moves
      obtain rfl := List.inj_on_of_nodup_map hs.guests holdPeer hguest hpeerMoves
      rw [if_pos rfl] at hnode hgroup
      exact absurd hnode.symm (hfree old hold hgroup.symm)
    · rw [if_neg hpeerMoves] at hne hnode hgroup
      exact ⟨oldPeer, holdPeer, hne, hnode, hgroup⟩

theorem next_consumes :
    Consumes (fun s => next s hold) Tidy (fun s => s.sharing hold) Prod.fst where
  keeps s move t hs h := by
    obtain ⟨rfl, guest, hguest, hid, -⟩ := next_some hs h
    obtain ⟨id, dest⟩ := move
    cases hid
    exact hs.moved hguest
  takes s move t hs h := by
    obtain ⟨-, guest, hguest, hid, hmovable, hshares, -⟩ := next_some hs h
    exact mem_sharing.mpr ⟨guest, hguest, hid.symm, hmovable, hshares⟩
  drops s move t hs h := by
    obtain ⟨rfl, guest, hguest, hid, -, -, hdest⟩ := next_some hs h
    obtain ⟨id, dest⟩ := move
    cases hid
    exact sharing_moved hs hguest (destination_some hdest).2.1

theorem next_sound (hs : s.Tidy) (h : Moves (fun s => next s hold) s move t) :
    s.Sound hold move := by
  obtain ⟨-, guest, hguest, hid, hmovable, -, hdest⟩ := next_some hs h
  obtain ⟨hne, hfree, n, hn, hnid, hfits⟩ := destination_some hdest
  obtain ⟨honline, hcpu, hmem⟩ := fits_room (hs.sizes guest hguest) hfits
  exact ⟨guest, hguest, hid.symm, hmovable, hne.symm, hfree, n, hn, hnid, honline, hcpu, hmem⟩

/-- Each move of a run is sound where the moves before it lead. -/
theorem moves_sound {moves : List (VmId × NodeId)} (hs : s.Tidy)
    (hrun : Run (Moves (fun s => next s hold)) s moves t) :
    t = moves.foldl Layout.moved s ∧ t.Tidy ∧
      ∀ before move after, moves = before ++ move :: after →
        (before.foldl Layout.moved s).Sound hold move := by
  induction hrun with
  | nil s => exact ⟨rfl, hs, fun before move after h => by simp at h⟩
  | @cons s u t move moves h _ ih =>
    have hu := next_consumes.keeps s move u hs h
    obtain ⟨ht, htidy, hsound⟩ := ih hu
    obtain ⟨rfl, -⟩ := next_some hs h
    refine ⟨ht, htidy, fun before other after hsplit => ?_⟩
    cases before with
    | nil =>
      obtain ⟨rfl, -⟩ := List.cons.inj hsplit
      exact next_sound hs h
    | cons first before =>
      obtain ⟨rfl, hrest⟩ := List.cons.inj hsplit
      exact hsound before other after hrest

theorem sharing_card_le : (s.sharing hold).card ≤ s.place.length := by
  unfold sharing
  refine (List.toFinset_card_le _).trans ?_
  rw [List.length_map]
  exact List.length_filter_le _ _

end Layout

/-- The plan ends, moves no guest twice and none that is held, each where it may go after the
moves before it, and leaves no group closer together than it must be. -/
theorem rebalance_spreads (guests : List PlacedGuest) (nodes : List NodeLoad) (hold : List VmId)
    (htidy : (Layout.mk nodes guests).Tidy) :
    ∃ moves, rebalancePlan guests nodes hold = some moves ∧ (moves.map Prod.fst).Nodup ∧
      (∀ before move after, moves = before ++ move :: after →
        (before.foldl Layout.moved ⟨nodes, guests⟩).Sound hold move) ∧
      (moves.foldl Layout.moved ⟨nodes, guests⟩).Spread hold := by
  have hfuel : ((Layout.mk nodes guests).sharing hold).card < guests.length + 1 :=
    Nat.lt_succ_of_le Layout.sharing_card_le
  obtain ⟨moves, t, hgreedy, hnodup, -⟩ := Layout.next_consumes.greedy htidy hfuel
  obtain ⟨hrun, hdone⟩ := greedy_run hgreedy
  obtain ⟨rfl, hend, hsound⟩ := Layout.moves_sound htidy hrun
  refine ⟨moves, ?_, hnodup, hsound, Layout.next_none hend hdone⟩
  unfold rebalancePlan
  rw [hgreedy]
  rfl

/-- Two guests of a group on the first of two roomy nodes. -/
def sharedGroup : Layout where
  nodes := [{ id := 1, online := true, cpus := 8, memoryMib := 16384, usedVcpus := 2,
                usedMemoryMib := 2048 },
    { id := 2, online := true, cpus := 8, memoryMib := 16384, usedVcpus := 0, usedMemoryMib := 0 }]
  place := [{ id := .numeric 1, node := 1, group := "web", vcpus := 1, memoryMib := 1024 },
    { id := .numeric 2, node := 1, group := "web", vcpus := 1, memoryMib := 1024 }]

theorem splits_a_shared_group :
    ∃ moves, rebalancePlan sharedGroup.place sharedGroup.nodes [] = some moves ∧
      (moves.map Prod.fst).Nodup ∧
      (∀ before move after, moves = before ++ move :: after →
        (before.foldl Layout.moved sharedGroup).Sound [] move) ∧
      (moves.foldl Layout.moved sharedGroup).Spread [] :=
  rebalance_spreads sharedGroup.place sharedGroup.nodes []
    { nodes := by decide, guests := by decide, sizes := by decide, widths := by decide }

example :
    rebalancePlan sharedGroup.place sharedGroup.nodes [] = some [(.numeric 1, 2)] := by decide

end Pertisk.Placement
