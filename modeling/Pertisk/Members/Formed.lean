import Pertisk.Lib.Run
import Pertisk.Lib.Saving
import Pertisk.Members.Heard

namespace Pertisk.Members
open Lib

/-- The node itself is a member, and the entry under a key has a record with that id. -/
structure WellFormed (c : Cluster) : Prop where
  self : Has c c.selfId
  keys : ∀ k m, c.members.get k = some m → m.record.id = k

/-- A record that is put under a key has that id: what a peer tells of itself is under its name. -/
def Names : Change → Prop
  | .touch _ id (some record) => record.id = id
  | .heartbeat _ msg => msg.member.id = msg.sender
  | _ => True

variable {c c' : Cluster} {now : Nat} {id : NodeId}

/-- Every entry's record is under its own id. -/
def Keyed (members : Table Member Member.id) : Prop :=
  ∀ k m, members.get k = some m → m.record.id = k

theorem Keyed.insert_iff {members : Table Member Member.id} {m : Member} (h : Keyed members) :
    Keyed (members.insert m) ↔ m.record.id = m.id := by
  constructor
  · intro hall
    exact hall m.id m (Table.get_insert_self members m)
  · intro hm k entry hget
    rw [Table.get_insert] at hget
    split at hget
    · rename_i hk
      cases hget
      exact hm.trans hk
    · exact h k entry hget

theorem keyed_ofList {ms : List Member} (h : ∀ m ∈ ms, m.record.id = m.id) :
    Keyed (Table.ofList ms) := by
  intro k m hget
  have hin := Table.mem_of_mem_ofList (Table.mem_of_get hget)
  exact (h m hin).trans (Table.key_of_get hget)

theorem keyed_touch_iff (record : NodeRecord) (h : Keyed c.members) :
    Keyed (c.touch now id (some record)).members ↔ record.id = id := by
  unfold Cluster.touch
  exact h.insert_iff

theorem keyed_touch (h : Keyed c.members) : Keyed (c.touch now id none).members := by
  unfold Cluster.touch
  dsimp only
  split
  · rename_i m hget
    have hid : m.record.id = id := h id m hget
    exact h.insert_iff.mpr (hid.trans (Table.key_of_get hget).symm)
  · exact h

theorem keyed_adoptMembers (records : List NodeRecord) (h : Keyed c.members) :
    Keyed (c.adoptMembers now records) := by
  have hnext : Keyed (Table.ofList (records.map (c.adoptMember now))) := by
    refine keyed_ofList (fun m hin => ?_)
    obtain ⟨record, _, rfl⟩ := List.mem_map.mp hin
    rfl
  unfold Cluster.adoptMembers
  dsimp only
  split
  · rename_i m _ hself
    exact hnext.insert_iff.mpr ((h _ m hself).trans (Table.key_of_get hself).symm)
  · exact hnext

theorem keyed_run {m : Mutator} (h : Keyed c.members) (hrun : m.run c = some c') :
    Keyed c'.members := by
  cases m with
  | bump => cases hrun; exact h
  | setHaArmed armed => cases hrun; exact h
  | addMember now address record =>
    cases hrun
    exact h.insert_iff.mpr rfl
  | removeMember id =>
    have hremove : c.removeMember id = some c' := hrun
    unfold Cluster.removeMember at hremove
    split at hremove
    · cases hremove
    · split at hremove <;> cases hremove
      intro k m hget
      have herase : (c.members.erase id).get k = some m := hget
      rw [Table.get_erase] at herase
      split at herase
      · cases herase
      · exact h k m herase
  | applyMembership now snap force =>
    unfold Mutator.run at hrun
    dsimp only at hrun
    split at hrun
    · cases hrun
    · rename_i hgo
      cases hrun
      unfold Cluster.applyMembershipInner
      rw [if_neg hgo]
      exact keyed_adoptMembers snap.members h
  | setMemberPeerUrl id url =>
    cases hrun
    unfold Cluster.setMemberPeerUrl
    split
    · rename_i m hget
      have hid : m.record.id = id := h id m hget
      exact h.insert_iff.mpr (hid.trans (Table.key_of_get hget).symm)
    · exact h
  | resetSolo secret =>
    cases hrun
    intro k m hget
    have hkeep : (c.members.keep (fun id => id = c.selfId)).get k = some m := hget
    rw [Table.get_keep] at hkeep
    split at hkeep
    · exact h k m hkeep
    · cases hkeep

theorem keyed_change_iff {a : Change} (h : Keyed c.members) :
    Keyed (change c a).members ↔ Names a := by
  cases a with
  | touch now id record =>
    cases record with
    | some record => exact keyed_touch_iff record h
    | none => exact iff_of_true (keyed_touch h) trivial
  | heartbeat now msg => exact keyed_touch_iff msg.member h
  | call m =>
    refine iff_of_true ?_ trivial
    cases hrun : m.run c with
    | none =>
      rw [change, hrun]
      exact h
    | some c' =>
      rw [change, hrun]
      exact keyed_run h hrun

theorem has_self (a : Change) (h : Has c c.selfId) : Has (change c a) (change c a).selfId := by
  rw [change_selfId]
  refine (has_change c a _).mpr (.inr ⟨h, ?_⟩)
  cases a with
  | touch now id record => exact fun h => h
  | heartbeat now msg => exact fun h => h
  | call m =>
    cases m with
    | removeMember id => exact fun h => h.2 rfl
    | applyMembership now snap force => exact fun h => h.2 rfl
    | resetSolo secret => exact fun h => h rfl
    | bump => exact fun h => h
    | addMember now address record => exact fun h => h
    | setMemberPeerUrl id url => exact fun h => h
    | setHaArmed armed => exact fun h => h

theorem wellFormed_change_iff {a : Change} (h : WellFormed c) :
    WellFormed (change c a) ↔ Names a :=
  ⟨fun h' => (keyed_change_iff h.keys).mp h'.keys,
    fun ha => ⟨has_self a h.self, (keyed_change_iff h.keys).mpr ha⟩⟩

/-- From a well-formed table on, it is well formed in every state of a run exactly when each record
that the run puts under a key has that id. -/
theorem wellFormed_iff (c s : Cluster) (acts : List Change) (hc : WellFormed c)
    (hrun : Run Changes c acts s) :
    (∀ bs u, bs <+: acts → Run Changes c bs u → WellFormed u) ↔ ∀ a ∈ acts, Names a := by
  have hdet : ∀ s a t t', Changes s a t → Changes s a t' → t = t' :=
    fun _ _ _ _ h h' => h.symm.trans h'
  have hstep : ∀ s a t, WellFormed s → Changes s a t → (WellFormed t ↔ Names a) := by
    rintro s a _ hs rfl
    exact wellFormed_change_iff hs
  exact (hrun.always_iff hdet hstep hc).trans ⟨Run.guards, hrun.guard⟩

/-- The table of a node that opens its cluster for the first time. -/
def openNew (offlineAfterMs : Nat) (name secret : String) (now : Nat) (record : NodeRecord) :
    Cluster where
  offlineAfterMs := max offlineAfterMs 100
  selfId := record.id
  name := name
  secret := secret
  generation := 1
  members := Table.ofList [⟨record.id, record, now⟩]
  fenced := false
  haArmed := true
  witnessHolder := none
  witnessUntilMs := 0

theorem openNew_wellFormed (offlineAfterMs : Nat) (name secret : String) (now : Nat)
    (record : NodeRecord) : WellFormed (openNew offlineAfterMs name secret now record) where
  self := Table.isSome_get_ofList.mpr ⟨_, List.mem_singleton_self _, rfl⟩
  keys := keyed_ofList (fun m hin => by rw [List.mem_singleton.mp hin])

def first : Cluster :=
  openNew 10000 "lab" "s" 0 { id := 1, name := "node", peerUrl := "https://10.0.0.1:7443" }

/-- A heartbeat of node 2 that carries the record given. -/
def tells (record : NodeRecord) : Change :=
  .heartbeat 5 { sender := 2, generation := 1, member := record, snapshot := none }

theorem joined_wellFormed :
    (∀ bs u, bs <+: [tells { id := 2, name := "b", peerUrl := "" }] → Run Changes first bs u →
        WellFormed u) ↔
      ∀ a ∈ [tells { id := 2, name := "b", peerUrl := "" }], Names a :=
  wellFormed_iff first _ _ (openNew_wellFormed ..) (.one rfl)

/-- A heartbeat of node 2 with the record of node 3 is kept under 2. -/
theorem other_record_kept :
    ¬ ∀ (c s : Cluster) (acts : List Change), WellFormed c → Run Changes c acts s →
      WellFormed s := by
  intro h
  have hformed := h first _ [tells { id := 3, name := "c", peerUrl := "" }]
    (openNew_wellFormed ..) (.one rfl)
  have hnames : (3 : NodeId) = 2 := (wellFormed_change_iff (openNew_wellFormed ..)).mp hformed
  exact absurd hnames (by decide)

end Pertisk.Members

namespace Pertisk.Members
open Lib

/-- The change lets `x` in again: it is added, or listed in a snapshot that is no older than its
removal. -/
def Readmits (removal : Nat) (x : NodeId) : Change → Prop
  | .call (.addMember _ _ record) => record.id = x
  | .call (.applyMembership _ snap _) => removal ≤ snap.generation ∧ Lists snap x
  | _ => False

/-- No heartbeat of `x` is heard any more, nothing else puts its record into the table, and a
snapshot that lists `x` and is older than its removal is not adopted. -/
def Heeds (removal : Nat) (x : NodeId) (c : Cluster) : Change → Prop
  | .heartbeat _ msg => msg.sender ≠ x
  | .touch _ id (some _) => id ≠ x
  | .call (.applyMembership _ snap force) =>
    Lists snap x → snap.generation < removal → ¬ Adopts c snap force
  | _ => True

variable {c c' : Cluster} {x : NodeId} {removal : Nat}

/-- What gives an entry to `x` lets it in again or does not heed the removal. -/
theorem adds_iff {a : Change} (h : ¬ Readmits removal x a) :
    Adds c x a ↔ ¬ Heeds removal x c a := by
  cases a with
  | touch now id record =>
    cases record with
    | some record => exact not_not.symm
    | none => exact iff_of_false (fun h => h) (fun hn => hn trivial)
  | heartbeat now msg => exact not_not.symm
  | call m =>
    cases m with
    | addMember now address record => exact iff_of_false h (fun hn => hn trivial)
    | applyMembership now snap force =>
      have hold : Lists snap x → snap.generation < removal := by
        intro hlists
        by_contra hnew
        exact h ⟨Nat.le_of_not_lt hnew, hlists⟩
      constructor
      · exact fun hadds hn => hn hadds.2 (hold hadds.2) hadds.1
      · intro hn
        by_contra hnot
        exact hn (fun hlists _ hadopts => hnot ⟨hadopts, hlists⟩)
    | bump => exact iff_of_false (fun h => h) (fun hn => hn trivial)
    | removeMember id => exact iff_of_false (fun h => h) (fun hn => hn trivial)
    | setMemberPeerUrl id url => exact iff_of_false (fun h => h) (fun hn => hn trivial)
    | setHaArmed armed => exact iff_of_false (fun h => h) (fun hn => hn trivial)
    | resetSolo secret => exact iff_of_false (fun h => h) (fun hn => hn trivial)

theorem absent_change_iff {a : Change} (hx : ¬ Has c x) (h : ¬ Readmits removal x a) :
    ¬ Has (change c a) x ↔ Heeds removal x c a := by
  rw [has_change, adds_iff h]
  constructor
  · intro hnot
    by_contra hn
    exact hnot (.inl hn)
  · rintro hheeds (hn | ⟨hhas, _⟩)
    · exact hn hheeds
    · exact hx hhas

theorem removed_absent (h : c.removeMember x = some c') : ¬ Has c' x := by
  have hself : x ≠ c.selfId := by
    rintro rfl
    unfold Cluster.removeMember at h
    rw [if_pos rfl] at h
    cases h
  have hiff := has_removeMember c x x
  rw [h] at hiff
  exact fun hhas => (hiff.mp hhas).2 ⟨rfl, hself⟩

/-- The changes up to the one that lets `x` in again. -/
def Out (removal : Nat) (x : NodeId) : Cluster → Change → Cluster → Prop :=
  Guarded (fun _ a => ¬ Readmits removal x a) Changes

/-- A node that has applied the removal of `x` keeps it out, until something lets `x` in again,
exactly when it hears no heartbeat of `x` and adopts no older snapshot with `x`. -/
theorem removed_stays_iff (c c' s : Cluster) (x : NodeId) (acts : List Change)
    (hremoved : c.removeMember x = some c') (hrun : Run Changes c' acts s)
    (hout : ∀ a ∈ acts, ¬ Readmits c'.generation x a) :
    (∀ bs u, bs <+: acts → Run Changes c' bs u → ¬ Has u x) ↔
      Run (Guarded (Heeds c'.generation x) Changes) c' acts s := by
  have hdet : ∀ s a t t', Out c'.generation x s a t → Out c'.generation x s a t' → t = t' :=
    fun _ _ _ _ h h' => h.2.symm.trans h'.2
  have hstep : ∀ s a t, ¬ Has s x → Out c'.generation x s a t →
      (¬ Has t x ↔ Heeds c'.generation x s a) := by
    rintro s a _ hs ⟨hnot, rfl⟩
    exact absent_change_iff hs hnot
  have hiff := (hrun.guard hout).always_iff (P := fun c => ¬ Has c x) hdet hstep
    (removed_absent hremoved)
  constructor
  · intro hall
    have hheeds := hiff.mp (fun bs u hbs q => hall bs u hbs q.unguard)
    exact hheeds.mono (fun _ _ _ h => ⟨h.1, h.2.2⟩)
  · intro hheeds bs u hbs q
    have hboth : Run (Guarded (Heeds c'.generation x) (Out c'.generation x)) c' acts s :=
      (hheeds.guard hout).mono (fun _ _ _ h => ⟨h.2.1, h.1, h.2.2⟩)
    exact hiff.mpr hboth bs u hbs (q.guard (fun a ha => hout a (hbs.subset ha)))

/-- The other nodes of a cluster of three, after the third has left. -/
def afterLeave : Cluster := ((Node.fresh 1).cluster.removeMember 3).getD (Node.fresh 1).cluster

/-- A peer that has applied the removal too sends its heartbeat. -/
def fromPeer : Change :=
  .heartbeat 5 { (Node.fresh 2).heartbeatOut with snapshot := none }

theorem left_stays_out :
    (∀ bs u, bs <+: [fromPeer] → Run Changes afterLeave bs u → ¬ Has u 3) ↔
      Run (Guarded (Heeds afterLeave.generation 3) Changes) afterLeave [fromPeer]
        (change afterLeave fromPeer) :=
  removed_stays_iff (Node.fresh 1).cluster afterLeave _ 3 [fromPeer] rfl (.one rfl)
    (fun a ha => by
      rw [List.mem_singleton.mp ha]
      exact fun h => h)

/-- The heartbeat that the node sent before it left arrives after it was removed. -/
theorem late_heartbeat_rejoins :
    ¬ ∀ (c c' s : Cluster) (x : NodeId) (acts : List Change), c.removeMember x = some c' →
      Run Changes c' acts s → (∀ a ∈ acts, ¬ Readmits c'.generation x a) → ¬ Has s x := by
  intro h
  refine h (Node.fresh 1).cluster afterLeave _ 3 [.heartbeat 5 (Node.fresh 3).heartbeatOut] rfl
    (.one rfl) (fun a ha => ?_) ?_
  · rw [List.mem_singleton.mp ha]
    exact fun h => h
  · exact (has_change ..).mpr (.inl rfl)

end Pertisk.Members

namespace Pertisk.Members
open Lib

/-- The membership state with its file, and the calls of `persist` that are under way. -/
abbrev Kept := Saving Cluster Persisted

/-- A mutator changes the state under the lock. Its `persist` takes a copy under the lock, and
writes and renames outside it. -/
inductive Act
  | call (m : Mutator)
  | copy (i : ℕ)
  | write (i : ℕ)
  | fail (i : ℕ)

def step (s : Kept) : Act → Option Kept
  | .call m =>
    match m.run s.mem with
    | some c => some (s.change (fun _ => c))
    | none => some s
  | .copy i => s.copy Cluster.persisted i
  | .write i => s.write i
  | .fail i => s.fail i

/-- A daemon that has opened its state, and has written it once. -/
def opened (c : Cluster) : Kept := .start c c.persisted

/-- No write fails, and none puts a copy into the file that is older than what it holds. -/
def Timely (s : Kept) : Act → Prop
  | .write i => s.InOrder i
  | .fail _ => False
  | _ => True

variable {c : Cluster} {s t : Kept}

theorem sound_step {a : Act} (hs : s.Sound Cluster.persisted none) (hok : Timely s a)
    (h : step s a = some t) : t.Sound Cluster.persisted none := by
  cases a with
  | call m =>
    unfold step at h
    dsimp only at h
    split at h
    · cases h
      exact hs.change _
    · cases h
      exact hs
  | copy i => exact hs.copy h
  | write i => exact hs.write hok h
  | fail i => exact hok.elim

/-- Once every call has returned, the file holds the state in memory, in a run in which no write
fails and none replaces a newer copy. -/
theorem file_holds_state (c : Cluster) (acts : List Act) (s : Kept)
    (hrun : Run (Guarded Timely (Steps step)) (opened c) acts s) :
    s.Idle → s.file = s.mem.persisted := by
  have hsound := hrun.invariant (I := Saving.Sound Cluster.persisted none)
    (fun _ _ _ hs h => sound_step hs h.1 h.2) (Saving.sound_start (.inr rfl))
  intro hidle
  rcases hsound.file_of_idle hidle with ⟨_, hnone⟩ | hfile
  · cases hnone
  · exact hfile

theorem idle_of_slots (h : s.calls.slots = [none, none]) : s.Idle := by
  intro i
  rw [Pool.get, h]
  rcases i with - | - | n
  · rfl
  · rfl
  · rfl

/-- Two nodes are taken out of a cluster at once, and the files are written in the same order. -/
def inTurn : List Act :=
  [.call .bump, .copy 0, .call (.removeMember 2), .write 0, .copy 1, .write 1]

instance (s : Kept) (i : ℕ) : Decidable (s.InOrder i) :=
  match h : s.calls.get i with
  | some (.copied content version) =>
    decidable_of_iff (s.saved ≤ version) ⟨fun hle _ _ heq => by cases h.symm.trans heq; exact hle,
      fun hall => hall content version h⟩
  | some .changed => .isTrue (fun _ _ heq => by cases h.symm.trans heq)
  | none => .isTrue (fun _ _ heq => by cases h.symm.trans heq)

instance (s : Kept) : (a : Act) → Decidable (Timely s a)
  | .write i => inferInstanceAs (Decidable (s.InOrder i))
  | .fail _ => .isFalse id
  | .call _ => .isTrue trivial
  | .copy _ => .isTrue trivial

theorem inTurn_file :
    (exec step (opened (Node.fresh 1).cluster) inTurn).file =
      (exec step (opened (Node.fresh 1).cluster) inTurn).mem.persisted :=
  file_holds_state _ inTurn _ (Run.of_exec_guarded (by decide +kernel))
    (idle_of_slots (by decide +kernel))

/-- Both generations are copied before either is written, and the older one is written last. -/
def overtaken : List Act :=
  [.call .bump, .copy 0, .call .bump, .copy 1, .write 1, .write 0]

theorem older_generation_last :
    ¬ ∀ (c : Cluster) (acts : List Act) (s : Kept), Run (Steps step) (opened c) acts s →
      (∀ i, .fail i ∉ acts) → s.Idle → s.file = s.mem.persisted := by
  intro h
  have hsame := h (Node.fresh 1).cluster overtaken _ (Run.of_exec (by decide +kernel))
    (by intro i hin; simp [overtaken] at hin)
    (idle_of_slots (by decide +kernel))
  have hgen : (exec step (opened (Node.fresh 1).cluster) overtaken).file.generation ≠
      (exec step (opened (Node.fresh 1).cluster) overtaken).mem.persisted.generation := by
    decide +kernel
  exact hgen (congrArg Persisted.generation hsame)

end Pertisk.Members
