import Mathlib.Data.Set.Insert
import Mathlib.Logic.Function.Basic
import Mathlib.Order.Basic
import Pertisk.Lib.Run

namespace Pertisk.Lib.Generations

/-- A value, and the generation number it is announced under. -/
structure Image (V : Type) where
  gen : Nat
  val : V

/-- Every node's image, how many operations are open on it, and the images in flight. -/
structure State (N V : Type) where
  node : N → Image V
  pending : N → Nat
  flight : Set (Image V)

inductive Act (N V : Type)
  | begin (p : N)
  | write (p : N) (v : V)
  | finish (p : N)
  | send (p : N)
  | adopt (p : N) (x : Image V)
  | lose (left : Set (Image V))

variable {N V : Type}

section
variable [DecidableEq N]

def State.set (s : State N V) (p : N) (x : Image V) : State N V :=
  { s with node := Function.update s.node p x }

def State.setPending (s : State N V) (p : N) (k : Nat) : State N V :=
  { s with pending := Function.update s.pending p k }

/-- Operations are serial: one begins only while none is open, at a node of the highest
generation, and closes by raising that node's generation. A node adopts higher images only. -/
inductive Step [LE V] (s : State N V) : Act N V → State N V → Prop
  | begin {p : N} (idle : ∀ q, s.pending q = 0) (top : ∀ q, (s.node q).gen ≤ (s.node p).gen) :
      Step s (.begin p) (s.setPending p 1)
  | write {p : N} {v : V} (busy : s.pending p ≠ 0) (le : (s.node p).val ≤ v) :
      Step s (.write p v) (s.set p ⟨(s.node p).gen, v⟩)
  | finish {p : N} (busy : s.pending p ≠ 0) :
      Step s (.finish p)
        ((s.set p ⟨(s.node p).gen + 1, (s.node p).val⟩).setPending p (s.pending p - 1))
  | send {p : N} : Step s (.send p) { s with flight := insert (s.node p) s.flight }
  | adopt {p : N} {x : Image V} (sent : x ∈ s.flight) (lt : (s.node p).gen < x.gen) :
      Step s (.adopt p x) (s.set p x)
  | lose {left : Set (Image V)} (sub : left ⊆ s.flight) :
      Step s (.lose left) { s with flight := left }

end

namespace State

/-- Some node or some message has this image. -/
def Shown (s : State N V) (x : Image V) : Prop := x ∈ s.flight ∨ ∃ p, x = s.node p

/-- Shown, and not by a node in the middle of an operation. -/
def Settled (s : State N V) (x : Image V) : Prop :=
  x ∈ s.flight ∨ ∃ p, s.pending p = 0 ∧ x = s.node p

/-- The image that every other one is behind: the busy node's, else any of the highest
generation. -/
def Latest (s : State N V) (x : Image V) : Prop :=
  (∃ p, s.pending p ≠ 0 ∧ x = s.node p) ∨
    ((∀ p, s.pending p = 0) ∧ s.Shown x ∧ ∀ y, s.Shown y → y.gen ≤ x.gen)

/-- What serial operations keep: one of them at most is open, at a node no image is ahead of. -/
structure Serial (s : State N V) : Prop where
  single : ∀ p, s.pending p ≠ 0 → s.pending p = 1 ∧ ∀ q, q ≠ p → s.pending q = 0
  sent : ∀ x ∈ s.flight, ∃ p, x.gen ≤ (s.node p).gen
  ahead : ∀ p, s.pending p ≠ 0 → ∀ x, s.Shown x → x.gen ≤ (s.node p).gen

/-- Higher generations have larger values, and the latest image has the largest. -/
structure Ordered [LE V] (s : State N V) : Prop where
  older : ∀ x y, s.Shown x → s.Shown y → x.gen < y.gen → x.val ≤ y.val
  latest : ∀ x, s.Latest x → ∀ y, s.Shown y → y.val ≤ x.val

/-- One generation, one value. -/
def Agreed (s : State N V) : Prop :=
  ∀ x y, s.Settled x → s.Settled y → x.gen = y.gen → x.val = y.val

variable {s : State N V} {p q : N} {x y : Image V}

theorem Settled.shown (h : s.Settled x) : s.Shown x := by
  rcases h with h | ⟨p, _, rfl⟩
  · exact .inl h
  · exact .inr ⟨p, rfl⟩

theorem shown_node (s : State N V) (p : N) : s.Shown (s.node p) := .inr ⟨p, rfl⟩

/-- A node that no other node is ahead of is not behind a message either. -/
theorem Serial.top_shown (hs : s.Serial) (top : ∀ q, (s.node q).gen ≤ (s.node p).gen)
    (hx : s.Shown x) : x.gen ≤ (s.node p).gen := by
  rcases hx with hx | ⟨q, rfl⟩
  · obtain ⟨q, hq⟩ := hs.sent x hx
    exact hq.trans (top q)
  · exact top q

/-- A node with an open operation never adopts. -/
theorem Serial.adopt_idle (hs : s.Serial) (hx : x ∈ s.flight) (lt : (s.node p).gen < x.gen) :
    s.pending p = 0 := by
  by_cases h : s.pending p = 0
  · exact h
  · have := hs.ahead p h x (.inl hx)
    omega

section
variable [DecidableEq N]

theorem set_node_self : (s.set p x).node p = x := by simp [set]

theorem set_node_ne (h : q ≠ p) : (s.set p x).node q = s.node q := by simp [set, h]

theorem shown_set (h : (s.set p x).Shown y) : y = x ∨ s.Shown y := by
  rcases h with h | ⟨q, rfl⟩
  · exact .inr (.inl h)
  · by_cases hq : q = p
    · subst hq
      exact .inl set_node_self
    · rw [set_node_ne hq]
      exact .inr (s.shown_node q)

theorem shown_setPending {k : Nat} (h : (s.setPending p k).Shown x) : s.Shown x := h

theorem setPending_self {k : Nat} : (s.setPending p k).pending p = k := by simp [setPending]

theorem setPending_ne {k : Nat} (h : q ≠ p) : (s.setPending p k).pending q = s.pending q := by
  simp [setPending, h]

end

/-- A step that shows no new image keeps the order, if what is latest after it was before. -/
theorem Ordered.of_shown [LE V] {s t : State N V} (ho : s.Ordered) (hshown : ∀ x, t.Shown x → s.Shown x)
    (hlatest : ∀ x, t.Latest x → s.Latest x) : t.Ordered :=
  ⟨fun x y hx hy => ho.older x y (hshown x hx) (hshown y hy),
    fun x hx y hy => ho.latest x (hlatest x hx) y (hshown y hy)⟩

end State

open State

variable [DecidableEq N] {s t : State N V} {a : Act N V}

theorem Step.gen_le [LE V] (h : Step s a t) (p : N) : (s.node p).gen ≤ (t.node p).gen := by
  cases h with
  | begin | send | lose => exact le_refl _
  | @write q v =>
    by_cases hp : p = q
    · subst hp
      rw [set_node_self]
    · rw [set_node_ne hp]
  | @finish q =>
    by_cases hp : p = q
    · subst hp
      simp [State.set, setPending]
    · simp [State.set, setPending, hp]
  | @adopt q x _ lt =>
    by_cases hp : p = q
    · subst hp
      rw [set_node_self]
      exact Nat.le_of_lt lt
    · rw [set_node_ne hp]

theorem Step.serial [LE V] (hs : s.Serial) (h : Step s a t) : t.Serial := by
  have sent : ∀ x ∈ s.flight, ∃ p, x.gen ≤ (t.node p).gen := by
    intro x hx
    obtain ⟨p, hp⟩ := hs.sent x hx
    exact ⟨p, hp.trans (h.gen_le p)⟩
  cases h with
  | @begin p idle top =>
    refine ⟨?_, sent, ?_⟩
    · intro q hq
      have hqp : q = p := by
        by_contra hne
        exact hq (by rw [setPending_ne hne, idle])
      subst hqp
      exact ⟨setPending_self, fun r hr => by rw [setPending_ne hr, idle]⟩
    · intro q hq x hx
      have hqp : q = p := by
        by_contra hne
        exact hq (by rw [setPending_ne hne, idle])
      subst hqp
      exact hs.top_shown top hx
  | @write p v busy le =>
    refine ⟨hs.single, sent, ?_⟩
    intro q hq x hx
    have hqp : q = p := by
      by_contra hne
      exact hq ((hs.single p busy).2 q hne)
    subst hqp
    rw [set_node_self]
    rcases shown_set hx with rfl | hx
    · exact le_refl _
    · exact hs.ahead q busy x hx
  | @finish p busy =>
    have hone := (hs.single p busy).1
    have idle : ∀ q, ((s.set p ⟨(s.node p).gen + 1, (s.node p).val⟩).setPending p
        (s.pending p - 1)).pending q = 0 := by
      intro q
      by_cases hq : q = p
      · subst hq
        rw [setPending_self]
        omega
      · rw [setPending_ne hq]
        exact (hs.single p busy).2 q hq
    exact ⟨fun q hq => absurd (idle q) hq, sent, fun q hq => absurd (idle q) hq⟩
  | @send p =>
    refine ⟨hs.single, ?_, ?_⟩
    · intro x hx
      rcases Set.mem_insert_iff.mp hx with rfl | hx
      · exact ⟨p, le_refl _⟩
      · exact sent x hx
    · intro q hq x hx
      rcases hx with hx | ⟨r, rfl⟩
      · rcases Set.mem_insert_iff.mp hx with rfl | hx
        · exact hs.ahead q hq _ (s.shown_node p)
        · exact hs.ahead q hq x (.inl hx)
      · exact hs.ahead q hq _ (s.shown_node r)
  | @adopt p x hx lt =>
    refine ⟨hs.single, sent, ?_⟩
    intro q hq y hy
    have hidle := hs.adopt_idle hx lt
    have hqp : q ≠ p := fun h => hq (h ▸ hidle)
    rw [set_node_ne hqp]
    rcases shown_set hy with rfl | hy
    · exact hs.ahead q hq y (.inl hx)
    · exact hs.ahead q hq y hy
  | lose sub =>
    refine ⟨hs.single, fun x hx => sent x (sub hx), ?_⟩
    intro q hq x hx
    rcases hx with hx | ⟨r, rfl⟩
    · exact hs.ahead q hq x (.inl (sub hx))
    · exact hs.ahead q hq _ (s.shown_node r)

theorem Step.ordered [Preorder V] (hs : s.Serial) (ho : s.Ordered) (h : Step s a t) :
    t.Ordered := by
  cases h with
  | @begin p idle top =>
    refine Ordered.of_shown ho (fun _ hx => hx) ?_
    intro x hx
    rcases hx with ⟨q, hq, rfl⟩ | ⟨hidle, _⟩
    · have hqp : q = p := by
        by_contra hne
        exact hq (by rw [setPending_ne hne, idle])
      subst hqp
      exact .inr ⟨idle, s.shown_node q, fun y hy => hs.top_shown top hy⟩
    · have := hidle p
      rw [setPending_self] at this
      omega
  | @write p v busy le =>
    have below : ∀ y, s.Shown y → y.val ≤ v :=
      fun y hy => (ho.latest _ (.inl ⟨p, busy, rfl⟩) y hy).trans le
    refine ⟨?_, ?_⟩
    · intro x y hx hy hlt
      rcases shown_set hx with rfl | hx
      · rcases shown_set hy with rfl | hy
        · exact le_refl _
        · have := hs.ahead p busy y hy
          have hgen : (s.node p).gen < y.gen := hlt
          omega
      · rcases shown_set hy with rfl | hy
        · exact below x hx
        · exact ho.older x y hx hy hlt
    · intro x hx y hy
      rcases hx with ⟨q, hq, rfl⟩ | ⟨hidle, _⟩
      · have hqp : q = p := by
          by_contra hne
          exact hq ((hs.single p busy).2 q hne)
        subst hqp
        rw [set_node_self]
        rcases shown_set hy with rfl | hy
        · exact le_refl _
        · exact below y hy
      · exact absurd (hidle p) busy
  | @finish p busy =>
    have below : ∀ y, s.Shown y → y.gen ≤ (s.node p).gen ∧ y.val ≤ (s.node p).val :=
      fun y hy => ⟨hs.ahead p busy y hy, ho.latest _ (.inl ⟨p, busy, rfl⟩) y hy⟩
    refine ⟨?_, ?_⟩
    · intro x y hx hy hlt
      rcases shown_set (shown_setPending hy) with rfl | hy
      · rcases shown_set (shown_setPending hx) with rfl | hx
        · exact le_refl _
        · exact (below x hx).2
      · rcases shown_set (shown_setPending hx) with rfl | hx
        · have hgen : (s.node p).gen + 1 < y.gen := hlt
          have := (below y hy).1
          omega
        · exact ho.older x y hx hy hlt
    · intro x hx y hy
      have hxp : x.val = (s.node p).val := by
        rcases hx with ⟨q, hq, rfl⟩ | ⟨_, hx, top⟩
        · have hqp : q = p := by
            by_contra hne
            exact hq (by rw [setPending_ne hne]; exact (hs.single p busy).2 q hne)
          subst hqp
          simp [State.set, setPending]
        · have htop := top _ (shown_node _ p)
          rcases shown_set (shown_setPending hx) with rfl | hx
          · rfl
          · have := (below x hx).1
            simp [State.set, setPending] at htop
            omega
      rw [hxp]
      rcases shown_set (shown_setPending hy) with rfl | hy
      · exact le_refl _
      · exact (below y hy).2
  | @send p =>
    have hshown : ∀ x, State.Shown { s with flight := insert (s.node p) s.flight } x ↔
        s.Shown x := by
      intro x
      constructor
      · rintro (hx | ⟨q, rfl⟩)
        · rcases Set.mem_insert_iff.mp hx with rfl | hx
          · exact s.shown_node p
          · exact .inl hx
        · exact s.shown_node q
      · rintro (hx | ⟨q, rfl⟩)
        · exact .inl (Set.mem_insert_of_mem _ hx)
        · exact .inr ⟨q, rfl⟩
    refine Ordered.of_shown ho (fun x => (hshown x).mp) ?_
    rintro x (hx | ⟨idle, hx, top⟩)
    · exact .inl hx
    · exact .inr ⟨idle, (hshown x).mp hx, fun y hy => top y ((hshown y).mpr hy)⟩
  | @adopt p x hx lt =>
    have hidle := hs.adopt_idle hx lt
    have hshown : ∀ y, (s.set p x).Shown y → s.Shown y := by
      intro y hy
      rcases shown_set hy with rfl | hy
      · exact .inl hx
      · exact hy
    refine Ordered.of_shown ho hshown ?_
    rintro z (⟨q, hq, rfl⟩ | ⟨idle, hz, top⟩)
    · have hqp : q ≠ p := fun h => hq (h ▸ hidle)
      exact .inl ⟨q, hq, set_node_ne hqp⟩
    · refine .inr ⟨idle, hshown z hz, ?_⟩
      intro y hy
      rcases hy with hy | ⟨q, rfl⟩
      · exact top y (.inl hy)
      · by_cases hqp : q = p
        · subst hqp
          exact (Nat.le_of_lt lt).trans (top x (.inl hx))
        · have := top _ (shown_node _ q)
          rwa [set_node_ne hqp] at this
  | @lose left sub =>
    have hshown : ∀ x, State.Shown { s with flight := left } x → s.Shown x := by
      rintro x (hx | ⟨q, rfl⟩)
      · exact .inl (sub hx)
      · exact s.shown_node q
    refine Ordered.of_shown ho hshown ?_
    rintro x (hx | ⟨idle, hx, top⟩)
    · exact .inl hx
    · refine .inr ⟨idle, hshown x hx, ?_⟩
      rintro y (hy | ⟨q, rfl⟩)
      · obtain ⟨q, hq⟩ := hs.sent y hy
        exact hq.trans (top _ (.inr ⟨q, rfl⟩))
      · exact top _ (.inr ⟨q, rfl⟩)

/-- No step takes a node back to a smaller value. -/
theorem Step.val_le [Preorder V] (ho : s.Ordered) (h : Step s a t) (p : N) :
    (s.node p).val ≤ (t.node p).val := by
  cases h with
  | begin | send | lose => exact le_refl _
  | @write q v _ le =>
    by_cases hp : p = q
    · subst hp
      rwa [set_node_self]
    · rw [set_node_ne hp]
  | @finish q =>
    by_cases hp : p = q
    · subst hp
      simp [State.set, setPending]
    · simp [State.set, setPending, hp]
  | @adopt q x hx lt =>
    by_cases hp : p = q
    · subst hp
      rw [set_node_self]
      exact ho.older _ _ (s.shown_node p) (.inl hx) lt
    · rw [set_node_ne hp]

/-- Nothing is sent from the middle of an operation. -/
def Quiet (s : State N V) : Act N V → Prop
  | .send p => s.pending p = 0
  | _ => True

theorem Step.agreed [LE V] (hs : s.Serial) (hg : s.Agreed) (hq : Quiet s a) (h : Step s a t) :
    t.Agreed := by
  have keep : ∀ {t : State N V}, (∀ x, t.Settled x → s.Settled x) → t.Agreed :=
    fun h x y hx hy => hg x y (h x hx) (h y hy)
  cases h with
  | @begin p idle top =>
    apply keep
    rintro x (hx | ⟨q, _, rfl⟩)
    · exact .inl hx
    · exact .inr ⟨q, idle q, rfl⟩
  | @write p v busy le =>
    apply keep
    rintro x (hx | ⟨q, hq, rfl⟩)
    · exact .inl hx
    · have hqp : q ≠ p := fun h => busy (h ▸ hq)
      exact .inr ⟨q, hq, set_node_ne hqp⟩
  | @finish p busy =>
    have cases : ∀ x, ((s.set p ⟨(s.node p).gen + 1, (s.node p).val⟩).setPending p
        (s.pending p - 1)).Settled x →
        x = ⟨(s.node p).gen + 1, (s.node p).val⟩ ∨ s.Settled x := by
      rintro x (hx | ⟨q, hq, rfl⟩)
      · exact .inr (.inl hx)
      · by_cases hqp : q = p
        · subst hqp
          exact .inl set_node_self
        · rw [setPending_ne hqp] at hq
          exact .inr (.inr ⟨q, hq, set_node_ne hqp⟩)
    intro x y hx hy hgen
    rcases cases x hx with rfl | hx
    · rcases cases y hy with rfl | hy
      · rfl
      · have := hs.ahead p busy y hy.shown
        simp only at hgen
        omega
    · rcases cases y hy with rfl | hy
      · have := hs.ahead p busy x hx.shown
        simp only at hgen
        omega
      · exact hg x y hx hy hgen
  | @send p =>
    apply keep
    rintro x (hx | ⟨q, hq', rfl⟩)
    · rcases Set.mem_insert_iff.mp hx with rfl | hx
      · exact .inr ⟨p, hq, rfl⟩
      · exact .inl hx
    · exact .inr ⟨q, hq', rfl⟩
  | @adopt p x hx lt =>
    apply keep
    rintro y (hy | ⟨q, hq', rfl⟩)
    · exact .inl hy
    · by_cases hqp : q = p
      · subst hqp
        exact .inl (by rwa [set_node_self])
      · exact .inr ⟨q, hq', set_node_ne hqp⟩
  | lose sub =>
    apply keep
    rintro x (hx | ⟨q, hq', rfl⟩)
    · exact .inl (sub hx)
    · exact .inr ⟨q, hq', rfl⟩

variable {as : List (Act N V)}

theorem run_ordered [Preorder V] (r : Run Step s as t) (hs : s.Serial) (ho : s.Ordered) :
    t.Serial ∧ t.Ordered :=
  r.invariant (I := fun s => s.Serial ∧ s.Ordered)
    (fun _ _ _ hi h => ⟨h.serial hi.1, h.ordered hi.1 hi.2⟩) ⟨hs, ho⟩

theorem run_val_le [Preorder V] (r : Run Step s as t) (hs : s.Serial) (ho : s.Ordered) (p : N) :
    (s.node p).val ≤ (t.node p).val :=
  r.monotone (I := fun s => s.Serial ∧ s.Ordered) (fun s => (s.node p).val)
    (fun _ _ _ hi h => ⟨⟨h.serial hi.1, h.ordered hi.1 hi.2⟩, h.val_le hi.2 p⟩) ⟨hs, ho⟩

theorem run_agreed [LE V] (r : Run (Guarded Quiet Step) s as t) (hs : s.Serial) (hg : s.Agreed) :
    t.Agreed :=
  (r.invariant (I := fun s => s.Serial ∧ s.Agreed)
    (fun _ _ _ hi h => ⟨h.2.serial hi.1, h.2.agreed hi.1 hi.2 h.1⟩) ⟨hs, hg⟩).2

end Pertisk.Lib.Generations
