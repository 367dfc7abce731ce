import Mathlib.Order.Basic

namespace Pertisk.Lib

variable {φ : Type}

/-- Tasks that run side by side. A task's number is its slot, and no slot is used twice. -/
structure Pool (φ : Type) where
  slots : List (Option φ) := []

namespace Pool

variable (t : Pool φ)

def get (i : ℕ) : Option φ := (t.slots[i]?).join

def spawn (p : φ) : Pool φ := ⟨t.slots ++ [some p]⟩

def set (i : ℕ) (p : φ) : Pool φ := ⟨t.slots.set i (some p)⟩

def drop (i : ℕ) : Pool φ := ⟨t.slots.set i none⟩

/-- The number of the task that is spawned next. -/
def next : ℕ := t.slots.length

def all : List φ := t.slots.filterMap id

variable {t} {i j : ℕ} {p q r : φ}

theorem lt_of_get (h : t.get i = some p) : i < t.next := by
  by_contra hge
  rw [get, List.getElem?_eq_none (Nat.le_of_not_lt hge)] at h
  cases h

theorem mem_all (h : t.get i = some p) : p ∈ t.all := by
  refine List.mem_filterMap.mpr ⟨some p, ?_, rfl⟩
  exact List.mem_of_getElem? (Option.join_eq_some_iff.mp h)

theorem get_of_mem (h : p ∈ t.all) : ∃ i, t.get i = some p := by
  obtain ⟨slot, hslot, hp⟩ := List.mem_filterMap.mp h
  obtain rfl : slot = some p := hp
  obtain ⟨i, hi⟩ := List.getElem?_of_mem hslot
  exact ⟨i, Option.join_eq_some_iff.mpr hi⟩

theorem get_spawn : (t.spawn p).get i = if i = t.next then some p else t.get i := by
  rw [get, spawn, get, next]
  split
  · rename_i hi
    rw [hi, List.getElem?_concat_length]
    rfl
  · rename_i hi
    rcases Nat.lt_or_gt_of_ne hi with hlt | hgt
    · rw [List.getElem?_append_left hlt]
    · rw [List.getElem?_eq_none (by simp; omega), List.getElem?_eq_none (by omega)]

theorem get_set (h : t.get i = some q) : (t.set i p).get j = if j = i then some p else t.get j := by
  have hlt : i < t.slots.length := lt_of_get h
  rw [get, set, get, List.getElem?_set]
  by_cases hj : j = i
  · rw [if_pos hj.symm, if_pos hj, if_pos hlt]
    rfl
  · rw [if_neg (Ne.symm hj), if_neg hj]

theorem get_drop : (t.drop i).get j = if j = i then none else t.get j := by
  rw [get, drop, get, List.getElem?_set]
  by_cases hj : j = i
  · rw [if_pos hj.symm, if_pos hj]
    split <;> rfl
  · rw [if_neg (Ne.symm hj), if_neg hj]

theorem next_spawn : (t.spawn p).next = t.next + 1 := by simp [next, spawn]

theorem next_set : (t.set i p).next = t.next := by simp [next, set]

theorem next_drop : (t.drop i).next = t.next := by simp [next, drop]

/-- A task of the pool after one has gone on, ended or been spawned: that one, or one of before. -/
theorem of_get_set (h : t.get i = some q) (hj : (t.set i p).get j = some r) :
    (j = i ∧ r = p) ∨ (j ≠ i ∧ t.get j = some r) := by
  rw [get_set h] at hj
  split at hj
  · rename_i hji
    cases hj
    exact .inl ⟨hji, rfl⟩
  · rename_i hji
    exact .inr ⟨hji, hj⟩

theorem of_get_spawn (hj : (t.spawn p).get j = some r) :
    (j = t.next ∧ r = p) ∨ (j ≠ t.next ∧ t.get j = some r) := by
  rw [get_spawn] at hj
  split at hj
  · rename_i hji
    cases hj
    exact .inl ⟨hji, rfl⟩
  · rename_i hji
    exact .inr ⟨hji, hj⟩

theorem of_get_drop (hj : (t.drop i).get j = some r) : j ≠ i ∧ t.get j = some r := by
  rw [get_drop] at hj
  split at hj
  · cases hj
  · rename_i hji
    exact ⟨hji, hj⟩

end Pool

/-- Tasks with the state that they share. -/
structure Crew (σ φ : Type) where
  shared : σ
  pool : Pool φ

/-- What a task's step does: how it leaves the shared state, how it goes on unless it ends, and the
task that it spawns. -/
structure Move (σ φ : Type) where
  shared : σ
  next : Option φ := none
  spawned : Option φ := none

namespace Crew

variable {σ : Type} {c : Crew σ φ} {m : Move σ φ} {I : σ → Prop} {P : σ → ℕ → φ → Prop} {i : ℕ}
  {p : φ} {s : σ}

def take (c : Crew σ φ) (i : ℕ) (m : Move σ φ) : Crew σ φ :=
  let pool := match m.next with
    | some p => c.pool.set i p
    | none => c.pool.drop i
  match m.spawned with
  | some q => ⟨m.shared, pool.spawn q⟩
  | none => ⟨m.shared, pool⟩

/-- The shared state meets `I`, and each task what its own state relies on. -/
structure Holds (I : σ → Prop) (P : σ → ℕ → φ → Prop) (c : Crew σ φ) : Prop where
  shared : I c.shared
  tasks : ∀ i p, c.pool.get i = some p → P c.shared i p

@[simp] theorem take_shared : (c.take i m).shared = m.shared := by
  unfold take
  cases m.spawned <;> rfl

/-- A task after a step: the one that took it, the spawned one, or another one of before. -/
theorem of_get_take (hget : c.pool.get i = some p) {j : ℕ} {q : φ}
    (hj : (c.take i m).pool.get j = some q) :
    (j = i ∧ m.next = some q) ∨ m.spawned = some q ∨ (j ≠ i ∧ c.pool.get j = some q) := by
  unfold take at hj
  have hrest : ∀ pool : Pool φ, (match m.next with
      | some p => c.pool.set i p
      | none => c.pool.drop i) = pool → pool.get j = some q →
      (j = i ∧ m.next = some q) ∨ (j ≠ i ∧ c.pool.get j = some q) := by
    intro pool hpool hq
    cases hn : m.next with
    | none =>
      rw [hn] at hpool
      subst hpool
      exact .inr (Pool.of_get_drop hq)
    | some r =>
      rw [hn] at hpool
      subst hpool
      rcases Pool.of_get_set hget hq with ⟨hji, rfl⟩ | hold
      · exact .inl ⟨hji, rfl⟩
      · exact .inr hold
  cases hs : m.spawned with
  | none =>
    rw [hs] at hj
    rcases hrest _ rfl hj with hown | hold
    · exact .inl hown
    · exact .inr (.inr hold)
  | some r =>
    rw [hs] at hj
    rcases Pool.of_get_spawn hj with ⟨-, rfl⟩ | ⟨-, hq⟩
    · exact .inr (.inl rfl)
    · rcases hrest _ rfl hq with hown | hold
      · exact .inl hown
      · exact .inr (.inr hold)

/-- One task's step keeps what all rely on when it does so for itself, for the task that it
spawns, and disturbs no other. -/
theorem Holds.take (h : Holds I P c) (hget : c.pool.get i = some p) (hshared : I m.shared)
    (hnext : ∀ q, m.next = some q → P m.shared i q)
    (hspawned : ∀ j q, m.spawned = some q → P m.shared j q)
    (hrest : ∀ j q, j ≠ i → c.pool.get j = some q → P c.shared j q → P m.shared j q) :
    Holds I P (c.take i m) := by
  refine ⟨by rw [take_shared]; exact hshared, fun j q hj => ?_⟩
  rw [take_shared]
  rcases of_get_take hget hj with ⟨rfl, hq⟩ | hq | ⟨hji, hq⟩
  · exact hnext q hq
  · exact hspawned j q hq
  · exact hrest j q hji hq (h.tasks j q hq)

/-- A change from outside, by which a task may begin. -/
theorem Holds.change (h : Holds I P c) (hshared : I s)
    (hrest : ∀ j q, c.pool.get j = some q → P c.shared j q → P s j q) :
    Holds I P ⟨s, c.pool⟩ :=
  ⟨hshared, fun j q hj => hrest j q hj (h.tasks j q hj)⟩

theorem Holds.spawn (h : Holds I P c) (hnew : P c.shared c.pool.next p) :
    Holds I P ⟨c.shared, c.pool.spawn p⟩ := by
  refine ⟨h.shared, fun j q hj => ?_⟩
  rcases Pool.of_get_spawn hj with ⟨rfl, rfl⟩ | ⟨-, hq⟩
  · exact hnew
  · exact h.tasks j q hq

/-- A task that ends or goes on is still there, or done, and the others stay. -/
theorem get_take_ne (hget : c.pool.get i = some p) {j : ℕ} {q : φ} (hji : j ≠ i)
    (hj : c.pool.get j = some q) : (c.take i m).pool.get j = some q := by
  have hpool : ∀ pool : Pool φ, (match m.next with
      | some p => c.pool.set i p
      | none => c.pool.drop i) = pool → pool.get j = some q := by
    intro pool hpool
    cases hn : m.next with
    | none =>
      rw [hn] at hpool
      subst hpool
      rw [Pool.get_drop, if_neg hji]
      exact hj
    | some r =>
      rw [hn] at hpool
      subst hpool
      rw [Pool.get_set hget, if_neg hji]
      exact hj
  unfold take
  cases hs : m.spawned with
  | none => exact hpool _ rfl
  | some r =>
    have hq := hpool _ rfl
    have hlt := Pool.lt_of_get hq
    show (Pool.spawn _ r).get j = some q
    rw [Pool.get_spawn, if_neg (Nat.ne_of_lt hlt)]
    exact hq

theorem get_take_self (hget : c.pool.get i = some p) : (c.take i m).pool.get i = m.next := by
  have hlt := Pool.lt_of_get hget
  have hpool : ∀ pool : Pool φ, (match m.next with
      | some p => c.pool.set i p
      | none => c.pool.drop i) = pool → pool.get i = m.next ∧ i < pool.next := by
    intro pool hpool
    cases hn : m.next with
    | none =>
      rw [hn] at hpool
      subst hpool
      rw [Pool.get_drop, if_pos rfl, Pool.next_drop]
      exact ⟨rfl, hlt⟩
    | some q =>
      rw [hn] at hpool
      subst hpool
      rw [Pool.get_set hget, if_pos rfl, Pool.next_set]
      exact ⟨rfl, hlt⟩
  obtain ⟨hself, hbound⟩ := hpool _ rfl
  unfold take
  cases hs : m.spawned with
  | none => exact hself
  | some r =>
    show (Pool.spawn _ r).get i = m.next
    rw [Pool.get_spawn, if_neg (Nat.ne_of_lt hbound)]
    exact hself

theorem get_take_next (hget : c.pool.get i = some p) {q : φ} (hnext : m.next = some q) :
    (c.take i m).pool.get i = some q := by
  rw [get_take_self hget, hnext]

theorem get_take_spawned {q : φ} (hs : m.spawned = some q) :
    ∃ j, (c.take i m).pool.get j = some q := by
  unfold take
  rw [hs]
  exact ⟨_, by rw [Pool.get_spawn, if_pos rfl]⟩

end Crew

end Pertisk.Lib
