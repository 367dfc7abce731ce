import Mathlib.Algebra.GroupWithZero.Nat
import Mathlib.Algebra.Order.BigOperators.Group.List
import Mathlib.Algebra.Order.Group.Nat
import Mathlib.Order.Basic
import Mathlib.Order.Defs.LinearOrder

namespace Pertisk.Lib

variable {κ ν : Type} [LinearOrder κ]

/-- Ordered insertion; a row with the same key is replaced in its place. -/
def insertRow (key : ν → κ) (x : ν) : List ν → List ν
  | [] => [x]
  | y :: ys =>
    if key x < key y then x :: y :: ys
    else if key x = key y then x :: ys
    else y :: insertRow key x ys

theorem mem_insertRow {key : ν → κ} {x z : ν} {rows : List ν} (h : z ∈ insertRow key x rows) :
    z = x ∨ z ∈ rows := by
  induction rows with
  | nil => simpa [insertRow] using h
  | cons y ys ih =>
    simp only [insertRow] at h
    split at h
    · simpa using h
    · split at h
      · rcases List.mem_cons.mp h with rfl | h
        · exact .inl rfl
        · exact .inr (List.mem_cons_of_mem _ h)
      · rcases List.mem_cons.mp h with rfl | h
        · exact .inr List.mem_cons_self
        · rcases ih h with rfl | h
          · exact .inl rfl
          · exact .inr (List.mem_cons_of_mem _ h)

theorem insertRow_sorted {key : ν → κ} {rows : List ν} (x : ν)
    (h : rows.Pairwise (fun a b => key a < key b)) :
    (insertRow key x rows).Pairwise (fun a b => key a < key b) := by
  induction rows with
  | nil => simp [insertRow]
  | cons y ys ih =>
    obtain ⟨hy, hs⟩ := List.pairwise_cons.mp h
    simp only [insertRow]
    split
    · rename_i hlt
      refine List.pairwise_cons.mpr ⟨?_, h⟩
      intro z hz
      rcases List.mem_cons.mp hz with rfl | hz
      · exact hlt
      · exact lt_trans hlt (hy z hz)
    · split
      · rename_i heq
        exact List.pairwise_cons.mpr ⟨fun z hz => heq ▸ hy z hz, hs⟩
      · rename_i hlt hne
        refine List.pairwise_cons.mpr ⟨?_, ih hs⟩
        intro z hz
        rcases mem_insertRow hz with rfl | hz
        · exact lt_of_le_of_ne (not_lt.mp hlt) (Ne.symm hne)
        · exact hy z hz

/-- A map whose rows carry their own key, kept in key order. -/
structure Table (ν : Type) (key : ν → κ) where
  rows : List ν
  sorted : rows.Pairwise (fun a b => key a < key b)

namespace Table

variable {key : ν → κ}

def empty : Table ν key := ⟨[], .nil⟩

def get (t : Table ν key) (k : κ) : Option ν := t.rows.find? (fun x => key x = k)

def insert (t : Table ν key) (x : ν) : Table ν key := ⟨insertRow key x t.rows, insertRow_sorted x t.sorted⟩

def erase (t : Table ν key) (k : κ) : Table ν key :=
  ⟨t.rows.filter (fun x => key x ≠ k), t.sorted.filter _⟩

def keep (t : Table ν key) (p : κ → Prop) [DecidablePred p] : Table ν key :=
  ⟨t.rows.filter (fun x => p (key x)), t.sorted.filter _⟩

/-- Clear and insert each row in turn. -/
def ofList (rows : List ν) : Table ν key := rows.foldl insert empty

/-- Change rows in place; the keys stay. -/
def mapRows (t : Table ν key) (f : ν → ν) (hf : ∀ x, key (f x) = key x) : Table ν key :=
  ⟨t.rows.map f, by
    rw [List.pairwise_map]
    exact t.sorted.imp (by intro a b h; simpa [hf] using h)⟩

theorem key_of_get {t : Table ν key} {k : κ} {x : ν} (h : t.get k = some x) : key x = k := by
  simpa using List.find?_some h

theorem mem_of_get {t : Table ν key} {k : κ} {x : ν} (h : t.get k = some x) : x ∈ t.rows :=
  List.mem_of_find?_eq_some h

theorem find_sorted {rows : List ν} {x : ν} (hs : rows.Pairwise (fun a b => key a < key b))
    (hx : x ∈ rows) : rows.find? (fun y => key y = key x) = some x := by
  induction rows with
  | nil => simp at hx
  | cons y ys ih =>
    obtain ⟨hy, hs⟩ := List.pairwise_cons.mp hs
    rcases List.mem_cons.mp hx with rfl | hx
    · simp
    · have hne : key y ≠ key x := ne_of_lt (hy x hx)
      simp [hne, ih hs hx]

theorem get_of_mem {t : Table ν key} {x : ν} (h : x ∈ t.rows) : t.get (key x) = some x :=
  find_sorted t.sorted h

theorem mem_iff_get {t : Table ν key} {x : ν} : x ∈ t.rows ↔ t.get (key x) = some x :=
  ⟨get_of_mem, mem_of_get⟩

@[simp] theorem get_empty (k : κ) : (empty : Table ν key).get k = none := rfl

theorem find_insertRow (x : ν) (rows : List ν) (k : κ) :
    (insertRow key x rows).find? (fun y => key y = k) =
      if key x = k then some x else rows.find? (fun y => key y = k) := by
  induction rows with
  | nil => by_cases h : key x = k <;> simp [insertRow, h]
  | cons y ys ih =>
    simp only [insertRow]
    split
    · by_cases h : key x = k <;> simp [h]
    · split
      · rename_i heq
        by_cases h : key x = k
        · simp [h]
        · simp [h, ← heq]
      · rename_i hne
        by_cases hy : key y = k
        · have hx : key x ≠ k := fun h => hne (h.trans hy.symm)
          simp [hy, hx]
        · simp only [List.find?_cons, hy, decide_false, ih]

theorem get_insert (t : Table ν key) (x : ν) (k : κ) :
    (t.insert x).get k = if key x = k then some x else t.get k :=
  find_insertRow x t.rows k

@[simp] theorem get_insert_self (t : Table ν key) (x : ν) : (t.insert x).get (key x) = some x := by
  simp [get_insert]

theorem get_insert_ne (t : Table ν key) {x : ν} {k : κ} (h : key x ≠ k) :
    (t.insert x).get k = t.get k := by
  simp [get_insert, h]

theorem get_erase (t : Table ν key) (k j : κ) :
    (t.erase k).get j = if j = k then none else t.get j := by
  simp only [get, erase, List.find?_filter]
  split
  · rename_i h
    subst h
    simp
  · rename_i h
    congr 1
    funext x
    by_cases hx : key x = j <;> simp [hx, h]

theorem get_keep (t : Table ν key) (p : κ → Prop) [DecidablePred p] (k : κ) :
    (t.keep p).get k = if p k then t.get k else none := by
  simp only [get, keep, List.find?_filter]
  split
  · rename_i hk
    congr 1
    funext x
    by_cases hx : key x = k <;> simp [hx, hk]
  · rename_i hk
    rw [List.find?_eq_none]
    intro x _ hx
    simp only [decide_eq_true_eq] at hx
    exact hk (hx.2 ▸ hx.1)

theorem get_mapRows (t : Table ν key) (f : ν → ν) (hf : ∀ x, key (f x) = key x) (k : κ) :
    (t.mapRows f hf).get k = (t.get k).map f := by
  rw [mapRows, get, get, List.find?_map]
  congr 2
  funext x
  exact congrArg (fun j => decide (j = k)) (hf x)

theorem isSome_get_iff {t : Table ν key} {k : κ} : (t.get k).isSome ↔ ∃ x ∈ t.rows, key x = k := by
  simp only [get, List.find?_isSome, decide_eq_true_eq]

theorem isSome_get_ofList {rows : List ν} {k : κ} :
    ((ofList rows : Table ν key).get k).isSome ↔ ∃ x ∈ rows, key x = k := by
  have hfold : ∀ t : Table ν key,
      ((rows.foldl insert t).get k).isSome ↔ (∃ x ∈ rows, key x = k) ∨ (t.get k).isSome := by
    induction rows with
    | nil => simp
    | cons x rows ih =>
      intro t
      rw [List.foldl_cons, ih, get_insert]
      by_cases hk : key x = k <;> simp [hk]
  exact (hfold empty).trans (or_iff_left (by simp))

/-- A table has fewer than two rows when any two keys in it are the same. -/
theorem length_lt_two_iff {t : Table ν key} :
    t.rows.length < 2 ↔ ∀ j k, (t.get j).isSome → (t.get k).isSome → j = k := by
  simp only [isSome_get_iff]
  constructor
  · rintro hlen j k ⟨x, hx, rfl⟩ ⟨y, hy, rfl⟩
    rcases hrows : t.rows with _ | ⟨z, _ | ⟨z', rest⟩⟩
    · rw [hrows] at hx
      cases hx
    · rw [hrows] at hx hy
      rw [List.mem_singleton.mp hx, List.mem_singleton.mp hy]
    · rw [hrows] at hlen
      exact absurd hlen (by simp)
  · intro hall
    have hsorted := t.sorted
    rcases hrows : t.rows with _ | ⟨x, _ | ⟨y, rest⟩⟩
    · exact Nat.two_pos
    · exact Nat.lt_succ_self 1
    · rw [hrows] at hall hsorted
      have hlt := (List.pairwise_cons.mp hsorted).1 y List.mem_cons_self
      have hsame := hall _ _ ⟨x, List.mem_cons_self, rfl⟩
        ⟨y, List.mem_cons_of_mem _ List.mem_cons_self, rfl⟩
      exact absurd hsame (ne_of_lt hlt)

theorem mem_insert {t : Table ν key} {x z : ν} (h : z ∈ (t.insert x).rows) :
    z = x ∨ z ∈ t.rows :=
  mem_insertRow h

/-- Rows that are listed have been inserted, or were there. -/
theorem mem_insert_ne {t : Table ν key} {x z : ν} (h : z ∈ (t.insert x).rows) :
    z = x ∨ z ∈ t.rows ∧ key z ≠ key x := by
  have hget := get_of_mem h
  rw [get_insert] at hget
  split at hget
  · exact .inl (Option.some.inj hget).symm
  · rename_i hne
    exact .inr ⟨mem_of_get hget, fun heq => hne heq.symm⟩

theorem mem_foldl_insert {rows : List ν} {t : Table ν key} {z : ν}
    (h : z ∈ (rows.foldl insert t).rows) : z ∈ rows ∨ z ∈ t.rows := by
  induction rows generalizing t with
  | nil => exact .inr h
  | cons x xs ih =>
    rcases ih h with hx | ht
    · exact .inl (List.mem_cons_of_mem x hx)
    · rcases mem_insert ht with rfl | ht
      · exact .inl List.mem_cons_self
      · exact .inr ht

theorem mem_of_mem_ofList {rows : List ν} {z : ν} (h : z ∈ (ofList rows : Table ν key).rows) :
    z ∈ rows :=
  (mem_foldl_insert h).resolve_right List.not_mem_nil

/-- Replacing a row leaves the keys as they are. -/
theorem map_key_insertRow {x : ν} {rows : List ν} (hs : rows.Pairwise (fun a b => key a < key b))
    (h : ∃ y ∈ rows, key y = key x) : (insertRow key x rows).map key = rows.map key := by
  induction rows with
  | nil => simp at h
  | cons y ys ih =>
    obtain ⟨hy, hs⟩ := List.pairwise_cons.mp hs
    simp only [insertRow]
    split
    · rename_i hlt
      exfalso
      obtain ⟨z, hz, hkey⟩ := h
      rcases List.mem_cons.mp hz with rfl | hz
      · exact absurd hkey (ne_of_gt hlt)
      · exact absurd hkey (ne_of_gt (lt_trans hlt (hy z hz)))
    · split
      · rename_i heq
        simp [heq]
      · rename_i hne
        have hrest : ∃ z ∈ ys, key z = key x := by
          obtain ⟨z, hz, hkey⟩ := h
          rcases List.mem_cons.mp hz with rfl | hz
          · exact absurd hkey.symm hne
          · exact ⟨z, hz, hkey⟩
        simp [ih hs hrest]

theorem map_key_insert {t : Table ν key} {x : ν} (h : (t.get (key x)).isSome) :
    (t.insert x).rows.map key = t.rows.map key := by
  obtain ⟨y, hy⟩ := Option.isSome_iff_exists.mp h
  exact map_key_insertRow t.sorted ⟨y, mem_of_get hy, key_of_get hy⟩

/-- Tables with the same lookups are the same table. -/
theorem ext_get {t u : Table ν key} (h : ∀ k, t.get k = u.get k) : t = u := by
  obtain ⟨xs, hx⟩ := t
  obtain ⟨ys, hy⟩ := u
  suffices xs = ys by subst this; rfl
  have mem : ∀ z, z ∈ xs ↔ z ∈ ys := by
    intro z
    rw [mem_iff_get (t := ⟨xs,hx⟩), h, ← mem_iff_get]
  refine List.Perm.eq_of_pairwise (fun a b _ _ hab hba => absurd hab (lt_asymm hba)) hx hy ?_
  exact (List.perm_ext_iff_of_nodup (hx.imp (fun h => ne_of_apply_ne key (ne_of_lt h)))
    (hy.imp (fun h => ne_of_apply_ne key (ne_of_lt h)))).mpr mem

theorem insert_eq_iff {t : Table ν key} {x : ν} : t.insert x = t ↔ t.get (key x) = some x := by
  constructor
  · intro h
    have hget := t.get_insert_self x
    rwa [h] at hget
  · intro h
    refine ext_get fun k => ?_
    rw [get_insert]
    split
    · rename_i hk
      rw [← hk, h]
    · rfl

theorem erase_of_none {t : Table ν key} {k : κ} (h : t.get k = none) : t.erase k = t := by
  refine ext_get (fun j => ?_)
  rw [get_erase]
  split
  · rename_i hj
    rw [hj, h]
  · rfl

theorem get_foldl_insert (rows : List ν) (t : Table ν key)
    (hs : rows.Pairwise (fun a b => key a < key b)) (k : κ) :
    (rows.foldl insert t).get k = (rows.find? (fun x => key x = k)).or (t.get k) := by
  induction rows generalizing t with
  | nil => simp
  | cons x xs ih =>
    obtain ⟨hx, hs⟩ := List.pairwise_cons.mp hs
    rw [List.foldl_cons, ih _ hs, get_insert, List.find?_cons]
    by_cases hk : key x = k
    · have hnone : xs.find? (fun y => key y = k) = none := by
        apply List.find?_eq_none.mpr
        intro y hy
        have := ne_of_lt (hx y hy)
        simp [← hk, Ne.symm this]
      simp [hk, hnone]
    · simp [hk]

/-- Listing a table and inserting the rows into an empty one gives it back. -/
@[simp] theorem ofList_rows (t : Table ν key) : ofList t.rows = t := by
  apply ext_get
  intro k
  rw [ofList, get_foldl_insert _ _ t.sorted]
  simp [get, empty]

end Table

end Pertisk.Lib

namespace Pertisk.Lib.Table

variable {κ ν : Type} [LinearOrder κ] {key : ν → κ} {t : Table ν key} {x y : ν} {k j : κ} {f g : ν → ℕ}

/-- What the rows of a table take together. -/
def total (t : Table ν key) (f : ν → ℕ) : ℕ := (t.rows.map f).sum

theorem sum_insertRow {rows : List ν} (hs : rows.Pairwise (fun a b => key a < key b)) :
    ((insertRow key x rows).map f).sum =
      ((rows.filter (fun y => key y ≠ key x)).map f).sum + f x := by
  induction rows with
  | nil => simp [insertRow]
  | cons y ys ih =>
    obtain ⟨hy, hys⟩ := List.pairwise_cons.mp hs
    have hkeep : ∀ z ∈ ys, key x ≤ key y → key z ≠ key x :=
      fun z hz hxy => ne_of_gt (lt_of_le_of_lt hxy (hy z hz))
    simp only [insertRow]
    split
    · rename_i hlt
      have hall : (y :: ys).filter (fun z => key z ≠ key x) = y :: ys := by
        refine List.filter_eq_self.mpr (fun z hz => ?_)
        rcases List.mem_cons.mp hz with rfl | hz
        · simpa using ne_of_gt hlt
        · simpa using hkeep z hz (le_of_lt hlt)
      rw [hall, List.map_cons, List.sum_cons, Nat.add_comm]
    · split
      · rename_i heq
        have hall : (y :: ys).filter (fun z => key z ≠ key x) = ys := by
          rw [List.filter_cons_of_neg (by simp [heq])]
          exact List.filter_eq_self.mpr (fun z hz => by simpa using hkeep z hz (le_of_eq heq))
        rw [hall, List.map_cons, List.sum_cons, Nat.add_comm]
      · rename_i hne
        rw [List.filter_cons_of_pos (by simpa using Ne.symm hne)]
        simp only [List.map_cons, List.sum_cons, ih hys, Nat.add_assoc]

theorem total_insert : (t.insert x).total f = (t.erase (key x)).total f + f x :=
  sum_insertRow t.sorted

theorem erase_insert_self : (t.insert x).erase (key x) = t.erase (key x) := by
  refine ext_get (fun k => ?_)
  rw [get_erase, get_erase, get_insert]
  split
  · rfl
  · rename_i hk
    rw [if_neg (Ne.symm hk)]

theorem erase_insert_ne (h : k ≠ key x) : (t.insert x).erase k = (t.erase k).insert x := by
  refine ext_get (fun j => ?_)
  simp only [get_erase, get_insert]
  by_cases hx : key x = j
  · rw [if_neg (fun hj => h (hj.symm.trans hx.symm)), if_pos hx, if_pos hx]
  · rw [if_neg hx, if_neg hx]

theorem erase_comm : (t.erase k).erase j = (t.erase j).erase k := by
  refine ext_get (fun i => ?_)
  simp only [get_erase]
  split <;> split <;> rfl

theorem insert_get (h : t.get k = some x) : t.insert x = t := by
  refine ext_get (fun j => ?_)
  rw [get_insert, key_of_get h]
  split
  · rename_i hj
    rw [← hj, h]
  · rfl

theorem total_get (h : t.get k = some x) : t.total f = (t.erase k).total f + f x := by
  rw [← key_of_get h, ← total_insert, insert_get h]

theorem total_erase_le : (t.erase k).total f ≤ t.total f := by
  rw [total, total, erase]
  exact (List.filter_sublist.map f).sum_le_sum (fun _ _ => Nat.zero_le _)

/-- A row that takes no more than the one it replaces does not raise the total. -/
theorem total_insert_le (h : f x ≤ ((t.get (key x)).map f).getD 0) :
    (t.insert x).total f ≤ t.total f := by
  rw [total_insert]
  cases hget : t.get (key x) with
  | none =>
    rw [hget] at h
    have hle := total_erase_le (t := t) (k := key x) (f := f)
    exact le_trans (Nat.add_le_add_left h _) hle
  | some y =>
    rw [hget] at h
    rw [total_get hget]
    exact Nat.add_le_add_left h _

/-- The total of the others, when a row is replaced. -/
theorem total_erase_insert_le (h : f x ≤ ((t.get (key x)).map f).getD 0) :
    ((t.insert x).erase k).total f ≤ (t.erase k).total f := by
  by_cases hk : k = key x
  · rw [hk, erase_insert_self]
  · rw [erase_insert_ne hk]
    refine total_insert_le ?_
    rw [get_erase, if_neg (Ne.symm hk)]
    exact h

theorem total_filter (p : ν → Bool) :
    ((t.rows.filter p).map f).sum = t.total (fun x => if p x then f x else 0) := by
  rw [total]
  induction t.rows with
  | nil => rfl
  | cons y ys ih =>
    cases hp : p y with
    | true => rw [List.filter_cons_of_pos hp, List.map_cons, List.sum_cons, ih]; simp [hp]
    | false => rw [List.filter_cons_of_neg (by simp [hp]), ih]; simp [hp]

end Pertisk.Lib.Table
