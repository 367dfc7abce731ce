import Pertisk.Lib.Table

namespace Pertisk.Lib.Table

variable {κ ν : Type} [LinearOrder κ] {key : ν → κ} {own : ν → Prop} {between : ν → ν → Prop}
  {t : Table ν key} {x y : ν} {k : κ}

/-- Each row meets `own`, and any two rows meet `between`. -/
structure Pairs (own : ν → Prop) (between : ν → ν → Prop) (t : Table ν key) : Prop where
  each : ∀ x ∈ t.rows, own x
  two : ∀ x ∈ t.rows, ∀ y ∈ t.rows, key x ≠ key y → between x y

/-- What a new row must meet. -/
structure Fits (own : ν → Prop) (between : ν → ν → Prop) (t : Table ν key) (x : ν) : Prop where
  own : own x
  others : ∀ y ∈ t.rows, key y ≠ key x → between x y

theorem pairs_empty : Pairs own between (empty : Table ν key) := ⟨nofun, nofun⟩

theorem mem_insert_self : x ∈ (t.insert x).rows := mem_of_get (by rw [get_insert, if_pos rfl])

theorem mem_insert_of_ne (hy : y ∈ t.rows) (hne : key y ≠ key x) : y ∈ (t.insert x).rows :=
  mem_of_get (by rw [get_insert, if_neg hne.symm]; exact get_of_mem hy)

theorem of_mem_insert (hy : y ∈ (t.insert x).rows) : y = x ∨ y ∈ t.rows ∧ key y ≠ key x := by
  have hget := get_of_mem hy
  rw [get_insert] at hget
  split at hget
  · exact .inl (Option.some.inj hget).symm
  · rename_i hne
    exact .inr ⟨mem_of_get hget, Ne.symm hne⟩

/-- A row that is put in keeps the pairs apart exactly when it fits the other rows. -/
theorem pairs_insert_iff (hsymm : ∀ x y, between x y → between y x) (h : Pairs own between t) :
    Pairs own between (t.insert x) ↔ Fits own between t x := by
  constructor
  · intro hp
    exact ⟨hp.each x mem_insert_self,
      fun y hy hne => hp.two x mem_insert_self y (mem_insert_of_ne hy hne) hne.symm⟩
  · intro hf
    refine ⟨fun y hy => ?_, fun y hy z hz hne => ?_⟩
    · rcases of_mem_insert hy with rfl | ⟨hold, -⟩
      · exact hf.own
      · exact h.each y hold
    · rcases of_mem_insert hy with rfl | ⟨hy', hyx⟩
      · rcases of_mem_insert hz with rfl | ⟨hz', hzx⟩
        · exact absurd rfl hne
        · exact hf.others z hz' hzx
      · rcases of_mem_insert hz with rfl | ⟨hz', -⟩
        · exact hsymm _ _ (hf.others y hy' hyx)
        · exact h.two y hy' z hz' hne

theorem Pairs.erase (h : Pairs own between t) : Pairs own between (t.erase k) :=
  ⟨fun x hx => h.each x (List.mem_filter.mp hx).1,
    fun x hx y hy => h.two x (List.mem_filter.mp hx).1 y (List.mem_filter.mp hy).1⟩

end Pertisk.Lib.Table
