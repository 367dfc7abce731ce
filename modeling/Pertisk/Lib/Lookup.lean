import Mathlib.Data.List.Nodup

namespace Pertisk.Lib

section lookup
variable {α κ ε : Type} {id name : α → κ} {xs ys : List α} {key : κ} {x y : α}
  {r r' : Option α}

/-- The one element that has this name. -/
structure Only (name : α → κ) (xs : List α) (key : κ) (x : α) : Prop where
  mem : x ∈ xs
  named : name x = key
  unique : ∀ y ∈ xs, name y = key → y = x

theorem Only.eq (hx : Only name xs key x) (hy : Only name xs key y) : x = y :=
  hy.unique x hx.mem hx.named

/-- A key stands for the element with this id, and without one for the only element of this name. -/
structure Exact (id name : α → κ) (xs : List α) (key : κ) (r : Option α) : Prop where
  byId : ∀ x ∈ xs, id x = key → r = some x
  byName : (∀ x ∈ xs, id x ≠ key) → ∀ x, r = some x ↔ Only name xs key x

/-- A loop that keeps the first match and fails at the second. -/
def pick (p : α → Bool) (many : ε) : Option α → List α → Except ε (Option α)
  | found, [] => .ok found
  | found, x :: xs =>
    if p x then
      if found.isSome then .error many else pick p many (some x) xs
    else pick p many found xs

variable {p : α → Bool} {many : ε}

theorem pick_some : pick p many (some x) xs = .ok r ↔ r = some x ∧ xs.filter p = [] := by
  induction xs with
  | nil =>
    unfold pick
    exact ⟨fun h => ⟨(Except.ok.inj h).symm, rfl⟩, fun h => h.1 ▸ rfl⟩
  | cons y xs ih =>
    rw [pick]
    by_cases hy : p y = true
    · rw [if_pos hy, Option.isSome_some, if_pos rfl, List.filter_cons_of_pos hy]
      exact ⟨fun h => (nomatch h), fun h => (nomatch h.2)⟩
    · rw [if_neg hy, ih, List.filter_cons_of_neg hy]

theorem pick_none : pick p many none xs = .ok r ↔ xs.filter p = r.toList := by
  induction xs with
  | nil =>
    unfold pick
    cases r with
    | none => exact iff_of_true rfl rfl
    | some x => exact ⟨fun h => (nomatch Except.ok.inj h), fun h => (nomatch h)⟩
  | cons y xs ih =>
    rw [pick]
    by_cases hy : p y = true
    · rw [if_pos hy, Option.isSome_none, if_neg Bool.false_ne_true, pick_some,
        List.filter_cons_of_pos hy]
      cases r with
      | none => exact ⟨fun h => (nomatch h.1), fun h => (nomatch h)⟩
      | some x =>
        rw [Option.toList_some, List.cons.injEq, Option.some.injEq, eq_comm (a := x)]
    · rw [if_neg hy, ih, List.filter_cons_of_neg hy]

theorem filter_eq_singleton [DecidableEq κ] (h : xs.Nodup) :
    xs.filter (fun y => decide (name y = key)) = [x] ↔ Only name xs key x := by
  constructor
  · intro hfilter
    have hmem : ∀ y, y ∈ xs ∧ name y = key ↔ y = x := by
      intro y
      rw [← List.mem_singleton (b := x), ← hfilter, List.mem_filter, decide_eq_true_eq]
    obtain ⟨hx, hname⟩ := (hmem x).mpr rfl
    exact ⟨hx, hname, fun y hy hkey => (hmem y).mp ⟨hy, hkey⟩⟩
  · intro honly
    have hnodup := h.filter (fun y => decide (name y = key))
    have hmem : ∀ y, y ∈ xs.filter (fun y => decide (name y = key)) ↔ y = x := by
      intro y
      rw [List.mem_filter, decide_eq_true_eq]
      exact ⟨fun hy => honly.unique y hy.1 hy.2, fun hy => hy ▸ ⟨honly.mem, honly.named⟩⟩
    exact (List.perm_singleton.mp
      ((List.perm_ext_iff_of_nodup hnodup (List.nodup_singleton x)).mpr fun y => by
        rw [hmem, List.mem_singleton]))

/-- With a reading of the key that finds one element at most, the look-up by name is left for the
keys that are not read. -/
theorem exact_iff_of_read {Read : α → Prop} (hid : ∀ x ∈ xs, ∀ y ∈ xs, id x = id y → x = y)
    (hread : ∀ x ∈ xs, Read x → r = some x)
    (hnamed : (∀ x ∈ xs, ¬ Read x) → ∀ x, r = some x ↔ Only name xs key x) :
    Exact id name xs key r ↔ ∀ x ∈ xs, (id x = key ↔ Read x) ∨ Only name xs key x := by
  by_cases hone : ∃ y ∈ xs, Read y
  · obtain ⟨y, hy, hry⟩ := hone
    have hr := hread y hy hry
    have hsame : ∀ x ∈ xs, Read x → x = y := fun x hx hrx =>
      Option.some.inj ((hread x hx hrx).symm.trans hr)
    constructor
    · intro hexact x hx
      by_cases hkey : id x = key
      · have hxy := Option.some.inj ((hexact.byId x hx hkey).symm.trans hr)
        exact .inl (iff_of_true hkey (hxy ▸ hry))
      · by_cases hrx : Read x
        · obtain rfl := hsame x hx hrx
          refine .inr ((hexact.byName (fun z hz hzkey => ?_) x).mp hr)
          have hzx := Option.some.inj ((hexact.byId z hz hzkey).symm.trans hr)
          exact hkey (hzx ▸ hzkey)
        · exact .inl (iff_of_false hkey hrx)
    · intro hall
      refine ⟨fun x hx hkey => ?_, fun hnone x => ?_⟩
      · rcases hall x hx with hiff | honly
        · rw [hr, hsame x hx (hiff.mp hkey)]
        · rcases hall y hy with hiff | honly'
          · rw [hr, hid x hx y hy (hkey.trans (hiff.mpr hry).symm)]
          · rw [hr, honly.eq honly']
      · have honly := (hall y hy).resolve_left fun hiff => hnone y hy (hiff.mpr hry)
        rw [hr, Option.some.injEq]
        exact ⟨fun h => h ▸ honly, fun h => honly.eq h⟩
  · have hnone : ∀ x ∈ xs, ¬ Read x := fun x hx hrx => hone ⟨x, hx, hrx⟩
    have hr := hnamed hnone
    constructor
    · intro hexact x hx
      by_cases hkey : id x = key
      · exact .inr ((hr x).mp (hexact.byId x hx hkey))
      · exact .inl (iff_of_false hkey (hnone x hx))
    · intro hall
      refine ⟨fun x hx hkey => (hr x).mpr ?_, fun _ => hr⟩
      exact (hall x hx).resolve_left fun hiff => hnone x hx (hiff.mp hkey)

end lookup

end Pertisk.Lib
