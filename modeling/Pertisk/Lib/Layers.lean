import Mathlib.Data.List.Basic

namespace Pertisk.Lib

/-- A file that holds some blocks, over a base that has the others. -/
structure Layer (κ β : Type) where
  blocks : Nat → Option β
  base : Option κ

/-- Files with the newest first, so that each stands before its base. -/
abbrev Layers (κ β : Type) := List (κ × Layer κ β)

namespace Layers

variable {κ β : Type} [DecidableEq κ] {layers : Layers κ β} {a b c : κ} {l : Layer κ β}

/-- What a block of a file reads as. -/
def read : Layers κ β → κ → Nat → Option β
  | [], _, _ => none
  | (a, l) :: layers, c, k =>
    if a = c then (l.blocks k).or (l.base.bind (fun b => read layers b k)) else read layers c k

/-- A file is changed in place. -/
def alter (layers : Layers κ β) (a : κ) (f : Layer κ β → Layer κ β) : Layers κ β :=
  layers.map (fun entry => if entry.1 = a then (entry.1, f entry.2) else entry)

/-- Another file stands on this one. -/
def backs (layers : Layers κ β) (a : κ) : Bool :=
  layers.any (fun entry => entry.2.base == some a)

def layer (layers : Layers κ β) (a : κ) : Option (Layer κ β) :=
  (layers.find? (fun entry => entry.1 = a)).map Prod.snd

theorem backs_cons : backs ((a, l) :: layers) b = (l.base == some b || backs layers b) := rfl

/-- A file that no other stands on changes for itself only. -/
theorem read_alter (h : layers.backs a = false) (hc : c ≠ a) (f : Layer κ β → Layer κ β) (k : Nat) :
    (layers.alter a f).read c k = layers.read c k := by
  induction layers generalizing c with
  | nil => rfl
  | cons entry layers ih =>
    obtain ⟨b, l⟩ := entry
    rw [backs_cons, Bool.or_eq_false_iff] at h
    by_cases hb : b = a
    · subst hb
      have hread := ih h.2 hc
      simp only [alter, List.map_cons, if_true, read, if_neg (Ne.symm hc)] at hread ⊢
      exact hread
    · simp only [alter, List.map_cons, if_neg hb, read]
      split
      · cases hbase : l.base with
        | none => rfl
        | some d =>
          have hd : d ≠ a := by
            rintro rfl
            simp [hbase] at h
          have hread := ih h.2 hd
          simp only [alter] at hread
          simp only [Option.bind_some, hread]
      · have hread := ih h.2 hc
        simp only [alter] at hread
        exact hread

/-- A new file changes no other. -/
theorem read_cons (hc : c ≠ a) (k : Nat) : read ((a, l) :: layers) c k = read layers c k := by
  simp [read, Ne.symm hc]

theorem backs_alter (hf : ∀ l : Layer κ β, (f l).base = none ∨ (f l).base = l.base)
    (h : (layers.alter a f).backs b = true) : layers.backs b = true := by
  unfold backs alter at h
  obtain ⟨entry, hentry, hbase⟩ := List.any_eq_true.mp h
  obtain ⟨old, hold, rfl⟩ := List.mem_map.mp hentry
  refine List.any_eq_true.mpr ⟨old, hold, ?_⟩
  split at hbase
  · rcases hf old.2 with hnone | hsame
    · simp [hnone] at hbase
    · simpa [hsame] using hbase
  · exact hbase

/-- Changing blocks leaves the bases. -/
theorem backs_reblock {g : Layer κ β → Nat → Option β}
    (h : (layers.alter a (fun l => { l with blocks := g l })).backs b = true) :
    layers.backs b = true := by
  refine backs_alter (f := fun l => { l with blocks := g l }) (fun _ => .inr ?_) h
  rfl

end Layers

end Pertisk.Lib
