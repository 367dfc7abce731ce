import Mathlib.Logic.Basic
import Mathlib.Logic.Function.Basic

namespace Pertisk.Lib

variable {N : Type} {owner : Option N} {relies relies' : N → Prop} {m n : N}

/-- Whoever relies on something is the one that it was given to last. -/
def Sole (owner : Option N) (relies : N → Prop) : Prop := ∀ n, relies n → owner = some n

namespace Sole

theorem unique (h : Sole owner relies) (hm : relies m) (hn : relies n) : m = n :=
  Option.some.inj ((h m hm).symm.trans (h n hn))

theorem mono (h : Sole owner relies) (hr : ∀ n, relies' n → relies n) : Sole owner relies' :=
  fun n hn => h n (hr n hn)

/-- It can be given to `m` when `m` has it already, or nobody else relies on it any longer. -/
theorem give (h : Sole owner relies) (hr : ∀ n, relies' n → relies n ∨ n = m)
    (hok : owner = some m ∨ ∀ n, relies n → n = m) : Sole (some m) relies' := by
  intro n hn
  rcases hr n hn with hn | rfl
  · rcases hok with howner | hnone
    · rw [← howner]
      exact h n hn
    · rw [hnone n hn]
  · rfl

end Sole

end Pertisk.Lib

namespace Pertisk.Lib

/-- Places that are made for owners, and the place that each owner says it has. -/
structure Estate (κ π : Type) where
  place : κ → Option π
  maker : π → Option κ

namespace Estate

variable {κ π : Type} {e : Estate κ π} {i j k : κ} {p q : π}

/-- Every owner has the place that was made for it. -/
def Sound (e : Estate κ π) : Prop := ∀ k p, e.place k = some p → e.maker p = some k

namespace Sound

theorem apart (h : e.Sound) (hi : e.place i = some p) (hj : e.place j = some p) : i = j :=
  Option.some.inj ((h i p hi).symm.trans (h j p hj))

/-- A place where nothing stands is nobody's. -/
theorem free (h : e.Sound) (hp : e.maker p = none) : e.place k ≠ some p := by
  intro hk
  rw [h k p hk] at hp
  cases hp

end Sound

variable [DecidableEq κ] [DecidableEq π]

/-- A place is built for an owner that has not moved in. -/
def build (e : Estate κ π) (k : κ) (p : π) : Estate κ π :=
  { e with maker := Function.update e.maker p (some k) }

/-- A place is made for an owner that had none. -/
def make (e : Estate κ π) (k : κ) (p : π) : Estate κ π where
  place := Function.update e.place k (some p)
  maker := Function.update e.maker p (some k)

/-- An owner takes what it has to another place. -/
def move (e : Estate κ π) (k : κ) (p q : π) : Estate κ π where
  place := Function.update e.place k (some q)
  maker := Function.update (Function.update e.maker p none) q (some k)

/-- An owner is gone. -/
def drop (e : Estate κ π) (k : κ) : Estate κ π :=
  { e with place := Function.update e.place k none }

/-- What stands at a place is torn down. -/
def clear (e : Estate κ π) (p : π) : Estate κ π :=
  { e with maker := Function.update e.maker p none }

namespace Sound

omit [DecidableEq κ] in
theorem build (h : e.Sound) (hp : e.maker p = none) : (e.build k p).Sound := by
  intro j q hj
  have hq : q ≠ p := by
    rintro rfl
    exact h.free hp hj
  simpa [Estate.build, hq] using h j q hj

theorem make (h : e.Sound) (hp : e.maker p = none) : (e.make k p).Sound := by
  intro j q hj
  by_cases hjk : j = k
  · subst hjk
    obtain rfl : p = q := by simpa [Estate.make] using hj
    simp [Estate.make]
  · have hj' : e.place j = some q := by simpa [Estate.make, hjk] using hj
    have hq : q ≠ p := by
      rintro rfl
      exact h.free hp hj'
    simpa [Estate.make, hq] using h j q hj'

theorem move (h : e.Sound) (hk : e.place k = some p) (hq : e.maker q = none) :
    (e.move k p q).Sound := by
  intro j r hj
  by_cases hjk : j = k
  · subst hjk
    obtain rfl : q = r := by simpa [Estate.move] using hj
    simp [Estate.move]
  · have hj' : e.place j = some r := by simpa [Estate.move, hjk] using hj
    have hr : r ≠ q := by
      rintro rfl
      exact h.free hq hj'
    have hp : r ≠ p := by
      rintro rfl
      exact hjk (h.apart hj' hk)
    simpa [Estate.move, hr, hp] using h j r hj'

omit [DecidableEq π] in
theorem drop (h : e.Sound) : (e.drop k).Sound := by
  intro j p hj
  by_cases hjk : j = k
  · subst hjk
    simp [Estate.drop] at hj
  · exact h j p (by simpa [Estate.drop, hjk] using hj)

omit [DecidableEq κ] in
theorem clear (h : e.Sound) (hp : ∀ k, e.place k ≠ some p) : (e.clear p).Sound := by
  intro j q hj
  have hq : q ≠ p := by
    rintro rfl
    exact hp j hj
  simpa [Estate.clear, hq] using h j q hj

end Sound

end Estate

end Pertisk.Lib
