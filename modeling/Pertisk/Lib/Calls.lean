import Mathlib.Logic.Basic
import Mathlib.Logic.Function.Basic

namespace Pertisk.Lib

variable {ε α β : Type} {x : Except ε α} {f : α → Except ε β} {a : α} {b : β}

/-- A call that succeeds does so in each of its parts. -/
theorem bind_ok (h : (x >>= f) = .ok b) : ∃ a, x = .ok a ∧ f a = .ok b := by
  cases x with
  | error e => cases h
  | ok a => exact ⟨a, rfl, h⟩

theorem bind_of_ok (h : x = .ok a) : (x >>= f) = f a := by
  rw [h]
  rfl

theorem bind_ok_iff : (x >>= f) = .ok b ↔ ∃ a, x = .ok a ∧ f a = .ok b := by
  refine ⟨bind_ok, ?_⟩
  rintro ⟨a, rfl, h⟩
  exact h

theorem map_ok_iff {g : α → β} : x.map g = .ok b ↔ ∃ a, x = .ok a ∧ g a = b := by
  cases x with
  | error e => exact iff_of_false (fun h => nomatch h) fun ⟨_, h, _⟩ => nomatch h
  | ok a => exact ⟨fun h => ⟨a, rfl, Except.ok.inj h⟩, fun ⟨_, h, hb⟩ => by cases h; exact hb ▸ rfl⟩

theorem toOption_some (h : x.toOption = some a) : x = .ok a := by
  cases x with
  | error e => cases h
  | ok c =>
    cases h
    rfl

end Pertisk.Lib

namespace Pertisk.Lib

/-- What a call will do with a value that is in memory and in a file, before it does anything. -/
inductive Plan (σ α : Type)
  | refuse (text : String)
  | answer (a : α)
  | change (next : σ) (a : α)

namespace Plan

variable {σ α : Type}

/-- The value is changed first and the file written after; `disk` is how the write ends. -/
def run (m : σ) (disk : Except String Unit) : Plan σ α → σ × Except String α
  | .refuse text => (m, .error text)
  | .answer a => (m, .ok a)
  | .change next a => (next, disk.map (fun _ => a))

/-- An error comes with the value that was there before. -/
def Unchanged (m : σ) (r : σ × Except String α) : Prop := ∀ text, r.2 = .error text → r.1 = m

theorem unchanged_run_iff (m : σ) (disk : Except String Unit) (p : Plan σ α) :
    Unchanged m (p.run m disk) ↔ disk = .ok () ∨ ∀ next a, p = .change next a → next = m := by
  cases p with
  | refuse text => exact iff_of_true (fun _ _ => rfl) (.inr (fun _ _ h => nomatch h))
  | answer a => exact iff_of_true (fun _ _ => rfl) (.inr (fun _ _ h => nomatch h))
  | change next a =>
    cases disk with
    | ok done => exact iff_of_true (fun _ h => nomatch h) (.inl rfl)
    | error text =>
      constructor
      · intro h
        refine .inr (fun n b heq => ?_)
        cases heq
        exact h text rfl
      · rintro (h | h)
        · cases h
        · exact fun _ _ => h next a rfl

end Plan

end Pertisk.Lib

namespace Pertisk.Lib

variable {σ ι α ε : Type}

/-- Steps that are taken one after another; when one fails, those before it are undone. -/
def batch (take : σ → ι → σ × Except ε α) (undo : σ → α → σ) :
    σ → List ι → List α → σ × Except ε (List α)
  | s, [], done => (s, .ok done)
  | s, i :: rest, done =>
    match take s i with
    | (s, .ok a) => batch take undo s rest (done ++ [a])
    | (s, .error e) => (done.foldl undo s, .error e)

/-- Steps that all go through, with what they give. -/
inductive Taken (take : σ → ι → σ × Except ε α) : σ → List ι → σ → List α → Prop
  | nil (s : σ) : Taken take s [] s []
  | cons {s t u : σ} {i : ι} {is : List ι} {a : α} {as : List α} :
      take s i = (t, .ok a) → Taken take t is u as → Taken take s (i :: is) u (a :: as)

variable {take : σ → ι → σ × Except ε α} {undo : σ → α → σ} {s t u : σ} {is pre post : List ι}
  {as bs done : List α} {i : ι} {e : ε}

theorem batch_all (h : Taken take s is t bs) :
    batch take undo s is done = (t, .ok (done ++ bs)) := by
  induction h generalizing done with
  | nil s => rw [batch, List.append_nil]
  | cons hstep _ ih =>
    rw [batch, hstep]
    exact ih.trans (by rw [List.append_assoc]; rfl)

theorem batch_fails (h : Taken take s pre u bs) (hfail : take u i = (t, .error e)) :
    batch take undo s (pre ++ i :: post) done = ((done ++ bs).foldl undo t, .error e) := by
  induction h generalizing done with
  | nil s => rw [List.nil_append, batch, hfail, List.append_nil]
  | cons hstep _ ih =>
    rw [List.cons_append, batch, hstep]
    exact (ih hfail).trans (by rw [List.append_assoc]; rfl)

/-- All steps go through, or one fails after some that did. -/
theorem batch_cases (take : σ → ι → σ × Except ε α) (s : σ) (is : List ι) :
    (∃ t bs, Taken take s is t bs) ∨
      ∃ pre i post u bs t e, is = pre ++ i :: post ∧ Taken take s pre u bs ∧
        take u i = (t, .error e) := by
  induction is generalizing s with
  | nil => exact .inl ⟨s, [], .nil s⟩
  | cons i rest ih =>
    rcases hstep : take s i with ⟨t, e | a⟩
    · exact .inr ⟨[], i, rest, s, [], t, e, rfl, .nil s, hstep⟩
    · rcases ih t with ⟨u, bs, htaken⟩ | ⟨pre, j, post, u, bs, v, e, hsplit, htaken, hfail⟩
      · exact .inl ⟨u, a :: bs, .cons hstep htaken⟩
      · refine .inr ⟨i :: pre, j, post, u, a :: bs, v, e, ?_, .cons hstep htaken, hfail⟩
        rw [hsplit, List.cons_append]

end Pertisk.Lib

namespace Pertisk.Lib

variable {N S O : Type} [DecidableEq N] {step : (N → S) → N → N → S} {P : (N → S) → Prop}

theorem foldl_preserves {σ α : Type} {f : σ → α → σ} {P : σ → Prop} {xs : List α} {s : σ}
    (hP : ∀ s a, a ∈ xs → P s → P (f s a)) (h : P s) : P (xs.foldl f s) := by
  induction xs generalizing s with
  | nil => exact h
  | cons a as ih =>
    exact ih (fun s b hb => hP s b (List.mem_cons_of_mem _ hb)) (hP s a List.mem_cons_self h)

/-- A loop whose body for an element changes that element's state only, and what can be
observed of it by a function that is the same done twice: each element listed is changed once. -/
theorem foldl_local (obs : S → O) {g : N → O → O} (hP : ∀ w n, P w → P (step w n))
    (hself : ∀ w n, P w → obs (step w n n) = g n (obs (w n)))
    (hother : ∀ w n m, P w → m ≠ n → step w n m = w m)
    (idem : ∀ n x, g n (g n x) = g n x) (ns : List N) {w : N → S} (h : P w) (n : N) :
    obs (ns.foldl step w n) = if n ∈ ns then g n (obs (w n)) else obs (w n) := by
  induction ns generalizing w with
  | nil => simp
  | cons m ms ih =>
    rw [List.foldl_cons, ih (hP w m h)]
    by_cases hm : n = m
    · subst hm
      rw [hself w n h, idem]
      simp
    · rw [hother w m n h hm]
      simp [hm]

end Pertisk.Lib
