import Mathlib.Logic.Basic
import Mathlib.Order.Basic

namespace Pertisk.Lib

/-- A value that its writers write whole, with the changes that they made, the oldest first. -/
structure Ledger (σ γ : Type) where
  first : σ
  current : σ
  log : List γ := []

namespace Ledger

variable {σ γ β : Type} (apply : γ → σ → σ)

/-- The changes one after the other, each made on what the ones before it left. -/
def replay (s : σ) (log : List γ) : σ := log.foldl (fun s c => apply c s) s

/-- The change is made on a copy, and the copy is written. -/
def write (l : Ledger σ γ) (copy : σ) (c : γ) : Ledger σ γ :=
  { l with current := apply c copy, log := l.log ++ [c] }

def Kept (l : Ledger σ γ) : Prop := l.current = replay apply l.first l.log

/-- What a change did to a view is still there, unless a later change is one of that view. -/
def Present (l : Ledger σ γ) : Prop :=
  ∀ before c after, l.log = before ++ c :: after → ∀ (β : Type) (view : σ → β),
    (∀ d ∈ after, ∀ s, view (apply d s) = view s) →
    view l.current = view (apply c (replay apply l.first before))

variable {apply} {l : Ledger σ γ} {copy : σ} {c : γ}

theorem replay_append (s : σ) (log log' : List γ) :
    replay apply s (log ++ log') = replay apply (replay apply s log) log' := List.foldl_append ..

theorem replay_view {view : σ → β} {log : List γ} (h : ∀ d ∈ log, ∀ s, view (apply d s) = view s)
    (s : σ) : view (replay apply s log) = view s := by
  induction log generalizing s with
  | nil => rfl
  | cons d log ih =>
    have hrest := ih (fun e he => h e (List.mem_cons_of_mem _ he)) (apply d s)
    exact hrest.trans (h d List.mem_cons_self s)

/-- A write loses nothing exactly when the change makes of the copy what it makes of the value. -/
theorem kept_write_iff (h : l.Kept apply) :
    (l.write apply copy c).Kept apply ↔ apply c copy = apply c l.current := by
  unfold Kept write
  rw [replay_append, ← h]
  rfl

theorem Kept.present (h : l.Kept apply) : l.Present apply := by
  intro before c after hlog β view hafter
  rw [h, hlog, replay_append]
  exact replay_view hafter _

/-- As the last change is there under every view, nothing is lost at all. -/
theorem present_iff (h : l.log = [] → l.current = l.first) : l.Present apply ↔ l.Kept apply := by
  refine ⟨fun hp => ?_, Kept.present⟩
  rcases List.eq_nil_or_concat l.log with hnil | ⟨before, c, hlog⟩
  · rw [Kept, hnil, h hnil]
    rfl
  · rw [List.concat_eq_append] at hlog
    have hlast := hp before c [] hlog σ id (fun d hd => nomatch hd)
    rw [Kept, hlog, replay_append]
    exact hlast

end Ledger

end Pertisk.Lib

namespace Pertisk.Lib

variable {γ ρ : Type} {replaces : γ → γ → Prop} {shows : γ → ρ → Prop} {done cs : List γ} {r r' : ρ}

/-- Each change that was made shows in the value, but for those that a later one replaced. -/
def Kept (replaces : γ → γ → Prop) (shows : γ → ρ → Prop) (done : List γ) (r : ρ) : Prop :=
  ∀ before c after, done = before ++ c :: after → (∀ x ∈ after, ¬ replaces x c) → shows c r

namespace Kept

theorem nil : Kept replaces shows [] r := by
  intro before c after h
  cases before <;> cases h

theorem one {c : γ} (h : shows c r) : Kept replaces shows [c] r := by
  intro before d after heq _
  cases before with
  | nil =>
    cases heq
    exact h
  | cons b before =>
    have hnil : before ++ d :: after = [] := (List.cons.inj heq).2.symm
    simp at hnil

/-- New changes show in the new value, and it keeps what they do not replace. -/
theorem append (h : Kept replaces shows done r)
    (hkeep : ∀ c, shows c r → (∀ x ∈ cs, ¬ replaces x c) → shows c r')
    (hnew : Kept replaces shows cs r') : Kept replaces shows (done ++ cs) r' := by
  intro before c after heq hafter
  rcases List.append_eq_append_iff.mp heq with ⟨mid, rfl, hcs⟩ | ⟨mid, hdone, hrest⟩
  · exact hnew mid c after hcs hafter
  · cases mid with
    | nil => exact hnew [] c after hrest.symm hafter
    | cons d mid =>
      obtain ⟨rfl, rfl⟩ := List.cons.inj hrest
      refine hkeep c (h before c mid hdone (fun x hx => hafter x ?_)) (fun x hx => hafter x ?_)
      · exact List.mem_append_left _ hx
      · exact List.mem_append_right _ hx

end Kept

end Pertisk.Lib

namespace Pertisk.Lib

variable {σ ε ι : Type} {apply : ε → σ → σ} {current new copy : σ} {change : ε} {i : ι}
  {copies copies' : ι → Option (ε × σ)}

/-- Who changes a shared value reads it, and writes the changed copy back whole. `copies` has the
change and the copy of each who has read and not yet written: there is one at most, and nobody has
written since it was read. -/
structure Held (apply : ε → σ → σ) (current : σ) (copies : ι → Option (ε × σ)) : Prop where
  sole : ∀ i j, (copies i).isSome → (copies j).isSome → i = j
  fresh : ∀ i change copy, copies i = some (change, copy) → copy = apply change current

theorem Held.nobody (h : ∀ i, copies i = none) : Held apply current copies where
  sole i j hi _ := by simp [h i] at hi
  fresh i change copy hi := by simp [h i] at hi

/-- Somebody reads while nobody has a copy. -/
theorem Held.take (h : ∀ j, j ≠ i → copies j = none) (hi : copies i = some (change, copy))
    (hcopy : copy = apply change current) : Held apply current copies := by
  have honly : ∀ j, (copies j).isSome → j = i := by
    intro j hj
    by_contra hne
    simp [h j hne] at hj
  refine ⟨fun j k hj hk => (honly j hj).trans (honly k hk).symm, fun j other value hj => ?_⟩
  obtain rfl := honly j (by simp [hj])
  rw [hi] at hj
  cases hj
  exact hcopy

theorem Held.only (h : Held apply current copies) (hi : (copies i).isSome) :
    ∀ j, j ≠ i → copies j = none := by
  intro j hne
  by_contra hj
  exact hne (h.sole j i (Option.isSome_iff_ne_none.mpr hj) hi)

/-- Who had the copy writes it back, or gives up; then nobody has one. -/
theorem Held.give (h : Held apply current copies) (hi : (copies i).isSome)
    (hgone : copies' i = none) (hrest : ∀ j, j ≠ i → copies' j = copies j) :
    Held apply new copies' := by
  refine .nobody (fun j => ?_)
  by_cases hji : j = i
  · rw [hji, hgone]
  · rw [hrest j hji, h.only hi j hji]

/-- Nobody has another copy than before. -/
theorem Held.sub (h : Held apply current copies)
    (hsub : ∀ j held, copies' j = some held → copies j = some held) :
    Held apply current copies' := by
  have hsome : ∀ j, (copies' j).isSome → (copies j).isSome := by
    intro j hj
    obtain ⟨held, hheld⟩ := Option.isSome_iff_exists.mp hj
    rw [hsub j held hheld]
    rfl
  exact ⟨fun j k hj hk => h.sole j k (hsome j hj) (hsome k hk),
    fun j change copy hj => h.fresh j change copy (hsub j _ hj)⟩

end Pertisk.Lib
