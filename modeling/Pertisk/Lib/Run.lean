import Mathlib.Data.Finset.Card
import Mathlib.Order.Basic

namespace Pertisk.Lib

/-- A finite run of a labelled transition system, with the actions it took. -/
inductive Run {σ α : Type} (step : σ → α → σ → Prop) : σ → List α → σ → Prop
  | nil (s : σ) : Run step s [] s
  | cons {s t u : σ} {a : α} {as : List α} :
      step s a t → Run step t as u → Run step s (a :: as) u

/-- The transitions of a partial step function. -/
def Steps {σ α : Type} (step : σ → α → Option σ) (s : σ) (a : α) (t : σ) : Prop :=
  step s a = some t

/-- Only the transitions whose action meets `ok` in the state it starts from. -/
def Guarded {σ α : Type} (ok : σ → α → Prop) (step : σ → α → σ → Prop)
    (s : σ) (a : α) (t : σ) : Prop :=
  ok s a ∧ step s a t

/-- Where the steps lead; one that cannot be taken is skipped. -/
def exec {σ α : Type} (f : σ → α → Option σ) (s : σ) : List α → σ
  | [] => s
  | a :: as => exec f ((f s a).getD s) as

namespace Run

variable {σ τ α β : Type} {step : σ → α → σ → Prop} {s t u : σ} {as bs : List α}

theorem one {a : α} (h : step s a t) : Run step s [a] t := .cons h (.nil t)

theorem append (r : Run step s as t) (q : Run step t bs u) : Run step s (as ++ bs) u := by
  induction r with
  | nil => exact q
  | cons h _ ih => exact .cons h (ih q)

/-- What every step preserves, a whole run preserves. -/
theorem invariant {I : σ → Prop} (hs : ∀ s a t, I s → step s a t → I t)
    (r : Run step s as t) (hi : I s) : I t := by
  induction r with
  | nil => exact hi
  | cons h _ ih => exact ih (hs _ _ _ hi h)

/-- Under an invariant, a quantity that no step lowers is not lowered by a run. -/
theorem monotone {γ : Type} [Preorder γ] {I : σ → Prop} (f : σ → γ)
    (hs : ∀ s a t, I s → step s a t → I t ∧ f s ≤ f t)
    (r : Run step s as t) (hi : I s) : f s ≤ f t := by
  induction r with
  | nil => exact le_refl _
  | cons h _ ih => exact le_trans (hs _ _ _ hi h).2 (ih (hs _ _ _ hi h).1)

theorem mono {step' : σ → α → σ → Prop} (h : ∀ s a t, step s a t → step' s a t)
    (r : Run step s as t) : Run step' s as t := by
  induction r with
  | nil => exact .nil _
  | cons hs _ ih => exact .cons (h _ _ _ hs) ih

theorem unguard {ok : σ → α → Prop} (r : Run (Guarded ok step) s as t) : Run step s as t :=
  r.mono (fun _ _ _ h => h.2)

/-- A run whose actions all meet `ok`. -/
theorem guard {ok : α → Prop} (r : Run step s as t) (h : ∀ a ∈ as, ok a) :
    Run (Guarded (fun _ => ok) step) s as t := by
  induction r with
  | nil => exact .nil _
  | cons hs _ ih =>
    exact .cons ⟨h _ List.mem_cons_self, hs⟩ (ih (fun a ha => h a (List.mem_cons_of_mem _ ha)))

theorem guards {ok : α → Prop} (r : Run (Guarded (fun _ => ok) step) s as t) :
    ∀ a ∈ as, ok a := by
  induction r with
  | nil => exact fun _ h => nomatch h
  | cons hs _ ih =>
    intro a ha
    rcases List.mem_cons.mp ha with rfl | ha
    · exact hs.1
    · exact ih a ha

/-- The actions that never change the state can be left out of a run. -/
theorem purge (quiet : α → Bool) (hs : ∀ s a t, quiet a = true → step s a t → t = s)
    (r : Run step s as t) : Run step s (as.filter (fun a => !quiet a)) t := by
  induction r with
  | nil s => exact .nil s
  | @cons s m t a as h _ ih =>
    cases hq : quiet a with
    | true =>
      obtain rfl := hs _ _ _ hq h
      rw [List.filter_cons_of_neg (by simp [hq])]
      exact ih
    | false =>
      rw [List.filter_cons_of_pos (by simp [hq])]
      exact .cons h ih

/-- Forward simulation: each step is matched by a run of the abstract system. -/
theorem simulate {abs : σ → τ} {step' : τ → β → τ → Prop} {I : σ → Prop}
    (hs : ∀ s a t, I s → step s a t → I t ∧ ∃ bs, Run step' (abs s) bs (abs t))
    (r : Run step s as t) (hi : I s) : ∃ bs, Run step' (abs s) bs (abs t) := by
  induction r with
  | nil => exact ⟨[], .nil _⟩
  | cons h _ ih =>
    obtain ⟨hi', bs, hb⟩ := hs _ _ _ hi h
    obtain ⟨cs, hc⟩ := ih hi'
    exact ⟨bs ++ cs, hb.append hc⟩

/-- Where, under an invariant, a step keeps `P` exactly when its action meets `ok`, a run of a
deterministic system that starts in `P` stays in it exactly when all its actions do. -/
theorem always_iff_of {P J : σ → Prop} {ok : σ → α → Prop}
    (hdet : ∀ s a t t', step s a t → step s a t' → t = t')
    (hs : ∀ s a t, J s → P s → step s a t → J t ∧ (P t ↔ ok s a)) (r : Run step s as t)
    (hj : J s) (hp : P s) :
    (∀ bs u, bs <+: as → Run step s bs u → P u) ↔ Run (Guarded ok step) s as t := by
  induction r with
  | nil s =>
    refine iff_of_true (fun bs u hbs q => ?_) (.nil s)
    rw [List.prefix_nil.mp hbs] at q
    cases q
    exact hp
  | @cons s m t a as h _ ih =>
    obtain ⟨hjm, hiff⟩ := hs _ _ _ hj hp h
    constructor
    · intro hall
      have hm : P m := hall [a] m (List.prefix_append [a] as) (one h)
      refine .cons ⟨hiff.mp hm, h⟩ ((ih hjm hm).mp (fun bs u hbs q => ?_))
      exact hall (a :: bs) u ((List.prefix_cons_inj a).mpr hbs) (.cons h q)
    · rintro q bs u hbs q'
      cases q with
      | cons hok q =>
        obtain rfl := hdet _ _ _ _ h hok.2
        have hm := hiff.mpr hok.1
        cases q' with
        | nil => exact hp
        | @cons _ m' _ b bs h' q' =>
          obtain ⟨heq, hrest⟩ := List.cons_prefix_cons.mp hbs
          subst heq
          obtain rfl := hdet _ _ _ _ h h'
          exact (ih hjm hm).mpr q bs u hrest q'

theorem always_iff {P : σ → Prop} {ok : σ → α → Prop}
    (hdet : ∀ s a t t', step s a t → step s a t' → t = t')
    (hs : ∀ s a t, P s → step s a t → (P t ↔ ok s a)) (r : Run step s as t) (hp : P s) :
    (∀ bs u, bs <+: as → Run step s bs u → P u) ↔ Run (Guarded ok step) s as t :=
  always_iff_of (J := fun _ => True) hdet (fun s a t _ hp h => ⟨trivial, hs s a t hp h⟩) r trivial hp

/-- Where `P` is never regained, it is enough to look at the end of the run. -/
theorem last_iff {P : σ → Prop} {ok : σ → α → Prop}
    (hdet : ∀ s a t t', step s a t → step s a t' → t = t')
    (hs : ∀ s a t, P s → step s a t → (P t ↔ ok s a)) (hback : ∀ s a t, step s a t → P t → P s)
    (r : Run step s as t) (hp : P s) : P t ↔ Run (Guarded ok step) s as t := by
  refine ⟨fun ht => ?_, fun q => ?_⟩
  · induction r with
    | nil s => exact .nil s
    | @cons s m t a as h r ih =>
      have hm : P m := by
        clear ih h hp
        induction r with
        | nil => exact ht
        | cons h _ ih => exact hback _ _ _ h (ih ht)
      exact .cons ⟨(hs _ _ _ hp h).mp hm, h⟩ (ih hm ht)
  · exact (always_iff hdet hs r hp).mpr q as t (List.prefix_refl as) r

theorem steps_det {f : σ → α → Option σ} {a : α} (h : Steps f s a t) (h' : Steps f s a u) : t = u :=
  Option.some.inj (h.symm.trans h')

/-- A computed run is a run. -/
theorem of_exec {f : σ → α → Option σ} (h : (as.foldlM f s).isSome) :
    Run (Steps f) s as (exec f s as) := by
  induction as generalizing s with
  | nil => exact .nil s
  | cons a as ih =>
    cases hm : f s a with
    | none => simp [hm] at h
    | some m =>
      simp only [List.foldlM_cons, hm, Option.bind_eq_bind, Option.bind_some] at h
      have hexec : exec f s (a :: as) = exec f m as := by simp [exec, hm]
      rw [hexec]
      exact .cons hm (ih h)

/-- A computed run whose steps were checked on the way. -/
theorem of_exec_guarded {f : σ → α → Option σ} {ok : σ → α → Prop}
    [∀ s a, Decidable (ok s a)]
    (h : (as.foldlM (fun s a => if ok s a then f s a else none) s).isSome) :
    Run (Guarded ok (Steps f)) s as (exec f s as) := by
  induction as generalizing s with
  | nil => exact .nil s
  | cons a as ih =>
    by_cases hok : ok s a
    · cases hm : f s a with
      | none => simp [hok, hm] at h
      | some m =>
        have hexec : exec f s (a :: as) = exec f m as := by simp [exec, hm]
        rw [hexec]
        refine .cons ⟨hok, hm⟩ (ih ?_)
        simpa [hok, hm] using h
    · simp [hok] at h

theorem cons_exec {f : σ → α → Option σ} {ok : σ → α → Prop} {a : α} (hok : ok s a)
    (h : (f s a).isSome) (r : Run (Guarded ok (Steps f)) ((f s a).getD s) as t) :
    Run (Guarded ok (Steps f)) s (a :: as) t := by
  cases hm : f s a with
  | none => simp [hm] at h
  | some m =>
    rw [hm] at r
    exact .cons ⟨hok, hm⟩ r

theorem one_exec {f : σ → α → Option σ} {ok : σ → α → Prop} {a : α} (hok : ok s a)
    (h : (f s a).isSome) : Run (Guarded ok (Steps f)) s [a] (exec f s [a]) :=
  .cons_exec hok h (.nil _)

end Run

end Pertisk.Lib

namespace Pertisk.Lib

variable {σ μ ι : Type}

/-- Make one move after the other for as long as there is one; `none` when the fuel is used up. -/
def greedy (next : σ → Option (σ × μ)) : ℕ → σ → Option (List μ × σ)
  | 0, _ => none
  | fuel + 1, s =>
    match next s with
    | none => some ([], s)
    | some (t, m) => (greedy next fuel t).map (fun r => (m :: r.1, r.2))

variable {next : σ → Option (σ × μ)} {I : σ → Prop} {fuel : ℕ} {s t : σ} {m : μ} {moves : List μ}

def Moves (next : σ → Option (σ × μ)) (s : σ) (m : μ) (t : σ) : Prop := next s = some (t, m)

/-- The moves lead to a state in which there is no other. -/
theorem greedy_run (h : greedy next fuel s = some (moves, t)) :
    Run (Moves next) s moves t ∧ next t = none := by
  induction fuel generalizing s moves with
  | zero => cases h
  | succ fuel ih =>
    unfold greedy at h
    cases hnext : next s with
    | none =>
      rw [hnext] at h
      cases h
      exact ⟨.nil _, hnext⟩
    | some r =>
      obtain ⟨u, m⟩ := r
      rw [hnext] at h
      obtain ⟨⟨rest, v⟩, hrest, heq⟩ := Option.map_eq_some_iff.mp h
      cases heq
      obtain ⟨hrun, hdone⟩ := ih hrest
      exact ⟨.cons hnext hrun, hdone⟩

/-- Each move takes a key out of those that remain. -/
structure Consumes [DecidableEq ι] (next : σ → Option (σ × μ)) (I : σ → Prop)
    (remaining : σ → Finset ι) (key : μ → ι) : Prop where
  keeps : ∀ s m t, I s → Moves next s m t → I t
  takes : ∀ s m t, I s → Moves next s m t → key m ∈ remaining s
  drops : ∀ s m t, I s → Moves next s m t → remaining t ⊆ (remaining s).erase (key m)

variable [DecidableEq ι] {remaining : σ → Finset ι} {key : μ → ι}

/-- It ends, and no key is taken twice. -/
theorem Consumes.greedy (h : Consumes next I remaining key) (hs : I s)
    (hfuel : (remaining s).card < fuel) :
    ∃ moves t, Lib.greedy next fuel s = some (moves, t) ∧ (moves.map key).Nodup ∧
      ∀ m ∈ moves, key m ∈ remaining s := by
  induction fuel generalizing s with
  | zero => exact absurd hfuel (Nat.not_lt_zero _)
  | succ fuel ih =>
    unfold Lib.greedy
    cases hnext : next s with
    | none => exact ⟨[], s, rfl, List.nodup_nil, nofun⟩
    | some r =>
      obtain ⟨u, m⟩ := r
      have htakes := h.takes s m u hs hnext
      have hdrops := h.drops s m u hs hnext
      have hcard : (remaining u).card < fuel := by
        have hle := Finset.card_le_card hdrops
        rw [Finset.card_erase_of_mem htakes] at hle
        have hpos := Finset.card_pos.mpr ⟨_, htakes⟩
        omega
      obtain ⟨rest, t, hrest, hnodup, hmem⟩ := ih (h.keeps s m u hs hnext) hcard
      refine ⟨m :: rest, t, by simp [hrest], ?_, ?_⟩
      · rw [List.map_cons, List.nodup_cons]
        refine ⟨fun hin => ?_, hnodup⟩
        obtain ⟨m', hm', heq⟩ := List.mem_map.mp hin
        have hin' := hdrops (hmem m' hm')
        rw [heq] at hin'
        exact Finset.notMem_erase _ _ hin'
      · intro m' hm'
        rcases List.mem_cons.mp hm' with rfl | hm'
        · exact htakes
        · exact Finset.mem_of_mem_erase (hdrops (hmem m' hm'))

end Pertisk.Lib
