import Mathlib.Logic.Function.Basic

namespace Pertisk.Lib

/-- Copies of one datum at the places of `N`, the places where it is in use, and the place that
took it into use last. -/
@[ext] structure Copies (N F : Type) where
  copy : N → Option F
  inUse : N → Bool
  owner : Option N

namespace Copies

variable {N F : Type} {version : F → Nat} {full : F → Prop} {top : Nat}
variable {s : Copies N F} {n : N} {f old : F}

/-- A copy that nobody has to make up: one without a write, or one that some place has. -/
def Known (version : F → Nat) (s : Copies N F) (f : F) : Prop :=
  version f = 0 ∨ ∃ k, s.copy k = some f

/-- What may come to stand at a place: its own copy; a known one, where there was nothing to
lose; or the owner's, where the datum is not in use. -/
inductive Moved (version : F → Nat) (full : F → Prop) (s : Copies N F) (n : N) :
    Option F → Prop
  | kept {x : Option F} (h : x = s.copy n) : Moved version full s n x
  | filled {f : F} (hempty : ∀ old, s.copy n = some old → ¬ full old)
      (hknown : Known version s f) : Moved version full s n (some f)
  | pushed {f : F} (hknown : Known version s f) (hidle : s.inUse n = false)
      (howner : ∀ o, s.owner = some o → n ≠ o ∧ s.copy o = some f) :
      Moved version full s n (some f)

/-- The owner's copy is as new as any, and `top` bounds the versions in use. -/
structure Newest (version : F → Nat) (full : F → Prop) (top : Nat) (s : Copies N F) : Prop where
  owned : ∀ o, s.owner = some o → ∃ f, s.copy o = some f ∧ full f ∧
    ∀ n old, s.copy n = some old → version old ≤ version f
  unowned : s.owner = none → ∀ n old, s.copy n = some old → version old = 0
  used : ∀ n, s.inUse n = true → ∃ f, s.copy n = some f ∧ full f
  blank : ∀ n old, s.copy n = some old → ¬ full old → version old = 0
  bounded : ∀ n old, s.copy n = some old → version old ≤ top

/-- No place loses its copy or goes back to an older one, and one that is in use stays. -/
def NoneOlder (version : F → Nat) (s : Copies N F) (copy' : N → Option F) : Prop :=
  ∀ n old, s.copy n = some old → ∃ new, copy' n = some new ∧ version old ≤ version new ∧
    (s.inUse n = true → new = old)

namespace Moved

theorem known {x : Option F} (h : Moved version full s n x) (hx : x = some f) :
    Known version s f := by
  cases h with
  | kept hkept => exact .inr ⟨n, hkept.symm.trans hx⟩
  | filled _ hknown =>
    cases hx
    exact hknown
  | pushed hknown =>
    cases hx
    exact hknown

/-- Nothing has come to a place that still has no copy. -/
theorem of_none (h : Moved version full s n none) : s.copy n = none := by
  cases h with
  | kept hkept => exact hkept.symm

/-- A known copy can be put where there is none. -/
theorem fill (h : Moved version full s n none) (hknown : Known version s f) :
    Moved version full s n (some f) :=
  .filled (fun old hold => by rw [h.of_none] at hold; cases hold) hknown

end Moved

namespace Newest

theorem version_of_known (h : Newest version full top s) (hknown : Known version s f) {o : N}
    (ho : s.owner = some o) {g : F} (hg : s.copy o = some g) : version f ≤ version g := by
  rcases hknown with hzero | ⟨k, hk⟩
  · omega
  · obtain ⟨g', hg', -, hle⟩ := h.owned o ho
    obtain rfl : g = g' := Option.some.inj (hg.symm.trans hg')
    exact hle k f hk

/-- Nothing moves to the owner. -/
theorem owner_kept (h : Newest version full top s) {o : N} (ho : s.owner = some o)
    {x : Option F} (hx : Moved version full s o x) : x = s.copy o := by
  obtain ⟨g, hg, hfull, -⟩ := h.owned o ho
  cases hx with
  | kept hkept => exact hkept
  | filled hempty => exact absurd hfull (hempty g hg)
  | pushed _ _ howner => exact absurd rfl (howner o ho).1

/-- Where nothing but an empty copy stands, a known one can come. -/
theorem refill (h : Newest version full top s) (hold : Moved version full s n (some old))
    (hempty : ¬ full old) (hknown : Known version s f) : Moved version full s n (some f) := by
  cases hold with
  | kept hkept =>
    refine .filled (fun old' hold' => ?_) hknown
    obtain rfl : old = old' := Option.some.inj (hkept.trans hold')
    exact hempty
  | filled hno => exact .filled hno hknown
  | pushed _ hidle howner =>
    refine .pushed hknown hidle (fun o ho => ?_)
    obtain ⟨g, hg, hfull, -⟩ := h.owned o ho
    obtain rfl : g = old := Option.some.inj (hg.symm.trans (howner o ho).2)
    exact absurd hfull hempty

/-- The owner's copy, or an unwritten one of a datum without owner, can go where the datum is not
in use. -/
theorem push (h : Newest version full top s) {m : N} (hm : Moved version full s m (some f))
    (howner : ∀ o, s.owner = some o → o = m) (hne : n ≠ m) (hidle : s.inUse n = false) :
    Moved version full s n (some f) := by
  refine .pushed (hm.known rfl) hidle (fun o ho => ?_)
  obtain rfl := howner o ho
  exact ⟨hne, (h.owner_kept ho hm).symm⟩

/-- The invariant is kept by moves, and nothing is lost by them. -/
theorem moved (h : Newest version full top s) {copy' : N → Option F}
    (hm : ∀ n, Moved version full s n (copy' n)) :
    Newest version full top { s with copy := copy' } ∧ NoneOlder version s copy' := by
  have hzero : s.owner = none → ∀ {f}, Known version s f → version f = 0 := by
    intro ho f hknown
    rcases hknown with hzero | ⟨k, hk⟩
    · exact hzero
    · exact h.unowned ho k f hk
  have hknown : ∀ {n f}, copy' n = some f → Known version s f :=
    fun {n f} hf => (hm n).known hf
  refine ⟨⟨?_, ?_, ?_, ?_, ?_⟩, ?_⟩
  · intro o ho
    obtain ⟨g, hg, hfull, -⟩ := h.owned o ho
    refine ⟨g, (h.owner_kept ho (hm o)).trans hg, hfull, ?_⟩
    intro n f hf
    exact h.version_of_known (hknown hf) ho hg
  · intro ho n f hf
    exact hzero ho (hknown hf)
  · intro n hn
    obtain ⟨g, hg, hfull⟩ := h.used n hn
    have hmove := hm n
    generalize hx : copy' n = x at hmove
    cases hmove with
    | kept hkept => exact ⟨g, hx.trans (hkept.trans hg), hfull⟩
    | filled hempty => exact absurd hfull (hempty g hg)
    | pushed _ hidle => rw [hidle] at hn; cases hn
  · intro n f hf hempty
    rcases hknown hf with hz | ⟨k, hk⟩
    · exact hz
    · exact h.blank k f hk hempty
  · intro n f hf
    rcases hknown hf with hz | ⟨k, hk⟩
    · omega
    · exact h.bounded k f hk
  · intro n old hold
    have hmove := hm n
    generalize hx : copy' n = x at hmove
    cases hmove with
    | kept hkept => exact ⟨old, hkept.trans hold, Nat.le_refl _, fun _ => rfl⟩
    | filled hempty =>
      refine ⟨_, rfl, ?_, fun hn => ?_⟩
      · rw [h.blank n old hold (hempty old hold)]
        exact Nat.zero_le _
      · obtain ⟨g, hg, hfull⟩ := h.used n hn
        exact absurd hfull (hempty g hg)
    | pushed _ hidle howner =>
      refine ⟨_, rfl, ?_, fun hn => by rw [hidle] at hn; cases hn⟩
      cases ho : s.owner with
      | none =>
        rw [h.unowned ho n old hold]
        exact Nat.zero_le _
      | some o => exact h.version_of_known (.inr ⟨n, hold⟩) ho (howner o ho).2

/-- Taking a newest copy into use makes its place the owner. -/
theorem start [DecidableEq N] (h : Newest version full top s) (hf : s.copy n = some f)
    (hfull : full f) (hnew : ∀ m old, s.copy m = some old → version old ≤ version f) :
    Newest version full top { s with
      inUse := Function.update s.inUse n true, owner := some n } where
  owned o ho := by
    cases ho
    exact ⟨f, hf, hfull, hnew⟩
  unowned ho := by cases ho
  used m hm := by
    by_cases hmn : m = n
    · subst hmn
      exact ⟨f, hf, hfull⟩
    · dsimp only at hm
      rw [Function.update_of_ne hmn] at hm
      exact h.used m hm
  blank := h.blank
  bounded := h.bounded

theorem stop [DecidableEq N] (h : Newest version full top s) :
    Newest version full top { s with inUse := Function.update s.inUse n false } where
  owned := h.owned
  unowned := h.unowned
  used m hm := by
    by_cases hmn : m = n
    · subst hmn
      simp at hm
    · dsimp only at hm
      rw [Function.update_of_ne hmn] at hm
      exact h.used m hm
  blank := h.blank
  bounded := h.bounded

theorem mono (h : Newest version full top s) {top' : Nat} (htop : top ≤ top') :
    Newest version full top' s :=
  ⟨h.owned, h.unowned, h.used, h.blank,
    fun n old hold => Nat.le_trans (h.bounded n old hold) htop⟩

/-- A change at one place: one that keeps the version, or the owner's next write. -/
theorem change [DecidableEq N] (h : Newest version full top s) {top' : Nat}
    (hold : s.copy n = some old) (hfull : full old → full f) (hle : version old ≤ version f)
    (htop : top ≤ top') (hf : version f ≤ top')
    (hwrite : version f = version old ∨ s.owner = some n ∧ full f ∧ top ≤ version f) :
    Newest version full top' { s with copy := Function.update s.copy n (some f) } := by
  have hcases : ∀ m x, Function.update s.copy n (some f) m = some x →
      (m = n ∧ x = f) ∨ (m ≠ n ∧ s.copy m = some x) := by
    intro m x hx
    by_cases hmn : m = n
    · subst hmn
      rw [Function.update_self] at hx
      exact .inl ⟨rfl, (Option.some.inj hx).symm⟩
    · rw [Function.update_of_ne hmn] at hx
      exact .inr ⟨hmn, hx⟩
  refine ⟨?_, ?_, ?_, ?_, ?_⟩
  · intro o ho
    obtain ⟨g, hg, hgfull, hgle⟩ := h.owned o ho
    by_cases hon : o = n
    · subst hon
      obtain rfl : g = old := Option.some.inj (hg.symm.trans hold)
      refine ⟨f, Function.update_self .., hfull hgfull, ?_⟩
      intro m x hx
      rcases hcases m x hx with ⟨-, rfl⟩ | ⟨-, hx⟩
      · exact Nat.le_refl _
      · exact Nat.le_trans (hgle m x hx) hle
    · refine ⟨g, (Function.update_of_ne hon _ _).trans hg, hgfull, ?_⟩
      intro m x hx
      rcases hcases m x hx with ⟨-, rfl⟩ | ⟨-, hx⟩
      · rcases hwrite with heq | ⟨hn, -⟩
        · rw [heq]
          exact hgle n old hold
        · exact absurd (Option.some.inj (ho.symm.trans hn)) hon
      · exact hgle m x hx
  · intro ho m x hx
    rcases hcases m x hx with ⟨-, rfl⟩ | ⟨-, hx⟩
    · rcases hwrite with heq | ⟨hn, -⟩
      · rw [heq]
        exact h.unowned ho n old hold
      · have : s.owner = none := ho
        rw [this] at hn
        cases hn
    · exact h.unowned ho m x hx
  · intro m hm
    by_cases hmn : m = n
    · subst hmn
      obtain ⟨g, hg, hgfull⟩ := h.used m hm
      obtain rfl : g = old := Option.some.inj (hg.symm.trans hold)
      exact ⟨f, Function.update_self .., hfull hgfull⟩
    · obtain ⟨g, hg, hgfull⟩ := h.used m hm
      exact ⟨g, (Function.update_of_ne hmn _ _).trans hg, hgfull⟩
  · intro m x hx hempty
    rcases hcases m x hx with ⟨-, rfl⟩ | ⟨-, hx⟩
    · rcases hwrite with heq | ⟨-, hff, -⟩
      · rw [heq]
        exact h.blank n old hold (fun hfo => hempty (hfull hfo))
      · exact absurd hff hempty
    · exact h.blank m x hx hempty
  · intro m x hx
    rcases hcases m x hx with ⟨-, rfl⟩ | ⟨-, hx⟩
    · exact hf
    · exact Nat.le_trans (h.bounded m x hx) htop

end Newest

end Copies

end Pertisk.Lib
