import Mathlib.Order.Basic

namespace Pertisk.Lib

/-- A state with a counter, and the counts at which its contents changed. -/
structure Noted {σ : Type} (count : σ → ℕ) where
  state : σ
  marks : List ℕ
  bounded : ∀ m ∈ marks, m ≤ count state

/-- A procedure over such a state, which can fail on its way. -/
abbrev Proc {σ : Type} (ε : Type) (count : σ → ℕ) (α : Type) := ExceptT ε (StateM (Noted count)) α

variable {σ ε α γ ι : Type} {count : σ → ℕ}

/-- The counter is past every change. -/
def Noted.Clean (b : Noted count) : Prop := ∀ m ∈ b.marks, m < count b.state

def Noted.ofState (s : σ) : Noted count := ⟨s, [], fun _ h => nomatch h⟩

/-- The counter is where it was, and every new mark is at it. -/
def Noted.Unmoved (b b' : Noted count) : Prop :=
  count b'.state = count b.state ∧ ∀ m ∈ b'.marks, m ∈ b.marks ∨ m = count b.state

theorem Noted.clean_of_marks {b : Noted count} (h : b.marks = []) : b.Clean := by
  intro m hm
  rw [h] at hm
  cases hm

theorem Noted.Unmoved.trans {b b' b'' : Noted count} (h : b.Unmoved b') (h' : b'.Unmoved b'') :
    b.Unmoved b'' := by
  refine ⟨h'.1.trans h.1, fun m hm => ?_⟩
  rcases h'.2 m hm with hm | hm
  · exact h.2 m hm
  · exact .inr (hm.trans h.1)

/-- A change that was made without moving the counter is not past it. -/
theorem Noted.Unmoved.not_clean {b b' : Noted count} (h : b.Unmoved b') (hb : b.marks = [])
    (hb' : b'.marks ≠ []) : ¬ b'.Clean := by
  intro hclean
  obtain ⟨m, hm⟩ := List.exists_mem_of_ne_nil _ hb'
  have hlt := hclean m hm
  rcases h.2 m hm with hold | hnew
  · rw [hb] at hold
    cases hold
  · rw [h.1, hnew] at hlt
    exact absurd hlt (Nat.lt_irrefl _)

namespace Proc

def check (e : Except ε α) : Proc ε count α := fun b => (e, b)

/-- Something is read, and what is not counted as contents may move on. -/
def look (f : σ → α) (g : σ → σ) (h : ∀ s, count (g s) = count s) : Proc ε count α := fun b =>
  (.ok (f b.state), { b with
    state := g b.state
    bounded := fun m hm => by rw [h]; exact b.bounded m hm })

/-- The contents are changed under one count; `differ` tells whether they are others then. -/
def alter (differ : σ → σ → Bool) (f : σ → σ) (h : ∀ s, count (f s) = count s) :
    Proc ε count Unit := fun b =>
  (.ok (),
    { state := f b.state
      marks := if differ b.state (f b.state) then count b.state :: b.marks else b.marks
      bounded := by
        intro m hm
        rw [h]
        split at hm
        · rcases List.mem_cons.mp hm with rfl | hm
          · exact Nat.le_refl _
          · exact b.bounded m hm
        · exact b.bounded m hm })

def advance (f : σ → σ) (h : ∀ s, count s < count (f s)) : Proc ε count Unit := fun b =>
  (.ok (), { b with
    state := f b.state
    bounded := fun m hm => Nat.le_trans (b.bounded m hm) (Nat.le_of_lt (h b.state)) })

/-- What was done stays done, and the caller sees how it ended. -/
def attempt (p : Proc ε count α) : Proc ε count (Except ε α) := fun b => (.ok (p b).1, (p b).2)

/-- Every item in turn; the first failure ends the loop. -/
def each (body : ι → Proc ε count Unit) : List ι → Proc ε count Unit
  | [] => pure ()
  | i :: rest => body i >>= fun _ => each body rest

variable {p : Proc ε count α} {f : α → Proc ε count γ} {body : ι → Proc ε count Unit}

/-- From any state a success leads to a clean one. -/
def Settles (p : Proc ε count α) : Prop := ∀ b a b', p b = (.ok a, b') → b'.Clean

/-- From a clean state a success leads to a clean one. -/
def Keeps (p : Proc ε count α) : Prop := ∀ b a b', b.Clean → p b = (.ok a, b') → b'.Clean

/-- From a clean state a failure too leads to a clean one. -/
def Steady (p : Proc ε count α) : Prop := ∀ b, b.Clean → (p b).2.Clean

/-- The counter never moves. -/
def Silent (p : Proc ε count α) : Prop := ∀ b : Noted count, b.Unmoved (p b).2

/-- Neither the counter nor the contents move. -/
def Still (p : Proc ε count α) : Prop :=
  ∀ b, count (p b).2.state = count b.state ∧ (p b).2.marks = b.marks

/-- What a result is known to be, when `I` holds of the state. -/
def Gives (I : σ → Prop) (q : α → Prop) (p : Proc ε count α) : Prop :=
  ∀ b a b', I b.state → p b = (.ok a, b') → q a

/-- From the one property of the state to the other, however the procedure ends. -/
def Leads (I J : σ → Prop) (p : Proc ε count α) : Prop := ∀ b, I b.state → J (p b).2.state

/-- What holds of the state goes on to hold, however the procedure ends. -/
def Upholds (I : σ → Prop) (p : Proc ε count α) : Prop := ∀ b, I b.state → I (p b).2.state

theorem bind_run (p : Proc ε count α) (f : α → Proc ε count γ) (b : Noted count) :
    (p >>= f) b = match p b with
      | (.ok a, b') => f a b'
      | (.error e, b') => (.error e, b') := by
  simp only [bind, ExceptT.bind, ExceptT.mk, StateT.bind]
  rcases p b with ⟨r, b'⟩
  cases r <;> rfl

theorem bind_ok {b b' : Noted count} {c : γ} (h : (p >>= f) b = (.ok c, b')) :
    ∃ a m, p b = (.ok a, m) ∧ f a m = (.ok c, b') := by
  rw [bind_run] at h
  split at h
  · rename_i a m hp
    exact ⟨a, m, hp, h⟩
  · cases h

theorem Settles.keeps (h : Settles p) : Keeps p := fun b a b' _ hp => h b a b' hp

theorem Steady.keeps (h : Steady p) : Keeps p := by
  intro b a b' hb hp
  have hclean := h b hb
  rw [hp] at hclean
  exact hclean

theorem Still.steady (h : Still p) : Steady p := by
  intro b hb m hm
  rw [(h b).2] at hm
  rw [(h b).1]
  exact hb m hm

theorem Still.keeps (h : Still p) : Keeps p := h.steady.keeps

theorem Still.silent (h : Still p) : Silent p := by
  intro b
  refine ⟨(h b).1, fun m hm => ?_⟩
  rw [(h b).2] at hm
  exact .inl hm

section bind

theorem Settles.of_bind (h : ∀ a, Settles (f a)) : Settles (p >>= f) := by
  intro b c b' hp
  obtain ⟨a, m, -, hf⟩ := bind_ok hp
  exact h a m c b' hf

theorem Settles.bind (hp : Settles p) (hf : ∀ a, Keeps (f a)) : Settles (p >>= f) := by
  intro b c b' h
  obtain ⟨a, m, hm, hfa⟩ := bind_ok h
  exact hf a m c b' (hp b a m hm) hfa

theorem Keeps.bind (hp : Keeps p) (hf : ∀ a, Keeps (f a)) : Keeps (p >>= f) := by
  intro b c b' hb h
  obtain ⟨a, m, hm, hfa⟩ := bind_ok h
  exact hf a m c b' (hp b a m hb hm) hfa

theorem Steady.bind (hp : Steady p) (hf : ∀ a, Steady (f a)) : Steady (p >>= f) := by
  intro b hb
  have hm := hp b hb
  rw [bind_run]
  rcases h : p b with ⟨r, m⟩
  rw [h] at hm
  cases r with
  | error e => exact hm
  | ok a => exact hf a m hm

theorem Silent.bind (hp : Silent p) (hf : ∀ a, Silent (f a)) : Silent (p >>= f) := by
  intro b
  have hm := hp b
  rw [bind_run]
  rcases h : p b with ⟨r, m⟩
  rw [h] at hm
  cases r with
  | error e => exact hm
  | ok a => exact hm.trans (hf a m)

theorem Still.bind (hp : Still p) (hf : ∀ a, Still (f a)) : Still (p >>= f) := by
  intro b
  obtain ⟨hcount, hmarks⟩ := hp b
  rw [bind_run]
  rcases h : p b with ⟨r, m⟩
  rw [h] at hcount hmarks
  cases r with
  | error e => exact ⟨hcount, hmarks⟩
  | ok a => exact ⟨(hf a m).1.trans hcount, (hf a m).2.trans hmarks⟩

variable {I : σ → Prop}

/-- `q` is what a result of the first part is known to be. -/
theorem Upholds.bind_of {q : α → Prop} (hp : Upholds I p)
    (hq : ∀ b a b', I b.state → p b = (.ok a, b') → q a) (hf : ∀ a, q a → Upholds I (f a)) :
    Upholds I (p >>= f) := by
  intro b hb
  have hm := hp b hb
  rw [bind_run]
  rcases h : p b with ⟨r, m⟩
  rw [h] at hm
  cases r with
  | error e => exact hm
  | ok a => exact hf a (hq b a m hb h) m hm

theorem Upholds.bind (hp : Upholds I p) (hf : ∀ a, Upholds I (f a)) : Upholds I (p >>= f) :=
  hp.bind_of (q := fun _ => True) (fun _ _ _ _ _ => trivial) (fun a _ => hf a)

theorem Gives.bind_of {q : α → Prop} {r : γ → Prop} (hp : Upholds I p) (hq : Gives I q p)
    (hf : ∀ a, q a → Gives I r (f a)) : Gives I r (p >>= f) := by
  intro b c b' hb h
  obtain ⟨a, m, hrun, h⟩ := bind_ok h
  have hm := hp b hb
  rw [hrun] at hm
  exact hf a (hq b a m hb hrun) m c b' hm h

theorem Upholds.gives_bind {r : γ → Prop} (hp : Upholds I p) (hf : ∀ a, Gives I r (f a)) :
    Gives I r (p >>= f) :=
  .bind_of (q := fun _ => True) hp (fun _ _ _ _ _ => trivial) (fun a _ => hf a)

theorem Gives.pure {q : α → Prop} {a : α} (h : q a) : Gives I q (pure a : Proc ε count α) := by
  intro b c b' _ hrun
  cases hrun
  exact h

theorem Gives.attempt {q : α → Prop} (hp : Gives I q p) :
    Gives I (fun r => ∀ a, r = .ok a → q a) (attempt p) := by
  intro b r b' hb hrun a ha
  cases hrun
  rcases hp' : p b with ⟨r, m⟩
  rw [hp'] at ha
  cases ha
  exact hp b a m hb hp'

/-- Behind a part that holds `I`, which a failure may leave. -/
theorem Upholds.leads_bind {J : σ → Prop} (hp : Upholds I p) (hIJ : ∀ s, I s → J s)
    (hf : ∀ a, Leads I J (f a)) : Leads I J (p >>= f) := by
  intro b hb
  have hm := hp b hb
  rw [bind_run]
  rcases h : p b with ⟨r, m⟩
  rw [h] at hm
  cases r with
  | error e => exact hIJ _ hm
  | ok a => exact hf a m hm

theorem Leads.bind {J : σ → Prop} (hp : Leads I J p) (hf : ∀ a, Upholds J (f a)) :
    Leads I J (p >>= f) := by
  intro b hb
  have hm := hp b hb
  rw [bind_run]
  rcases h : p b with ⟨r, m⟩
  rw [h] at hm
  cases r with
  | error e => exact hm
  | ok a => exact hf a m hm

theorem Upholds.run (hp : Upholds I p) {b b' : Noted count} {r : Except ε α} (hb : I b.state)
    (h : p b = (r, b')) : I b'.state := by
  have hb' := hp b hb
  rw [h] at hb'
  exact hb'

end bind

/-- A failure that is passed on need not leave a clean state. -/
theorem Keeps.attempt_bind {g : Except ε α → Proc ε count γ} (hp : Keeps p)
    (hok : ∀ a, Keeps (g (.ok a))) (herror : ∀ e, Settles (g (.error e))) :
    Keeps (attempt p >>= g) := by
  intro b c b' hb h
  obtain ⟨r, m, hrun, hg⟩ := bind_ok h
  cases hrun
  rcases hpb : p b with ⟨r, m⟩
  rw [hpb] at hg
  cases r with
  | ok a => exact hok a m c b' (hp b a m hb hpb) hg
  | error e => exact herror e m c b' hg

section primitives

theorem Still.pure (a : α) : Still (pure a : Proc ε count α) := fun _ => ⟨rfl, rfl⟩

theorem Still.check (e : Except ε α) : Still (check e : Proc ε count α) := fun _ => ⟨rfl, rfl⟩

theorem Still.look {g : σ → α} {s : σ → σ} {h : ∀ x, count (s x) = count x} :
    Still (look g s h : Proc ε count α) := fun b => ⟨h b.state, rfl⟩

theorem Still.attempt (h : Still p) : Still (attempt p) := h

theorem Settles.throw (e : ε) : Settles (throw e : Proc ε count α) := by
  intro b a b' h
  cases h

theorem Still.throw (e : ε) : Still (throw e : Proc ε count α) := fun _ => ⟨rfl, rfl⟩

theorem Silent.alter {differ : σ → σ → Bool} {g : σ → σ} {h : ∀ s, count (g s) = count s} :
    Silent (alter differ g h : Proc ε count Unit) := by
  intro b
  refine ⟨h b.state, fun m hm => ?_⟩
  simp only [Proc.alter] at hm
  split at hm
  · rcases List.mem_cons.mp hm with rfl | hm
    · exact .inr rfl
    · exact .inl hm
  · exact .inl hm

theorem Silent.attempt (h : Silent p) : Silent (attempt p) := h

theorem Steady.attempt (h : Steady p) : Steady (attempt p) := h

theorem advance_clean {g : σ → σ} {h : ∀ s, count s < count (g s)} (b : Noted count) :
    ((advance g h : Proc ε count Unit) b).2.Clean :=
  fun m hm => Nat.lt_of_le_of_lt (b.bounded m hm) (h b.state)

theorem Settles.advance {g : σ → σ} {h : ∀ s, count s < count (g s)} :
    Settles (advance g h : Proc ε count Unit) := by
  intro b a b' hp
  have hclean := @advance_clean σ ε count g h b
  rw [hp] at hclean
  exact hclean

theorem Steady.advance {g : σ → σ} {h : ∀ s, count s < count (g s)} :
    Steady (advance g h : Proc ε count Unit) := fun b _ => advance_clean b

/-- A change and the step of the counter behind it, with nothing between that can fail. -/
theorem Steady.alter_advance {differ : σ → σ → Bool} {g s : σ → σ}
    {h : ∀ x, count (g x) = count x} {h' : ∀ x, count x < count (s x)} {k : Proc ε count γ}
    (hk : Steady k) :
    Steady ((alter differ g h : Proc ε count Unit) >>= fun _ =>
      (Proc.advance s h' : Proc ε count Unit) >>= fun _ => k) := by
  intro b _
  exact hk _ (@advance_clean σ ε count s h' ((alter differ g h : Proc ε count Unit) b).2)

section upholds
variable {I : σ → Prop}

theorem Upholds.pure (a : α) : Upholds I (pure a : Proc ε count α) := fun _ h => h

theorem Upholds.check (e : Except ε α) : Upholds I (check e : Proc ε count α) := fun _ h => h

theorem Upholds.attempt (hp : Upholds I p) : Upholds I (attempt p) := hp

theorem Upholds.look {g : σ → α} {s : σ → σ} {h : ∀ x, count (s x) = count x}
    (hs : ∀ x, I x → I (s x)) : Upholds I (look g s h : Proc ε count α) := fun b hb => hs b.state hb

theorem Upholds.alter {differ : σ → σ → Bool} {g : σ → σ} {h : ∀ s, count (g s) = count s}
    (hg : ∀ x, I x → I (g x)) : Upholds I (alter differ g h : Proc ε count Unit) :=
  fun b hb => hg b.state hb

theorem Upholds.advance {g : σ → σ} {h : ∀ s, count s < count (g s)} (hg : ∀ x, I x → I (g x)) :
    Upholds I (advance g h : Proc ε count Unit) := fun b hb => hg b.state hb

end upholds

end primitives

section loops
variable {l : List ι}

theorem each_same {b : Noted count} (h : ∀ i ∈ l, body i b = (.ok (), b)) :
    each body l b = (.ok (), b) := by
  induction l with
  | nil => rfl
  | cons i l ih =>
    rw [each, bind_run, h i List.mem_cons_self]
    exact ih (fun j hj => h j (List.mem_cons_of_mem _ hj))

theorem Keeps.each (h : ∀ i ∈ l, Keeps (body i)) : Keeps (each body l) := by
  induction l with
  | nil => exact (Still.pure _).keeps
  | cons i l ih =>
    exact (h i List.mem_cons_self).bind (fun _ => ih (fun j hj => h j (List.mem_cons_of_mem _ hj)))

theorem Steady.each (h : ∀ i ∈ l, Steady (body i)) : Steady (each body l) := by
  induction l with
  | nil => exact (Still.pure _).steady
  | cons i l ih =>
    exact (h i List.mem_cons_self).bind (fun _ => ih (fun j hj => h j (List.mem_cons_of_mem _ hj)))

theorem Upholds.each {I : σ → Prop} (h : ∀ i ∈ l, Upholds I (body i)) :
    Upholds I (each body l) := by
  induction l with
  | nil => exact .pure _
  | cons i l ih =>
    exact (h i List.mem_cons_self).bind (fun _ => ih (fun j hj => h j (List.mem_cons_of_mem _ hj)))

/-- What a turn reaches stays so in the later turns, and so a loop reaches it for every item. -/
theorem each_ok {I : σ → Prop} {J : ι → σ → Prop} (hI : ∀ i ∈ l, Upholds I (body i))
    (hJ : ∀ i ∈ l, ∀ j, Upholds (J j) (body i))
    (hstep : ∀ i ∈ l, ∀ b b', I b.state → body i b = (.ok (), b') → J i b'.state)
    {b b' : Noted count} (hb : I b.state) (h : each body l b = (.ok (), b')) :
    ∀ i ∈ l, J i b'.state := by
  induction l generalizing b with
  | nil =>
    intro i hi
    cases hi
  | cons i l ih =>
    obtain ⟨u, m, hi, hrest⟩ := bind_ok h
    have hlater := fun j (hj : j ∈ l) => List.mem_cons_of_mem i hj
    have hdone := hstep i List.mem_cons_self b m hb hi
    intro j hj
    rcases List.mem_cons.mp hj with rfl | hj
    · exact (Upholds.each (fun k hk => hJ k (hlater k hk) j)).run hdone hrest
    · refine ih (fun k hk => hI k (hlater k hk)) (fun k hk => hJ k (hlater k hk))
        (fun k hk => hstep k (hlater k hk)) ?_ hrest j hj
      exact (hI i List.mem_cons_self).run hb hi

theorem Silent.each (h : ∀ i, Silent (body i)) : Silent (each body l) := by
  induction l with
  | nil => exact (Still.pure _).silent
  | cons i l ih => exact (h i).bind (fun _ => ih)

theorem Still.each (h : ∀ i, Still (body i)) : Still (each body l) := by
  induction l with
  | nil => exact .pure _
  | cons i l ih => exact (h i).bind (fun _ => ih)

/-- A loop that turns at least once ends as its last turn does. -/
theorem Settles.each (h : ∀ i, Settles (body i)) (hl : l ≠ []) : Settles (each body l) := by
  cases l with
  | nil => exact absurd rfl hl
  | cons i l => exact (h i).bind (fun _ => .each (fun j _ => (h j).keeps))

end loops

theorem Silent.unmoved {b b' : Noted count} {r : Except ε α} (h : Silent p) (hp : p b = (r, b')) :
    b.Unmoved b' := by
  have hb := h b
  rw [hp] at hb
  exact hb

end Proc

end Pertisk.Lib
