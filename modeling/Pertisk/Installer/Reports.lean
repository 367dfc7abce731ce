import Pertisk.Installer.Progress

namespace Pertisk.Installer
open Lib

variable {lower : List Char → List Char} {w w' w₁ w₂ : Server} {e : Event} {es es' : List Event}
  {i j k : ℕ} {p q : Poll} {proc : Option ℕ} {error : String} {stage pct : ℕ}
  {lines : List (List Char)} {r : Report} {code : ℤ}

theorem Server.put_self (hi : w.polls[i]? = some p) (q : Poll) :
    (w.put i q).polls[i]? = some q := by
  obtain ⟨hlt, -⟩ := List.getElem?_eq_some_iff.mp hi
  exact List.getElem?_set_self hlt

theorem Server.put_other (hne : i ≠ j) (q : Poll) : (w.put i q).polls[j]? = w.polls[j]? :=
  List.getElem?_set_ne hne

theorem Server.poll_ended (hk : w.children[k]? = some (some code)) :
    w.poll (some k) = some code := by
  simp [Server.poll, hk]

theorem Server.poll_some (h : w.poll proc = some code) :
    ∃ k, proc = some k ∧ w.children[k]? = some (some code) := by
  cases proc with
  | none => simp [Server.poll] at h
  | some k =>
    refine ⟨k, rfl, ?_⟩
    cases hk : w.children[k]? with
    | none => simp [Server.poll, hk] at h
    | some c =>
      rw [← h]
      simp [Server.poll, hk]

theorem judge_failed (hcode : code ≠ 0) : judge proc error stage pct lines (some code) =
    { proc, status := .error, pct, stage, lines := lastOf 12 lines
      error := if error = "" then exitText code else error } := by
  unfold judge
  split
  · next h => cases h
  · next h => exact absurd (Option.some.inj h) hcode
  · next h => rw [Option.some.inj h]

/-! ### A process that has ended -/

/-- What is answered of a process that ended with an exit code. -/
def Report.Verdict (r : Report) (k : ℕ) (code : ℤ) : Prop :=
  r.proc = some k ∧
    (code = 0 ∧ r.status = .done ∧ r.stage = 4 ∧ r.pct = 100 ∨ code ≠ 0 ∧ r.status = .error)

theorem judge_verdict : (judge (some k) error stage pct lines (some code)).Verdict k code := by
  by_cases hcode : code = 0
  · subst hcode
    exact ⟨rfl, .inl ⟨rfl, rfl, rfl, rfl⟩⟩
  · rw [judge_failed hcode]
    exact ⟨rfl, .inr ⟨hcode, rfl⟩⟩

/-- A call of `progress` that looks at a process, and answers with its verdict. -/
def Poll.Judges (k : ℕ) (code : ℤ) : Poll → Prop
  | .seen proc _ _ => proc = some k
  | .scanned proc _ _ _ _ => proc = some k
  | .ready r => r.Verdict k code
  | .over r => r.Verdict k code

/-- The process has ended, and the call looks at it. -/
structure Server.Ended (w : Server) (i k : ℕ) (code : ℤ) : Prop where
  ended : w.children[k]? = some (some code)
  judges : ∃ p, w.polls[i]? = some p ∧ p.Judges k code

theorem Server.Ended.put (hd : w.Ended i k code) (hj : w.polls[j]? = some p)
    (h : p.Judges k code → q.Judges k code) : (w.put j q).Ended i k code := by
  obtain ⟨hk, p', hp', hjudges⟩ := hd
  refine ⟨hk, ?_⟩
  by_cases hji : j = i
  · subst hji
    rw [hj] at hp'
    obtain rfl := Option.some.inj hp'
    exact ⟨q, put_self hj q, h hjudges⟩
  · exact ⟨p', (put_other hji q).trans hp', hjudges⟩

theorem Server.Ended.step (hd : w.Ended i k code) (h : Stepped lower w e w') :
    w'.Ended i k code := by
  have hk := h.keeps hd.ended
  cases h with
  | refused | begun | exits | idle => exact ⟨hk, hd.judges⟩
  | asked =>
    obtain ⟨p, hp, hjudges⟩ := hd.judges
    obtain ⟨hlt, -⟩ := List.getElem?_eq_some_iff.mp hp
    exact ⟨hk, p, (List.getElem?_append_left hlt).trans hp, hjudges⟩
  | scans logs hj => exact hd.put hj (fun hproc => hproc)
  | looks hj =>
    refine hd.put hj (fun hproc => ?_)
    obtain rfl := hproc
    rw [poll_ended hd.ended]
    exact judge_verdict
  | @answers j a hj =>
    have hput : (w.put j (.over a)).Ended i k code := hd.put hj (fun hverdict => hverdict)
    exact ⟨hk, hput.judges⟩

theorem judge_proc (c : Option ℤ) : (judge proc error stage pct lines c).proc = proc := by
  cases c with
  | none => rfl
  | some code =>
    by_cases hcode : code = 0
    · subst hcode
      rfl
    · rw [judge_failed hcode]

/-- Once a process is named the status is no longer `idle`. -/
structure Server.Begun (w : Server) : Prop where
  named : w.state.status = .idle → w.state.proc = none
  ready : ∀ r, Poll.ready r ∈ w.polls → r.status ≠ .idle

theorem judge_status (c : Option ℤ) : (judge proc error stage pct lines c).status ≠ .idle := by
  cases c with
  | none => exact fun h => by cases h
  | some code =>
    by_cases hcode : code = 0
    · subst hcode
      exact fun h => by cases h
    · rw [judge_failed hcode]
      exact fun h => by cases h

theorem Server.Begun.put (hb : w.Begun) (hq : ∀ r, q = .ready r → r.status ≠ .idle) :
    (w.put j q).Begun := by
  refine ⟨hb.named, fun r hr => ?_⟩
  rcases List.mem_or_eq_of_mem_set hr with hr | hr
  · exact hb.ready r hr
  · exact hq r hr.symm

theorem Server.Begun.step (hb : w.Begun) (h : Stepped lower w e w') : w'.Begun := by
  cases h with
  | refused | exits | idle => exact ⟨hb.named, hb.ready⟩
  | begun => exact ⟨fun h => (by cases h), hb.ready⟩
  | asked =>
    refine ⟨hb.named, fun r hr => ?_⟩
    rcases List.mem_append.mp hr with hr | hr
    · exact hb.ready r hr
    · cases List.mem_singleton.mp hr
  | scans => exact hb.put (fun r h => by cases h)
  | looks =>
    refine hb.put (fun r h => ?_)
    cases h
    exact judge_status _
  | @answers j a hj =>
    refine ⟨fun hidle => absurd hidle (hb.ready a (List.mem_of_getElem? hj)), fun r hr => ?_⟩
    have hput : (w.put j (.over a)).Begun := hb.put (fun _ h => by cases h)
    exact hput.ready r hr

theorem begun_new : Server.new.Begun where
  named _ := rfl
  ready r hr := by cases hr

/-- A call of `progress` that begins when the process that `STATE` names has ended answers with what
that process came to, whatever else is asked for, exits or is begun until then. -/
theorem finished_stays (r₁ : Run (Steps (Server.step lower)) Server.new es w)
    (hproc : w.state.proc = some k) (hended : w.children[k]? = some (some code))
    (hasked : w.step lower .asked = some w₁) (r₂ : Run (Steps (Server.step lower)) w₁ es' w₂)
    (hover : w₂.polls[w.polls.length]? = some (.over r)) : r.Verdict k code := by
  have hb : w.Begun :=
    r₁.invariant (fun _ _ _ hi hs => hi.step (Server.step_cases hs)) begun_new
  have hd : w₁.Ended w.polls.length k code := by
    cases Server.step_cases hasked with
    | idle hidle =>
      rw [hb.named hidle] at hproc
      cases hproc
    | asked => exact ⟨hended, _, List.getElem?_concat_length, hproc⟩
  have hd₂ : w₂.Ended w.polls.length k code :=
    r₂.invariant (I := fun w' => w'.Ended w.polls.length k code)
      (fun _ _ _ hi hs => hi.step (Server.step_cases hs)) hd
  obtain ⟨p, hp, hjudges⟩ := hd₂.judges
  rw [hover] at hp
  obtain rfl := Option.some.inj hp
  exact hjudges

/-- An installation that ends well; the next is begun while a call looks at it. -/
def ended : List Event := [.install (.ok ()), .exits 0 0]

def overlapping : List Event :=
  [.install (.ok ()), .scans 0 ⟨[], [], [], []⟩, .looks 0, .answers 0]

def finished : Report :=
  { proc := some 0, status := .done, pct := 100, stage := 4
    lines := ["Installation finished.".toList], error := "" }

theorem finished_stays_ended : finished.Verdict 0 0 :=
  finished_stays (w := exec (Server.step id) Server.new ended) (Run.of_exec (by decide +kernel))
    (by decide +kernel) (by decide +kernel) (Option.some_get (by decide +kernel)).symm
    (show Run _ _ overlapping _ from Run.of_exec (by decide +kernel)) (by decide +kernel)

/-! ### A second installation -/

/-- The error text is that of the process's own exit code, and the last stage is only reached by a
process that ended well. -/
structure Server.Fits (w : Server) (proc : Option ℕ) (error : String) (stage : ℕ) : Prop where
  error : error = "" ∨ ∃ k code, proc = some k ∧ w.children[k]? = some (some code) ∧ code ≠ 0 ∧
    error = exitText code
  stage : stage ≤ 3 ∨ stage = 4 ∧ ∃ k, proc = some k ∧ w.children[k]? = some (some 0)

/-- The answer is what the process came to: the last stage and 100 percent only for one that ended
well, an error only for one that did not, with the text of its own exit code. -/
inductive Server.Tells (w : Server) : Report → Prop
  | idle : w.Tells { proc := none, status := .idle, pct := 0, stage := 0, lines := [], error := "" }
  | running {proc : Option ℕ} {stage : ℕ} {lines : List (List Char)} (hstage : stage ≤ 3) :
      w.Tells { proc, status := .running, pct := percent stage, stage, lines, error := "" }
  | done {k : ℕ} {lines : List (List Char)} (hk : w.children[k]? = some (some 0)) :
      w.Tells { proc := some k, status := .done, pct := 100, stage := 4, lines, error := "" }
  | failed {k stage : ℕ} {code : ℤ} {lines : List (List Char)}
      (hk : w.children[k]? = some (some code)) (hcode : code ≠ 0) (hstage : stage ≤ 3) :
      w.Tells { proc := some k, status := .error, pct := percent stage, stage, lines
                error := exitText code }

/-- What a call of `progress` has found out belongs to the process that `STATE` names. -/
def Server.Holds (w : Server) : Poll → Prop
  | .seen proc error stage => proc = w.state.proc ∧ w.Fits proc error stage
  | .scanned proc error stage pct _ =>
    proc = w.state.proc ∧ w.Fits proc error stage ∧ pct = percent stage
  | .ready r => r.proc = w.state.proc ∧ w.Tells r
  | .over _ => True

structure Server.Right (w : Server) : Prop where
  state : w.Fits w.state.proc w.state.error w.state.stage
  polls : ∀ p ∈ w.polls, w.Holds p
  answers : ∀ r ∈ w.answers, w.Tells r

/-- Every exit code is still there. -/
def Server.Keeps (w w' : Server) : Prop :=
  ∀ (k : ℕ) (code : ℤ), w.children[k]? = some (some code) → w'.children[k]? = some (some code)

theorem Server.Fits.mono (hf : w.Fits proc error stage) (h : w.Keeps w') :
    w'.Fits proc error stage := by
  constructor
  · rcases hf.error with hnone | ⟨k, code, hproc, hk, hcode⟩
    · exact .inl hnone
    · exact .inr ⟨k, code, hproc, h k code hk, hcode⟩
  · rcases hf.stage with hle | ⟨hlast, k, hproc, hk⟩
    · exact .inl hle
    · exact .inr ⟨hlast, k, hproc, h k 0 hk⟩

theorem Server.Tells.mono (ht : w.Tells r) (h : w.Keeps w') : w'.Tells r := by
  cases ht with
  | idle => exact .idle
  | running hstage => exact .running hstage
  | done hk => exact .done (h _ _ hk)
  | failed hk hcode hstage => exact .failed (h _ _ hk) hcode hstage

theorem Server.Holds.mono (hp : w.Holds p) (h : w.Keeps w')
    (hproc : w'.state.proc = w.state.proc) : w'.Holds p := by
  cases p with
  | seen => exact ⟨hp.1.trans hproc.symm, hp.2.mono h⟩
  | scanned => exact ⟨hp.1.trans hproc.symm, hp.2.1.mono h, hp.2.2⟩
  | ready => exact ⟨hp.1.trans hproc.symm, hp.2.mono h⟩
  | _ => trivial

/-- What is left in `STATE` by an answer that is right. -/
theorem Server.Tells.fits (ht : w.Tells r) : w.Fits r.proc r.error r.stage := by
  cases ht with
  | idle => exact ⟨.inl rfl, .inl (Nat.zero_le 3)⟩
  | running hstage => exact ⟨.inl rfl, .inl hstage⟩
  | done hk => exact ⟨.inl rfl, .inr ⟨rfl, _, rfl, hk⟩⟩
  | failed hk hcode hstage => exact ⟨.inr ⟨_, _, rfl, hk, hcode, rfl⟩, .inl hstage⟩

theorem detectStage_le (l : Logs) : detectStage lower l ≤ 3 := by
  unfold detectStage
  split
  · exact Nat.le_refl 3
  · split
    · decide
    · split
      · decide
      · split <;> decide

theorem Server.Fits.scanned (hf : w.Fits proc error stage) (l : Logs) :
    w.Fits proc error (max stage (detectStage lower l)) := by
  have hl : detectStage lower l ≤ 3 := detectStage_le l
  refine ⟨hf.error, ?_⟩
  rcases hf.stage with hle | ⟨rfl, hdone⟩
  · exact .inl (Nat.max_le.mpr ⟨hle, hl⟩)
  · exact .inr ⟨Nat.max_eq_left (by omega), hdone⟩

theorem Server.Fits.quiet (hf : w.Fits proc error stage) (h : w.poll proc = none) :
    error = "" ∧ stage ≤ 3 := by
  constructor
  · rcases hf.error with hnone | ⟨k, code, rfl, hk, -⟩
    · exact hnone
    · rw [poll_ended hk] at h
      cases h
  · rcases hf.stage with hle | ⟨-, k, rfl, hk⟩
    · exact hle
    · rw [poll_ended hk] at h
      cases h

theorem Server.Fits.judged (hf : w.Fits proc error stage) :
    w.Tells (judge proc error stage (percent stage) lines (w.poll proc)) := by
  cases hpoll : w.poll proc with
  | none =>
    obtain ⟨rfl, hstage⟩ := hf.quiet hpoll
    exact .running hstage
  | some code =>
    obtain ⟨k, rfl, hk⟩ := poll_some hpoll
    by_cases hcode : code = 0
    · subst hcode
      have herror : error = "" := by
        rcases hf.error with hnone | ⟨j, code, hj, hfailed, hne, -⟩
        · exact hnone
        · obtain rfl := Option.some.inj hj
          rw [hk] at hfailed
          exact absurd (Option.some.inj (Option.some.inj hfailed)).symm hne
      subst herror
      exact .done hk
    · have herror : (if error = "" then exitText code else error) = exitText code := by
        rcases hf.error with rfl | ⟨j, other, hj, hfailed, -, rfl⟩
        · exact if_pos rfl
        · obtain rfl := Option.some.inj hj
          rw [hk] at hfailed
          obtain rfl := Option.some.inj (Option.some.inj hfailed)
          exact ite_self _
      have hstage : stage ≤ 3 := by
        rcases hf.stage with hle | ⟨-, j, hj, hdone⟩
        · exact hle
        · obtain rfl := Option.some.inj hj
          rw [hk] at hdone
          exact absurd (Option.some.inj (Option.some.inj hdone)) hcode
      rw [judge_failed hcode, herror]
      exact .failed hk hcode hstage

theorem Server.Right.put (hr : w.Right) (hq : w.Holds q) : (w.put j q).Right := by
  refine ⟨hr.state.mono (fun _ _ h => h), fun p hp => ?_,
    fun r h => (hr.answers r h).mono (fun _ _ h => h)⟩
  rcases List.mem_or_eq_of_mem_set hp with hp | rfl
  · exact (hr.polls p hp).mono (fun _ _ h => h) rfl
  · exact hq.mono (fun _ _ h => h) rfl

def Poll.isOver : Poll → Bool
  | .over _ => true
  | _ => false

/-- An installation is only begun while no call of `progress` is under way. -/
def apart (w : Server) : Event → Bool
  | .install _ => w.polls.all Poll.isOver
  | _ => true

theorem Server.Right.step (hr : w.Right) (hok : apart w e = true) (h : Stepped lower w e w') :
    w'.Right := by
  have hkeeps : w.Keeps w' := fun k code hk => h.keeps hk
  cases h with
  | refused => exact hr
  | begun =>
    refine ⟨⟨.inl rfl, .inl (Nat.zero_le 3)⟩, fun p hp => ?_,
      fun r h => (hr.answers r h).mono hkeeps⟩
    have hover := List.all_eq_true.mp hok p hp
    cases p with
    | seen | scanned | ready => cases hover
    | _ => trivial
  | exits =>
    exact ⟨hr.state.mono hkeeps, fun p hp => (hr.polls p hp).mono hkeeps rfl,
      fun r h => (hr.answers r h).mono hkeeps⟩
  | idle =>
    refine ⟨hr.state.mono hkeeps, fun p hp => (hr.polls p hp).mono hkeeps rfl, fun r h => ?_⟩
    rcases List.mem_append.mp h with h | h
    · exact (hr.answers r h).mono hkeeps
    · obtain rfl := List.mem_singleton.mp h
      exact .idle
  | asked =>
    refine ⟨hr.state.mono hkeeps, fun p hp => ?_, fun r h => (hr.answers r h).mono hkeeps⟩
    rcases List.mem_append.mp hp with hp | hp
    · exact (hr.polls p hp).mono hkeeps rfl
    · obtain rfl := List.mem_singleton.mp hp
      exact ⟨rfl, hr.state.mono hkeeps⟩
  | scans logs hi =>
    obtain ⟨hproc, hfits⟩ := hr.polls _ (List.mem_of_getElem? hi)
    exact hr.put ⟨hproc, hfits.scanned logs, rfl⟩
  | looks hi =>
    obtain ⟨hproc, hfits, rfl⟩ := hr.polls _ (List.mem_of_getElem? hi)
    exact hr.put ⟨by rw [judge_proc]; exact hproc, hfits.judged⟩
  | @answers j a hi =>
    obtain ⟨hproc, htells⟩ := hr.polls _ (List.mem_of_getElem? hi)
    have hput : (w.put j (.over a)).Right := hr.put trivial
    refine ⟨?_, fun p hp => (hput.polls p hp).mono hkeeps rfl, fun r h => ?_⟩
    · have hfits := htells.fits
      rw [hproc] at hfits
      exact hfits.mono hkeeps
    · rcases List.mem_append.mp h with h | h
      · exact (hr.answers r h).mono hkeeps
      · obtain rfl := List.mem_singleton.mp h
        exact htells.mono hkeeps

theorem right_new : Server.new.Right where
  state := ⟨.inl rfl, .inl (Nat.zero_le 3)⟩
  polls p hp := by cases hp
  answers r hr := by cases hr

/-- In every run in which no call of `progress` overlaps the beginning of an installation, each
answer tells what the process came to that it has looked at. -/
theorem reports_right (run : Run (Guarded (fun w e => apart w e = true)
    (Steps (Server.step lower))) Server.new es w) (hr : r ∈ w.answers) : w.Tells r := by
  have hright : w.Right :=
    run.invariant (fun _ _ _ hi hs => hi.step hs.1 (Server.step_cases hs.2)) right_new
  exact hright.answers r hr

/-- The first installation fails, and the second is begun when that has been told. -/
def inTurn : List Event :=
  [.install (.ok ()), .exits 0 1, .asked, .scans 0 ⟨[], [], [], []⟩, .looks 0, .answers 0,
    .install (.ok ()), .asked, .scans 1 ⟨[], [], [], []⟩, .looks 1, .answers 1]

theorem reports_right_inTurn : (exec (Server.step id) Server.new inTurn).Tells
    { proc := some 1, status := .running, pct := 8, stage := 0, lines := [], error := "" } :=
  reports_right (Run.of_exec_guarded (by decide +kernel)) (by decide +kernel)

/-- Where a call overlaps the beginning, the installation that has begun is at once told of with the
stage of the one before. -/
example : ∃ r ∈ (exec (Server.step id) Server.new (ended ++ .asked :: overlapping ++
    [.asked, .scans 1 ⟨[], [], [], []⟩, .looks 1, .answers 1])).answers,
    r.proc = some 1 ∧ r.status = .running ∧ r.pct = 100 := by
  decide +kernel

/-! ### One call at a time -/

/-- The stage that a call has come upon so far. -/
def Poll.reached : Poll → ℕ
  | .seen _ _ stage => stage
  | .scanned _ _ stage _ _ => stage
  | .ready r => r.stage
  | .over r => r.stage

/-- A call of `progress` begins when no other is under way, as one page asks for it. -/
def alone (w : Server) : Event → Bool
  | .install _ => w.polls.all Poll.isOver
  | .asked => w.polls.all Poll.isOver
  | _ => true

theorem apart_of_alone (h : alone w e = true) : apart w e = true := by
  cases e with
  | install => exact h
  | exits | asked | scans | looks | answers => rfl

/-- The stages told of a process only rise, up to that in `STATE`, from which a call that is under
way goes on. -/
structure Server.Rising (w : Server) : Prop where
  known : ∀ a ∈ w.answers, ∀ k, a.proc = some k → k < w.children.length
  below : ∀ a ∈ w.answers, ∀ k, a.proc = some k → w.state.proc = some k → a.stage ≤ w.state.stage
  above : ∀ (i : ℕ) (p : Poll), w.polls[i]? = some p → p.isOver = false → w.state.stage ≤ p.reached
  single : ∀ (i j : ℕ) (p q : Poll), w.polls[i]? = some p → w.polls[j]? = some q →
    p.isOver = false → q.isOver = false → i = j
  rises : w.answers.Pairwise (fun a b => ∀ k, a.proc = some k → b.proc = some k → a.stage ≤ b.stage)

theorem Server.put_before {p' : Poll} (hj : w.polls[j]? = some p) (hp : p.isOver = false)
    (hle : p.reached ≤ q.reached) (hi : (w.put j q).polls[i]? = some p') (hp' : p'.isOver = false) :
    ∃ p₀, w.polls[i]? = some p₀ ∧ p₀.isOver = false ∧ p₀.reached ≤ p'.reached := by
  by_cases hji : j = i
  · subst hji
    rw [put_self hj] at hi
    obtain rfl := Option.some.inj hi
    exact ⟨p, hj, hp, hle⟩
  · rw [put_other hji] at hi
    exact ⟨p', hi, hp', Nat.le_refl _⟩

theorem Server.Rising.put (hr : w.Rising) (hj : w.polls[j]? = some p) (hp : p.isOver = false)
    (hle : p.reached ≤ q.reached) : (w.put j q).Rising := by
  refine ⟨hr.known, hr.below, ?_, ?_, hr.rises⟩
  · intro i p' hi hp'
    obtain ⟨p₀, hi, hp₀, hstage⟩ := put_before hj hp hle hi hp'
    exact Nat.le_trans (hr.above i p₀ hi hp₀) hstage
  · intro i i' p' q' hi hi' hp' hq'
    obtain ⟨p₀, hi, hp₀, -⟩ := put_before hj hp hle hi hp'
    obtain ⟨q₀, hi', hq₀, -⟩ := put_before hj hp hle hi' hq'
    exact hr.single i i' p₀ q₀ hi hi' hp₀ hq₀

theorem Server.Fits.stage_le (hf : w.Fits proc error stage) : stage ≤ 4 := by
  rcases hf.stage with hle | ⟨rfl, -⟩
  · exact Nat.le_succ_of_le hle
  · exact Nat.le_refl 4

theorem judge_stage (hstage : stage ≤ 4) (c : Option ℤ) :
    stage ≤ (judge proc error stage pct lines c).stage := by
  cases c with
  | none => exact Nat.le_refl stage
  | some code =>
    by_cases hcode : code = 0
    · subst hcode
      exact hstage
    · rw [judge_failed hcode]

theorem over_of_all (hall : w.polls.all Poll.isOver = true) (hi : w.polls[i]? = some p) :
    p.isOver = true :=
  List.all_eq_true.mp hall p (List.mem_of_getElem? hi)

theorem Server.Rising.step (hr : w.Rising) (hright : w.Right) (hsole : w.Sole)
    (hok : alone w e = true) (h : Stepped lower w e w') : w'.Rising := by
  cases h with
  | refused => exact hr
  | begun =>
    refine ⟨fun a ha k hk => ?_, fun a ha k hk hnew => ?_, fun i p hi hp => ?_, hr.single, hr.rises⟩
    · have hlt := hr.known a ha k hk
      show k < (w.children ++ [none]).length
      rw [List.length_append]
      omega
    · have hlt := hr.known a ha k hk
      have hlen : w.children.length = k := Option.some.inj hnew
      omega
    · rw [over_of_all hok hi] at hp
      cases hp
  | @exits j code hj =>
    refine ⟨fun a ha k hk => ?_, hr.below, hr.above, hr.single, hr.rises⟩
    show k < (w.children.set j (some code)).length
    rw [List.length_set]
    exact hr.known a ha k hk
  | idle =>
    refine ⟨fun a ha k hk => ?_, fun a ha k hk hnow => ?_, hr.above, hr.single, ?_⟩
    · rcases List.mem_append.mp ha with ha | ha
      · exact hr.known a ha k hk
      · obtain rfl := List.mem_singleton.mp ha
        cases hk
    · rcases List.mem_append.mp ha with ha | ha
      · exact hr.below a ha k hk hnow
      · obtain rfl := List.mem_singleton.mp ha
        cases hk
    · refine List.pairwise_append.mpr ⟨hr.rises, List.pairwise_singleton _ _, ?_⟩
      intro a ha b hb k hk hbk
      obtain rfl := List.mem_singleton.mp hb
      cases hbk
  | asked =>
    -- every call before is over, so the new one is the only one that is under way
    have hnew : ∀ (i : ℕ) (p : Poll),
        (w.polls ++ [.seen w.state.proc w.state.error w.state.stage])[i]? = some p →
        p.isOver = false → i = w.polls.length ∧ p.reached = w.state.stage := by
      intro i p hi hp
      rcases Nat.lt_trichotomy i w.polls.length with hlt | rfl | hgt
      · rw [List.getElem?_append_left hlt] at hi
        rw [over_of_all hok hi] at hp
        cases hp
      · rw [List.getElem?_concat_length] at hi
        obtain rfl := Option.some.inj hi
        exact ⟨rfl, rfl⟩
      · rw [List.getElem?_eq_none (by rw [List.length_append, List.length_singleton]; omega)] at hi
        cases hi
    refine ⟨hr.known, hr.below, fun i p hi hp => ?_, fun i j p q hi hj hp hq => ?_, hr.rises⟩
    · exact Nat.le_of_eq (hnew i p hi hp).2.symm
    · exact (hnew i p hi hp).1.trans (hnew j q hj hq).1.symm
  | scans logs hi => exact hr.put hi rfl (Nat.le_max_left _ _)
  | looks hi =>
    obtain ⟨-, hfits, -⟩ := hright.polls _ (List.mem_of_getElem? hi)
    exact hr.put hi rfl (judge_stage hfits.stage_le _)
  | @answers j a hi =>
    obtain ⟨hproc, -⟩ := hright.polls _ (List.mem_of_getElem? hi)
    have hle : w.state.stage ≤ a.stage := hr.above j _ hi rfl
    have hover : ∀ (i : ℕ) (p : Poll), (w.put j (.over a)).polls[i]? = some p →
        p.isOver = true := by
      intro i p hp
      by_cases hji : j = i
      · subst hji
        rw [put_self hi] at hp
        obtain rfl := Option.some.inj hp
        rfl
      · rw [put_other hji] at hp
        by_contra hunder
        exact hji (hr.single j i _ p hi hp rfl (Bool.eq_false_iff.mpr hunder))
    refine ⟨fun b hb k hk => ?_, fun b hb k hk hnow => ?_, fun i p hp hunder => ?_,
      fun i i' p q hp hq hunder => ?_, ?_⟩
    · rcases List.mem_append.mp hb with hb | hb
      · exact hr.known b hb k hk
      · obtain rfl := List.mem_singleton.mp hb
        exact hsole.named k (hproc.symm.trans hk)
    · rcases List.mem_append.mp hb with hb | hb
      · exact Nat.le_trans (hr.below b hb k hk hnow) hle
      · obtain rfl := List.mem_singleton.mp hb
        exact Nat.le_refl _
    · rw [hover i p hp] at hunder
      cases hunder
    · rw [hover i p hp] at hunder
      cases hunder
    · refine List.pairwise_append.mpr ⟨hr.rises, List.pairwise_singleton _ _, ?_⟩
      intro b hb c hc k hk hck
      obtain rfl := List.mem_singleton.mp hc
      exact Nat.le_trans (hr.below b hb k hk (hproc.symm.trans hck)) hle

theorem rising_new : Server.new.Rising where
  known a ha := by cases ha
  below a ha := by cases ha
  above i p hi := by cases hi
  single i j p q hi := by cases hi
  rises := List.Pairwise.nil

theorem percent_mono (hj : j ≤ 4) (hij : i ≤ j) : percent i ≤ percent j := by
  have hall : ∀ j ≤ 4, ∀ i ≤ j, percent i ≤ percent j := by decide
  exact hall j hj i hij

theorem Server.Tells.percent (ht : w.Tells r) (hproc : r.proc = some k) :
    r.pct = Installer.percent r.stage ∧ r.stage ≤ 4 := by
  cases ht with
  | idle => cases hproc
  | running hstage => exact ⟨rfl, Nat.le_succ_of_le hstage⟩
  | done => exact ⟨rfl, Nat.le_refl 4⟩
  | failed _ _ hstage => exact ⟨rfl, Nat.le_succ_of_le hstage⟩

/-- In every run in which one call of `progress` is over before the next, and before an installation
is begun, neither the stage nor the percentage that is told of an installation ever falls. -/
theorem stages_rise (run : Run (Guarded (fun w e => alone w e = true)
    (Steps (Server.step lower))) Server.new es w) :
    w.answers.Pairwise (fun a b => ∀ k, a.proc = some k → b.proc = some k →
      a.stage ≤ b.stage ∧ a.pct ≤ b.pct) := by
  have hinv : w.Right ∧ w.Sole ∧ w.Rising := by
    refine run.invariant (I := fun w => w.Right ∧ w.Sole ∧ w.Rising) ?_
      ⟨right_new, sole_new, rising_new⟩
    rintro s a t ⟨hright, hsole, hrising⟩ ⟨hok, hstep⟩
    have hcase := Server.step_cases hstep
    exact ⟨hright.step (apart_of_alone hok) hcase, hsole.step hcase,
      hrising.step hright hsole hok hcase⟩
  obtain ⟨hright, -, hrising⟩ := hinv
  refine hrising.rises.imp_of_mem (fun ha hb hrise k hak hbk => ?_)
  have hle := hrise k hak hbk
  obtain ⟨hapct, -⟩ := (hright.answers _ ha).percent hak
  obtain ⟨hbpct, hlast⟩ := (hright.answers _ hb).percent hbk
  refine ⟨hle, ?_⟩
  rw [hapct, hbpct]
  exact percent_mono hlast hle

theorem stages_rise_inTurn : (exec (Server.step id) Server.new inTurn).answers.Pairwise
    (fun a b => ∀ k, a.proc = some k → b.proc = some k → a.stage ≤ b.stage ∧ a.pct ≤ b.pct) :=
  stages_rise (Run.of_exec_guarded (by decide +kernel))

end Pertisk.Installer
