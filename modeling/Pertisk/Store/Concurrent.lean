import Pertisk.Store.Writes
import Mathlib.Data.List.Induction
import Pertisk.Lib.Saving
import Pertisk.Lib.Run

namespace Pertisk.Store
open Lib

/-- The store of a running daemon. `log` are the writes of the calls in the order in which they
held the lock; call `k` made the `k`th. -/
structure Served where
  saving : Saving Vms (Option Json)
  log : List Write := []

/-- A call holds the lock for its change, and later once more to write the file. -/
inductive Act
  | call (op : Op)
  | flush (i : ℕ)

def opened (start : Vms) (found : Option Json) : Served where
  saving := .start start found

/-- The map after the writes. -/
def runAll (start : Vms) (log : List Write) : Vms := log.foldl Write.run start

/-- The last write that decides what is under the id. -/
def lastWrite (log : List Write) (id : VmId) : Option Write :=
  log.reverse.find? (fun w => w.Touches id)

/-- Each write is what a call may do to the map that the earlier ones leave. -/
inductive Allowed (start : Vms) : List Write → Prop
  | nil : Allowed start []
  | snoc {log : List Write} {op : Op} {w : Write} (hlog : Allowed start log) (hnamed : op.Named)
      (hw : resolve (runAll start log) op = .ok w) : Allowed start (log ++ [w])

section store
variable (u : UuidCrate) (path : Codec PathBuf)

/-- What a write of the file puts into it. -/
def fileOf (m : Vms) : Option Json := some (flush u path m)

/-- A call whose checks refuse it returns at once. -/
def step (s : Served) : Act → Option Served
  | .call op =>
    match resolve s.saving.mem op with
    | .ok w => some { saving := s.saving.change (fun m => w.run m), log := s.log ++ [w] }
    | .error _ => some s
  | .flush i => (s.saving.save (fileOf u path) i).map (fun saving => { s with saving := saving })

end store

variable {u : UuidCrate} {path : Codec PathBuf} {start : Vms} {found : Option Json}
  {log : List Write} {w : Write} {id : VmId} {s t : Served}

theorem runAll_snoc : runAll start (log ++ [w]) = w.run (runAll start log) := by
  rw [runAll, List.foldl_append]
  rfl

theorem lastWrite_snoc :
    lastWrite (log ++ [w]) id = if w.Touches id then some w else lastWrite log id := by
  unfold lastWrite
  rw [List.reverse_append, List.reverse_singleton, List.singleton_append, List.find?_cons]
  by_cases h : w.Touches id <;> simp [h]

/-- What is under an id is what the last write on it left. -/
theorem get_runAll (start : Vms) (log : List Write) (id : VmId) :
    (runAll start log).get id = match lastWrite log id with
      | some w => w.leaves id
      | none => start.get id := by
  induction log using List.reverseRecOn with
  | nil => rfl
  | append_singleton log w ih =>
    rw [runAll_snoc, lastWrite_snoc]
    by_cases h : w.Touches id
    · rw [if_pos h]
      exact Write.get_run h
    · rw [if_neg h, Write.get_run_other h]
      exact ih

/-- The guest that an insertion adds has another name than each that is there by an insertion. -/
theorem Allowed.names (h : Allowed start log) {id₁ id₂ key₁ key₂ : VmId} {r₁ r₂ : VmRecord}
    (h₁ : lastWrite log id₁ = some (.insert key₁ r₁))
    (h₂ : lastWrite log id₂ = some (.insert key₂ r₂)) (hne : id₁ ≠ id₂) :
    r₁.spec.name ≠ r₂.spec.name := by
  induction h generalizing id₁ id₂ key₁ key₂ r₁ r₂ with
  | nil => cases h₁
  | @snoc log op w hlog hnamed hw ih =>
    have hold : ∀ {id key : VmId} {r r' : VmRecord} {k : VmId},
        lastWrite log id = some (.insert key r) → w = .insert k r' →
          r.spec.name ≠ r'.spec.name := by
      intro id key r r' k hlast hinsert
      have hget := get_runAll start log id
      rw [hlast] at hget
      exact resolve_insert hnamed (hinsert ▸ hw) _ (Table.mem_of_get hget)
    rw [lastWrite_snoc] at h₁ h₂
    split at h₁
    · rename_i ht₁
      have hw₁ := Option.some.inj h₁
      split at h₂
      · rename_i ht₂
        rw [hw₁] at ht₁ ht₂
        exact absurd (Eq.trans (Eq.symm ht₁) ht₂) hne
      · exact (hold h₂ hw₁).symm
    · split at h₂
      · exact hold h₁ (Option.some.inj h₂)
      · exact ih h₁ h₂ hne

/-- The calls that hold the lock one after the other leave what a sequence of them leaves, and the
file follows. -/
structure Ordered (u : UuidCrate) (path : Codec PathBuf) (start : Vms) (found : Option Json)
    (s : Served) : Prop where
  sound : s.saving.Sound (fileOf u path) (some found)
  count : s.saving.past.length = s.log.length
  values : ∀ k, k ≤ s.log.length → s.saving.values[k]? = some (runAll start (s.log.take k))
  allowed : Allowed start s.log

theorem ordered_opened : Ordered u path start found (opened start found) where
  sound := Saving.sound_start (.inl rfl)
  count := rfl
  values k hk := by
    rw [Nat.le_zero.mp hk]
    rfl
  allowed := .nil

theorem Ordered.mem (h : Ordered u path start found s) : s.saving.mem = runAll start s.log := by
  have hnow := h.values s.log.length (Nat.le_refl _)
  rw [← h.count, Saving.values_now, h.count, List.take_length] at hnow
  exact Option.some.inj hnow

theorem Ordered.call {op : Op} (h : Ordered u path start found s) (hnamed : op.Named)
    (hw : resolve s.saving.mem op = .ok w) :
    Ordered u path start found
      { saving := s.saving.change (fun m => w.run m), log := s.log ++ [w] } where
  sound := h.sound.change (fun m => w.run m)
  count := by
    change s.saving.values.length = (s.log ++ [w]).length
    rw [Saving.values_length, h.count, List.length_append, List.length_singleton]
  values k hk := by
    have hlen : s.saving.values.length = s.log.length + 1 :=
      Saving.values_length.trans (congrArg (· + 1) h.count)
    change (s.saving.values ++ [w.run s.saving.mem])[k]? = _
    rcases Nat.lt_or_ge s.log.length k with hlast | hold
    · have hk' : k = s.saving.values.length := by
        rw [List.length_append, List.length_singleton] at hk
        omega
      have htake : (s.log ++ [w]).take k = s.log ++ [w] := List.take_of_length_le (by simp; omega)
      rw [htake, hk', List.getElem?_concat_length, runAll_snoc, h.mem]
    · rw [List.getElem?_append_left (by omega), List.take_append_of_le_length hold]
      exact h.values k hold
  allowed := .snoc h.allowed hnamed (h.mem ▸ hw)

theorem Ordered.flush {i : ℕ} {saving : Saving Vms (Option Json)}
    (h : Ordered u path start found s) (hsave : s.saving.save (fileOf u path) i = some saving) :
    Ordered u path start found { s with saving := saving } := by
  have hsound := h.sound.save hsave
  obtain ⟨hmem, hpast⟩ := Saving.same_of_save hsave
  refine ⟨hsound, ?_, ?_, h.allowed⟩
  · rw [hpast]
    exact h.count
  · intro k hk
    have hvalues : saving.values = s.saving.values := by rw [Saving.values, hmem, hpast]; rfl
    change saving.values[k]? = _
    rw [hvalues]
    exact h.values k hk

theorem Ordered.step {a : Act} (h : Ordered u path start found s)
    (hnamed : ∀ op, a = .call op → op.Named) (hstep : Store.step u path s a = some t) :
    Ordered u path start found t := by
  cases a with
  | call op =>
    unfold Store.step at hstep
    dsimp only at hstep
    split at hstep
    · cases hstep
      exact h.call (hnamed op rfl) ‹_›
    · cases hstep
      exact h
  | flush i =>
    obtain ⟨saving, hsave, rfl⟩ := Option.map_eq_some_iff.mp hstep
    exact h.flush hsave

/-- What a store that was opened on the file `found` promises the callers. -/
structure Linear (u : UuidCrate) (path : Codec PathBuf) (found : Option Json) (s : Served) :
    Prop where
  order : Allowed (openFile u path found) s.log ∧
    s.saving.mem = runAll (openFile u path found) s.log
  kept : ∀ id, s.saving.mem.get id = match lastWrite s.log id with
    | some w => w.leaves id
    | none => (openFile u path found).get id
  names : ∀ id₁ id₂ key₁ key₂ r₁ r₂, lastWrite s.log id₁ = some (.insert key₁ r₁) →
    lastWrite s.log id₂ = some (.insert key₂ r₂) → id₁ ≠ id₂ → r₁.spec.name ≠ r₂.spec.name
  durable : ∀ i, i < s.log.length → s.saving.calls.get i = none →
    ∃ n, i < n ∧ n ≤ s.log.length ∧
      s.saving.file = fileOf u path (runAll (openFile u path found) (s.log.take n))
  file : s.saving.Idle →
    s.saving.file = fileOf u path s.saving.mem ∨ (s.log = [] ∧ s.saving.file = found)

theorem Ordered.durable {i : ℕ} (h : Ordered u path start found s) (hi : i < s.log.length)
    (hgone : s.saving.calls.get i = none) :
    ∃ n, i < n ∧ n ≤ s.log.length ∧
      s.saving.file = fileOf u path (runAll start (s.log.take n)) := by
  have hnext : i < s.saving.calls.next := h.sound.count ▸ h.count ▸ hi
  have hlt := h.sound.returned i hnext hgone
  have hle : s.saving.saved ≤ s.log.length := h.count ▸ h.sound.saved_le
  refine ⟨s.saving.saved, hlt, hle, ?_⟩
  rcases h.sound.file with ⟨hzero, _⟩ | hfile
  · omega
  · rw [h.values _ hle] at hfile
    exact (Option.some.inj hfile).symm

theorem Ordered.linear (h : Ordered u path (openFile u path found) found s) :
    Linear u path found s where
  order := ⟨h.allowed, h.mem⟩
  kept id := h.mem ▸ get_runAll _ _ _
  names _ _ _ _ _ _ h₁ h₂ hne := h.allowed.names h₁ h₂ hne
  durable _ hi hgone := h.durable hi hgone
  file hidle := by
    rcases h.sound.file_of_idle hidle with ⟨hnone, hfile⟩ | hfile
    · have hlen : s.log.length = 0 := by rw [← h.count, h.sound.count, hnone]
      exact .inr ⟨List.length_eq_zero_iff.mp hlen, (Option.some.inj hfile).symm⟩
    · exact .inl hfile

/-- Two guests are inserted at once, and the second call writes the file first. -/
def overlapping : List Act :=
  [.call (.insertUnique none "web" plainGuest 0), .call (.upsert (plainGuest (.numeric 200))),
    .flush 1, .flush 0]

end Pertisk.Store
