import Pertisk.Lib.Pool

namespace Pertisk.Lib

/-- What a call that has changed the value still has to do. -/
inductive Phase (φ : Type)
  | changed
  | copied (content : φ) (version : ℕ)
  deriving DecidableEq

/-- A value in memory and the file that it is saved to. `past` are the values that the changes
replaced; the file is of the value that the memory had after `saved` changes. -/
structure Saving (σ φ : Type) where
  mem : σ
  file : φ
  past : List σ := []
  saved : ℕ := 0
  calls : Pool (Phase φ) := {}

namespace Saving

variable {σ φ : Type} {view : σ → φ} {first : Option φ} {s t : Saving σ φ} {i : ℕ}

/-- Before the first call, with what the file has by then. -/
def start (v : σ) (file : φ) : Saving σ φ := { mem := v, file := file }

/-- The values that the memory has had, the oldest first. -/
def values (s : Saving σ φ) : List σ := s.past ++ [s.mem]

/-- A call changes the value, and has yet to save it. -/
def change (f : σ → σ) (s : Saving σ φ) : Saving σ φ :=
  { s with mem := f s.mem, past := s.values, calls := s.calls.spawn .changed }

/-- Call `i` takes a copy of the value. -/
def copy (view : σ → φ) (i : ℕ) (s : Saving σ φ) : Option (Saving σ φ) :=
  match s.calls.get i with
  | some .changed => some { s with calls := s.calls.set i (.copied (view s.mem) s.past.length) }
  | _ => none

/-- Call `i` puts its copy into the file and returns. -/
def write (i : ℕ) (s : Saving σ φ) : Option (Saving σ φ) :=
  match s.calls.get i with
  | some (.copied content version) =>
    some { s with file := content, saved := version, calls := s.calls.drop i }
  | _ => none

/-- Call `i` cannot write the file and returns. -/
def fail (i : ℕ) (s : Saving σ φ) : Option (Saving σ φ) :=
  match s.calls.get i with
  | some (.copied _ _) => some { s with calls := s.calls.drop i }
  | _ => none

/-- Call `i` copies the value and writes it while no other call can do either. -/
def save (view : σ → φ) (i : ℕ) (s : Saving σ φ) : Option (Saving σ φ) :=
  match s.calls.get i with
  | some .changed =>
    some { s with file := view s.mem, saved := s.past.length, calls := s.calls.drop i }
  | _ => none

/-- The copy that call `i` has is no older than what is in the file. -/
def InOrder (s : Saving σ φ) (i : ℕ) : Prop :=
  ∀ content version, s.calls.get i = some (.copied content version) → s.saved ≤ version

/-- Every call has returned. -/
def Idle (s : Saving σ φ) : Prop := ∀ i, s.calls.get i = none

/-- The file, unless it is still the first one, and every copy are of a value that the memory has
had, and the changes of the calls that have returned are in the file. -/
structure Sound (view : σ → φ) (first : Option φ) (s : Saving σ φ) : Prop where
  count : s.past.length = s.calls.next
  file : (s.saved = 0 ∧ first = some s.file) ∨ s.values[s.saved]?.map view = some s.file
  copies : ∀ i content version, s.calls.get i = some (.copied content version) →
    i < version ∧ s.values[version]?.map view = some content
  returned : ∀ i, i < s.calls.next → s.calls.get i = none → i < s.saved

theorem sound_start {v : σ} {file : φ} (h : first = some file ∨ file = view v) :
    (start v file).Sound view first where
  count := rfl
  file := h.imp (fun hfirst => ⟨rfl, hfirst⟩) (fun hview => congrArg some hview.symm)
  copies i _ _ h := absurd (Pool.lt_of_get h) (Nat.not_lt_zero i)
  returned i h _ := absurd h (Nat.not_lt_zero i)

theorem values_length : s.values.length = s.past.length + 1 := List.length_append

theorem values_now : s.values[s.past.length]? = some s.mem := List.getElem?_concat_length

theorem values_change {f : σ → σ} {k : ℕ} {content : φ}
    (h : s.values[k]?.map view = some content) :
    (s.change f).values[k]?.map view = some content := by
  obtain ⟨value, hvalue, hview⟩ := Option.map_eq_some_iff.mp h
  have hlt : k < s.values.length := (List.getElem?_eq_some_iff.mp hvalue).1
  change (s.values ++ [f s.mem])[k]?.map view = some content
  rw [List.getElem?_append_left hlt]
  exact h

theorem Sound.change (hs : s.Sound view first) (f : σ → σ) : (s.change f).Sound view first := by
  refine ⟨?_, hs.file.imp_right values_change, ?_, ?_⟩
  · exact values_length.trans ((congrArg (· + 1) hs.count).trans Pool.next_spawn.symm)
  · intro i content version h
    rcases Pool.of_get_spawn h with ⟨_, hnew⟩ | ⟨_, hold⟩
    · cases hnew
    · obtain ⟨hlt, hvalue⟩ := hs.copies i content version hold
      exact ⟨hlt, values_change hvalue⟩
  · intro i hi h
    have hget : (s.calls.spawn .changed).get i = none := h
    rw [Pool.get_spawn] at hget
    split at hget
    · cases hget
    · rename_i hne
      have hlt : i < s.calls.next + 1 := Pool.next_spawn ▸ hi
      exact hs.returned i (by omega) hget

theorem Sound.copy (hs : s.Sound view first) (h : s.copy view i = some t) : t.Sound view first := by
  unfold Saving.copy at h
  split at h
  · rename_i hi
    cases h
    have hlt : i < s.calls.next := Pool.lt_of_get hi
    refine ⟨hs.count.trans Pool.next_set.symm, hs.file, ?_, ?_⟩
    · intro j content version hj
      rcases Pool.of_get_set hi hj with ⟨rfl, hnew⟩ | ⟨_, hold⟩
      · cases hnew
        exact ⟨hs.count ▸ hlt, congrArg (Option.map view) values_now⟩
      · exact hs.copies j content version hold
    · intro j hj hnone
      have hget : (s.calls.set i (.copied (view s.mem) s.past.length)).get j = none := hnone
      rw [Pool.get_set hi] at hget
      split at hget
      · cases hget
      · exact hs.returned j (Pool.next_set ▸ hj) hget
  · cases h

/-- A call that has returned is an earlier one, or the one that returns now. -/
theorem returned_drop {j : ℕ} (hj : j < (s.calls.drop i).next)
    (h : (s.calls.drop i).get j = none) :
    j = i ∨ (j < s.calls.next ∧ s.calls.get j = none) := by
  rw [Pool.get_drop] at h
  split at h
  · exact .inl ‹_›
  · exact .inr ⟨Pool.next_drop ▸ hj, h⟩

theorem Sound.write (hs : s.Sound view first) (hi : s.InOrder i) (h : s.write i = some t) :
    t.Sound view first := by
  unfold Saving.write at h
  split at h
  · rename_i content version hget
    cases h
    obtain ⟨hlt, hvalue⟩ := hs.copies i content version hget
    refine ⟨hs.count.trans Pool.next_drop.symm, .inr hvalue, ?_, ?_⟩
    · intro j c v hj
      exact hs.copies j c v (Pool.of_get_drop hj).2
    · intro j hj hnone
      rcases returned_drop hj hnone with rfl | ⟨hold, hgone⟩
      · exact hlt
      · exact Nat.lt_of_lt_of_le (hs.returned j hold hgone) (hi content version hget)
  · cases h

theorem Sound.saved_le (hs : s.Sound view first) : s.saved ≤ s.past.length := by
  rcases hs.file with ⟨hzero, _⟩ | hfile
  · omega
  · obtain ⟨value, hvalue, _⟩ := Option.map_eq_some_iff.mp hfile
    have hlt : s.saved < s.values.length := (List.getElem?_eq_some_iff.mp hvalue).1
    rw [values_length] at hlt
    omega

theorem Sound.save (hs : s.Sound view first) (h : s.save view i = some t) : t.Sound view first := by
  unfold Saving.save at h
  split at h
  · rename_i hget
    cases h
    have hlt : i < s.past.length := hs.count ▸ Pool.lt_of_get hget
    have hfile := congrArg (Option.map view) (values_now (s := s))
    refine ⟨hs.count.trans Pool.next_drop.symm, .inr hfile, ?_, ?_⟩
    · intro j c v hj
      exact hs.copies j c v (Pool.of_get_drop hj).2
    · intro j hj hnone
      rcases returned_drop hj hnone with rfl | ⟨hold, hgone⟩
      · exact hlt
      · exact Nat.lt_of_lt_of_le (hs.returned j hold hgone) hs.saved_le
  · cases h

theorem Sound.saved_of_idle (hs : s.Sound view first) (hidle : s.Idle) :
    s.saved = s.past.length := by
  refine Nat.le_antisymm hs.saved_le ?_
  rw [hs.count]
  by_contra hlt
  have hlast := hs.returned s.saved (by omega) (hidle s.saved)
  omega

/-- Saving leaves the memory as it is. -/
theorem same_of_save (h : s.save view i = some t) : t.mem = s.mem ∧ t.past = s.past := by
  unfold Saving.save at h
  split at h <;> cases h
  exact ⟨rfl, rfl⟩

/-- When every call has returned, the file is of the value in memory, or was never written. -/
theorem Sound.file_of_idle (hs : s.Sound view first) (hidle : s.Idle) :
    (s.calls.next = 0 ∧ first = some s.file) ∨ s.file = view s.mem := by
  have hsaved := hs.saved_of_idle hidle
  rcases hs.file with ⟨hzero, hfirst⟩ | hfile
  · exact .inl ⟨hs.count ▸ hsaved ▸ hzero, hfirst⟩
  · rw [hsaved, values_now] at hfile
    exact .inr (Option.some.inj hfile).symm

end Saving

end Pertisk.Lib
