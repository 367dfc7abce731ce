import Pertisk.Lib.Image

namespace Pertisk.Lib

/-- One end of a bounded broadcast channel: the number of messages that had been sent when it
joined, the number of the next one it is to be given, and how many it was told it has missed. -/
structure Receiver where
  first : ℕ
  next : ℕ
  skipped : ℕ
  deriving DecidableEq, Repr

/-- What a receiver is given. -/
inductive Received (α : Type)
  | message (a : α)
  | lagged (missed : ℕ)
  | empty
  deriving DecidableEq

namespace Receiver

variable {α : Type} {sent : List α} {got : List α} {r r' : Receiver} {capacity : ℕ} {a : α}

def joined (sent : List α) : Receiver :=
  { first := sent.length, next := sent.length, skipped := 0 }

/-- The channel keeps its last messages; one that is further behind goes on with the oldest that is
kept, and is told so. -/
def recv (capacity : ℕ) (sent : List α) (r : Receiver) : Received α × Receiver :=
  if capacity < sent.length - r.next then
    let missed := sent.length - capacity - r.next
    (.lagged missed, { r with next := r.next + missed, skipped := r.skipped + missed })
  else
    match sent[r.next]? with
    | some a => (.message a, { r with next := r.next + 1 })
    | none => (.empty, r)

/-- What was sent since it joined, up to where it is. -/
def span (sent : List α) (r : Receiver) : List α := slice sent r.first (r.next - r.first)

/-- It was given messages of its span in their order, each once, all but those it was told of. -/
structure Heard (sent : List α) (r : Receiver) (got : List α) : Prop where
  ordered : r.first ≤ r.next
  inside : r.next ≤ sent.length
  sublist : got.Sublist (r.span sent)
  counted : got.length + r.skipped = r.next - r.first

theorem heard_joined (sent : List α) : Heard sent (joined sent) [] where
  ordered := Nat.le_refl _
  inside := Nat.le_refl _
  sublist := List.nil_sublist _
  counted := by simp [joined]

theorem span_append (more : List α) (h : r.next ≤ sent.length) (hle : r.first ≤ r.next) :
    r.span (sent ++ more) = r.span sent :=
  slice_append_left (by omega)

/-- Sending changes nothing in what a receiver was given so far. -/
theorem Heard.send (more : List α) (h : Heard sent r got) : Heard (sent ++ more) r got where
  ordered := h.ordered
  inside := by
    rw [List.length_append]
    exact Nat.le_trans h.inside (Nat.le_add_right _ _)
  sublist := by
    rw [span_append more h.inside h.ordered]
    exact h.sublist
  counted := h.counted

theorem span_advance {n : ℕ} (hle : r.first ≤ r.next) :
    slice sent r.first (r.next + n - r.first) = r.span sent ++ slice sent r.next n := by
  unfold span
  have hsum : r.next + n - r.first = (r.next - r.first) + n := by omega
  have hat : r.first + (r.next - r.first) = r.next := by omega
  rw [hsum, slice_add, hat]

theorem recv_message (h : recv capacity sent r = (.message a, r')) :
    sent[r.next]? = some a ∧ r' = { r with next := r.next + 1 } := by
  unfold recv at h
  split at h
  · cases h
  · cases hat : sent[r.next]? with
    | none =>
      rw [hat] at h
      cases h
    | some b =>
      rw [hat] at h
      cases h
      exact ⟨rfl, rfl⟩

theorem recv_lagged {missed : ℕ} (h : recv capacity sent r = (.lagged missed, r')) :
    capacity < sent.length - r.next ∧ missed = sent.length - capacity - r.next ∧
      r' = { r with next := r.next + missed, skipped := r.skipped + missed } := by
  unfold recv at h
  split at h
  · next hlag =>
    cases h
    exact ⟨hlag, rfl, rfl⟩
  · cases hat : sent[r.next]? <;> rw [hat] at h <;> cases h

theorem Heard.message (h : Heard sent r got) (hrecv : recv capacity sent r = (.message a, r')) :
    Heard sent r' (got ++ [a]) := by
  obtain ⟨hat, rfl⟩ := recv_message hrecv
  obtain ⟨hlt, -⟩ := List.getElem?_eq_some_iff.mp hat
  have hspan : span sent { r with next := r.next + 1 } = r.span sent ++ [a] := by
    have hone : slice sent r.next 1 = [a] := by
      unfold slice
      rw [List.drop_eq_getElem?_toList_append, hat]
      rfl
    rw [← hone]
    exact span_advance h.ordered
  refine ⟨Nat.le_succ_of_le h.ordered, hlt, ?_, ?_⟩
  · rw [hspan]
    exact h.sublist.append (List.Sublist.refl _)
  · have hcount := h.counted
    have hle := h.ordered
    rw [List.length_append, List.length_singleton]
    show got.length + 1 + r.skipped = r.next + 1 - r.first
    omega

theorem Heard.lagged {missed : ℕ} (h : Heard sent r got)
    (hrecv : recv capacity sent r = (.lagged missed, r')) : Heard sent r' got := by
  obtain ⟨hlag, hmissed, rfl⟩ := recv_lagged hrecv
  have hle := h.ordered
  have hcount := h.counted
  refine ⟨?_, ?_, ?_, ?_⟩
  · show r.first ≤ r.next + missed
    omega
  · show r.next + missed ≤ sent.length
    omega
  · have hspan : span sent { r with next := r.next + missed, skipped := r.skipped + missed } =
        r.span sent ++ slice sent r.next missed := span_advance h.ordered
    rw [hspan]
    exact h.sublist.trans (List.sublist_append_left _ _)
  · show got.length + (r.skipped + missed) = r.next + missed - r.first
    omega

/-- One that was never told of missed messages was given all of them. -/
theorem Heard.all (h : Heard sent r got) (hall : r.skipped = 0) : got = r.span sent := by
  refine h.sublist.eq_of_length ?_
  have hle := h.ordered
  have hsent := h.inside
  have hcount := h.counted
  unfold span
  rw [length_slice (by omega)]
  omega

end Receiver

end Pertisk.Lib
