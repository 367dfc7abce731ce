import Mathlib.Data.List.Basic

namespace Pertisk.Lib

variable {α : Type} {buf bs : List α} {off n o : ℕ}

/-- The elements of a buffer from a place on. -/
def slice (buf : List α) (off n : ℕ) : List α := (buf.drop off).take n

/-- Write over what stands at a place. -/
def splice (buf : List α) (off : ℕ) (bs : List α) : List α :=
  buf.take off ++ bs ++ buf.drop (off + bs.length)

/-- A copy into a buffer, which must be long enough for it. -/
def put (buf : List α) (off : ℕ) (bs : List α) : Option (List α) :=
  if off + bs.length ≤ buf.length then some (splice buf off bs) else none

theorem length_slice (h : off + n ≤ buf.length) : (slice buf off n).length = n := by
  unfold slice
  rw [List.length_take, List.length_drop]
  omega

theorem getElem?_slice (i : ℕ) : (slice buf off n)[i]? = if i < n then buf[off + i]? else none := by
  unfold slice
  rw [List.getElem?_take, List.getElem?_drop]

theorem length_splice (h : off + bs.length ≤ buf.length) :
    (splice buf off bs).length = buf.length := by
  unfold splice
  rw [List.length_append, List.length_append, List.length_take, List.length_drop]
  omega

theorem splice_end : splice buf buf.length bs = buf ++ bs := by
  unfold splice
  rw [List.take_length, List.drop_eq_nil_of_le (Nat.le_add_right _ _), List.append_nil]

theorem splice_nil : splice [] 0 bs = bs := splice_end

theorem getElem?_splice (h : off ≤ buf.length) (i : ℕ) : (splice buf off bs)[i]? =
    if off ≤ i ∧ i < off + bs.length then bs[i - off]? else buf[i]? := by
  have hlen : (buf.take off).length = off := by
    rw [List.length_take]
    omega
  unfold splice
  rw [List.append_assoc]
  by_cases hbefore : i < off
  · rw [List.getElem?_append_left (by omega), List.getElem?_take_of_lt hbefore,
      if_neg (by omega)]
  · rw [List.getElem?_append_right (by omega), hlen]
    by_cases hin : i < off + bs.length
    · rw [List.getElem?_append_left (by omega), if_pos ⟨by omega, hin⟩]
    · rw [List.getElem?_append_right (by omega), List.getElem?_drop, if_neg (by omega)]
      congr 1
      omega

theorem slice_splice_self (h : off ≤ buf.length) : slice (splice buf off bs) off bs.length = bs := by
  refine List.ext_getElem? (fun i => ?_)
  rw [getElem?_slice, getElem?_splice h]
  by_cases hi : i < bs.length
  · rw [if_pos hi, if_pos (by omega), Nat.add_sub_cancel_left]
  · rw [if_neg hi, List.getElem?_eq_none (by omega)]

/-- What stands elsewhere stays. -/
theorem slice_splice_of_disjoint (h : off ≤ buf.length) (hapart : o + n ≤ off ∨ off + bs.length ≤ o) :
    slice (splice buf off bs) o n = slice buf o n := by
  refine List.ext_getElem? (fun i => ?_)
  rw [getElem?_slice, getElem?_slice]
  split
  · rw [getElem?_splice h, if_neg (by omega)]
  · rfl

/-- A part of what was written. -/
theorem slice_splice_inner (h : off ≤ buf.length) (hin : o + n ≤ bs.length) :
    slice (splice buf off bs) (off + o) n = slice bs o n := by
  refine List.ext_getElem? (fun i => ?_)
  rw [getElem?_slice, getElem?_slice]
  split
  · rw [getElem?_splice h, if_pos (by omega)]
    congr 1
    omega
  · rfl

theorem slice_replicate {a : α} {len : ℕ} (h : o + n ≤ len) :
    slice (List.replicate len a) o n = List.replicate n a := by
  unfold slice
  rw [List.drop_replicate, List.take_replicate, Nat.min_eq_left (by omega)]

theorem slice_append_left {more : List α} (h : o + n ≤ buf.length) :
    slice (buf ++ more) o n = slice buf o n := by
  unfold slice
  rw [List.drop_append_of_le_length (by omega), List.take_append_of_le_length]
  rw [List.length_drop]
  omega

theorem slice_append_right {more : List α} :
    slice (buf ++ more) (buf.length + o) n = slice more o n := by
  unfold slice
  rw [← List.drop_drop, List.drop_left]

theorem slice_slice {m : ℕ} (h : o + m ≤ n) : slice (slice buf off n) o m = slice buf (off + o) m := by
  unfold slice
  rw [List.drop_take, List.take_take, List.drop_drop, Nat.min_eq_left (by omega)]

theorem slice_add {m : ℕ} : slice buf off (n + m) = slice buf off n ++ slice buf (off + n) m := by
  unfold slice
  rw [List.take_add, List.drop_drop]

/-- Writes, each with its place. -/
def splices (buf : List α) (ws : List (ℕ × List α)) : List α :=
  ws.foldl (fun buf w => splice buf w.1 w.2) buf

/-- Copies, each of which must be within the buffer. -/
def putAll (buf : List α) (ws : List (ℕ × List α)) : Option (List α) :=
  ws.foldlM (fun buf w => put buf w.1 w.2) buf

/-- The writes follow each other between two places, each with the room that it is given. -/
def Laid (room : List α → ℕ) : ℕ → List (ℕ × List α) → ℕ → Prop
  | lo, [], hi => lo ≤ hi
  | lo, w :: ws, hi => lo ≤ w.1 ∧ Laid room (w.1 + room w.2) ws hi

section
variable {room : List α → ℕ} {lo mid hi : ℕ} {ws vs : List (ℕ × List α)} {w : ℕ × List α}

theorem Laid.le (h : Laid room lo ws hi) : lo ≤ hi := by
  induction ws generalizing lo with
  | nil => exact h
  | cons w ws ih =>
    obtain ⟨hle, hrest⟩ := h
    exact Nat.le_trans (Nat.le_add_right_of_le hle) (ih hrest)

theorem Laid.append (h : Laid room lo ws mid) (h' : Laid room mid vs hi) :
    Laid room lo (ws ++ vs) hi := by
  induction ws generalizing lo with
  | nil =>
    cases vs with
    | nil => exact Nat.le_trans h h'
    | cons v vs => exact ⟨Nat.le_trans h h'.1, h'.2⟩
  | cons w ws ih => exact ⟨h.1, ih h.2⟩

theorem Laid.of_mem (h : Laid room lo ws hi) (hw : w ∈ ws) : lo ≤ w.1 ∧ w.1 + room w.2 ≤ hi := by
  induction ws generalizing lo with
  | nil => cases hw
  | cons v ws ih =>
    obtain ⟨hle, hrest⟩ := h
    rcases List.mem_cons.mp hw with rfl | hw
    · exact ⟨hle, hrest.le⟩
    · obtain ⟨hlo, hhi⟩ := ih hrest hw
      exact ⟨by omega, hhi⟩

/-- Of writes that follow each other each stands in its room, and what was behind it there or before
the first one still does. -/
theorem splices_laid (hroom : ∀ bs, bs.length ≤ room bs) (h : Laid room lo ws hi)
    (hend : hi ≤ buf.length) : (splices buf ws).length = buf.length ∧
      (∀ o n, o + n ≤ lo → slice (splices buf ws) o n = slice buf o n) ∧
        ∀ w ∈ ws, slice (splices buf ws) w.1 (room w.2) =
          w.2 ++ slice buf (w.1 + w.2.length) (room w.2 - w.2.length) := by
  induction ws generalizing lo buf with
  | nil => exact ⟨rfl, fun o n _ => rfl, nofun⟩
  | cons w ws ih =>
    obtain ⟨hle, hrest⟩ := h
    have hfits := hroom w.2
    have hhi := hrest.le
    have hlen : (splice buf w.1 w.2).length = buf.length := length_splice (by omega)
    obtain ⟨hsame, hbefore, hin⟩ := @ih (splice buf w.1 w.2) _ hrest (by omega)
    have hcons : splices buf (w :: ws) = splices (splice buf w.1 w.2) ws := rfl
    rw [hcons]
    refine ⟨hsame.trans hlen, fun o n ho => ?_, fun v hv => ?_⟩
    · rw [hbefore o n (by omega), slice_splice_of_disjoint (by omega) (.inl (by omega))]
    · rcases List.mem_cons.mp hv with rfl | hv
      · have hsplit : room v.2 = v.2.length + (room v.2 - v.2.length) := by omega
        rw [hbefore _ _ (Nat.le_refl _), hsplit, slice_add, slice_splice_self (by omega),
          slice_splice_of_disjoint (by omega) (.inr (by omega)), Nat.add_sub_cancel_left]
      · have hvlo := (hrest.of_mem hv).1
        rw [hin v hv, slice_splice_of_disjoint (by omega) (.inr (by omega))]

/-- Copies that follow each other all succeed. -/
theorem putAll_laid (hroom : ∀ bs, bs.length ≤ room bs) (h : Laid room lo ws hi)
    (hend : hi ≤ buf.length) : putAll buf ws = some (splices buf ws) := by
  induction ws generalizing lo buf with
  | nil => rfl
  | cons w ws ih =>
    obtain ⟨hle, hrest⟩ := h
    have hfits := hroom w.2
    have hhi := hrest.le
    have hlen : (splice buf w.1 w.2).length = buf.length := length_splice (by omega)
    have hput : put buf w.1 w.2 = some (splice buf w.1 w.2) := if_pos (by omega)
    have hnext := @ih (splice buf w.1 w.2) _ hrest (by omega)
    unfold putAll at hnext ⊢
    rw [List.foldlM_cons, hput]
    exact hnext

/-- With no more room than they need, writes that follow each other can all be read. -/
theorem splices_read (h : Laid List.length lo ws hi) (hend : hi ≤ buf.length) :
    ∀ w ∈ ws, slice (splices buf ws) w.1 w.2.length = w.2 := by
  intro w hw
  obtain ⟨-, -, hin⟩ := splices_laid (fun bs => Nat.le_refl bs.length) h hend
  have hread := hin w hw
  rw [Nat.sub_self] at hread
  rw [hread]
  exact List.append_nil w.2

end

end Pertisk.Lib
