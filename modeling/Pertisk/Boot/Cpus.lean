import Pertisk.Boot.Launch
import Pertisk.Lib.Text

namespace Pertisk.Boot
open Lib

/-- `Vec::dedup`: of neighbours that are the same one is kept. -/
def dedup : List UInt32 → List UInt32
  | a :: b :: rest => if a = b then dedup (b :: rest) else a :: dedup (b :: rest)
  | cpus => cpus

/-- `prev + 1`, which panics past the last number. -/
def next (prev : UInt32) : Option UInt32 :=
  if prev.toNat + 1 < UInt32.size then some (prev + 1) else none

/-- The runs of ascending numbers; `start` to `prev` is the one that is open. -/
def runsFrom (start prev : UInt32) : List UInt32 → Option (List (UInt32 × UInt32))
  | [] => some [(start, prev)]
  | cpu :: rest => do
    let after ← next prev
    if cpu = after then runsFrom start cpu rest
    else do
      let runs ← runsFrom cpu cpu rest
      return (start, prev) :: runs

def cpuRuns (cpus : List UInt32) : Option (List (UInt32 × UInt32)) :=
  match dedup (cpus.mergeSort (· ≤ ·)) with
  | [] => some []
  | first :: rest => runsFrom first first rest

def asRange (run : UInt32 × UInt32) : ℕ × ℕ := (run.1.toNat, run.2.toNat)

/-- The text that `taskset -c` gets, unless an increment overflows on the way. -/
def compactCpuList (cpus : List UInt32) : Option String :=
  (cpuRuns cpus).map (fun runs => Host.compactCpuList (runs.map asRange))

/-! ### What a list of CPUs denotes -/

/-- `n`, or `n-m`. -/
def readRange (field : List Char) : Option (ℕ × ℕ) :=
  match field.splitOn '-' with
  | [n] => (decimal n).map (fun n => (n, n))
  | [n, m] => do return (← decimal n, ← decimal m)
  | _ => none

def readCpuList (text : String) : Option (List (ℕ × ℕ)) :=
  if text.isEmpty then some [] else (text.toList.splitOn ',').mapM readRange

/-- Ascending ranges, with a gap between any two. -/
structure Maximal (ranges : List (ℕ × ℕ)) : Prop where
  range : ∀ r ∈ ranges, r.1 ≤ r.2
  gaps : ranges.Pairwise (fun r s => r.2 + 1 < s.1)

def Denotes (ranges : List (ℕ × ℕ)) (n : ℕ) : Prop := ∃ r ∈ ranges, r.1 ≤ n ∧ n ≤ r.2

/-! ### The runs -/

variable {cpus rest : List UInt32} {start prev : UInt32}

theorem mem_dedup {cpu : UInt32} : cpu ∈ dedup cpus ↔ cpu ∈ cpus := by
  induction cpus with
  | nil => rfl
  | cons a rest ih =>
    cases rest with
    | nil => rfl
    | cons b rest =>
      rw [dedup]
      split
      · rename_i hsame
        rw [ih, hsame]
        refine ⟨List.mem_cons_of_mem b, fun h => ?_⟩
        rcases List.mem_cons.mp h with rfl | h
        · exact List.mem_cons_self
        · exact h
      · rw [List.mem_cons, ih, ← List.mem_cons]

theorem dedup_ascending (h : cpus.Pairwise (· ≤ ·)) : (dedup cpus).Pairwise (· < ·) := by
  induction cpus with
  | nil => exact .nil
  | cons a rest ih =>
    obtain ⟨ha, hrest⟩ := List.pairwise_cons.mp h
    cases rest with
    | nil => exact List.pairwise_singleton _ _
    | cons b rest =>
      rw [dedup]
      split
      · exact ih hrest
      · rename_i hne
        refine List.pairwise_cons.mpr ⟨fun c hc => ?_, ih hrest⟩
        have hab : a < b := UInt32.lt_of_le_of_ne (ha b List.mem_cons_self) hne
        rcases List.mem_cons.mp (mem_dedup.mp hc) with rfl | hc
        · exact hab
        · exact UInt32.lt_of_lt_of_le hab ((List.pairwise_cons.mp hrest).1 c hc)

theorem next_of_lt {cpu : UInt32} (h : prev < cpu) :
    ∃ after, next prev = some after ∧ after.toNat = prev.toNat + 1 := by
  have hlt : prev.toNat < cpu.toNat := h
  have hbound := cpu.toNat_lt
  have hsmall : prev.toNat + 1 < UInt32.size := by
    have : UInt32.size = 2 ^ 32 := rfl
    omega
  refine ⟨prev + 1, if_pos hsmall, ?_⟩
  rw [UInt32.toNat_add]
  exact Nat.mod_eq_of_lt hsmall

/-- The open run is closed at the first gap, and at the end. -/
theorem runsFrom_exact (hopen : start ≤ prev) (hrest : (prev :: rest).Pairwise (· < ·)) :
    ∃ runs, runsFrom start prev rest = some runs ∧ Maximal (runs.map asRange) ∧
      (∀ r ∈ runs.map asRange, start.toNat ≤ r.1) ∧
      ∀ n, Denotes (runs.map asRange) n ↔
        (start.toNat ≤ n ∧ n ≤ prev.toNat) ∨ ∃ cpu ∈ rest, cpu.toNat = n := by
  induction rest generalizing start prev with
  | nil =>
    refine ⟨[(start, prev)], rfl, ⟨?_, List.pairwise_singleton _ _⟩, ?_, fun n => ?_⟩
    · intro r hr
      rw [List.mem_singleton.mp hr]
      exact hopen
    · intro r hr
      rw [List.mem_singleton.mp hr]
      exact Nat.le_refl _
    · constructor
      · rintro ⟨r, hr, hn⟩
        rw [List.mem_singleton.mp hr] at hn
        exact .inl hn
      · rintro (hn | ⟨_, hin, -⟩)
        · exact ⟨_, List.mem_singleton_self _, hn⟩
        · cases hin
  | cons cpu rest ih =>
    obtain ⟨hprev, htail⟩ := List.pairwise_cons.mp hrest
    have hlt : prev.toNat < cpu.toNat := hprev cpu List.mem_cons_self
    have hstart : start.toNat ≤ prev.toNat := hopen
    obtain ⟨after, hafter, hsucc⟩ := next_of_lt (hprev cpu List.mem_cons_self)
    rw [runsFrom, hafter]
    by_cases hsame : cpu = after
    · -- the run goes on
      have hcpu : cpu.toNat = prev.toNat + 1 := hsame ▸ hsucc
      have hopen' : start.toNat ≤ cpu.toNat := by omega
      obtain ⟨runs, hruns, hmax, hfirst, hden⟩ := ih hopen' htail
      refine ⟨runs, (if_pos hsame).trans hruns, hmax, hfirst, fun n => ?_⟩
      rw [hden]
      constructor
      · rintro (hn | ⟨c, hc, hn⟩)
        · by_cases hlast : n = cpu.toNat
          · exact .inr ⟨cpu, List.mem_cons_self, hlast.symm⟩
          · exact .inl (by omega)
        · exact .inr ⟨c, List.mem_cons_of_mem _ hc, hn⟩
      · rintro (hn | ⟨c, hc, hn⟩)
        · exact .inl (by omega)
        · rcases List.mem_cons.mp hc with rfl | hc
          · exact .inl (by omega)
          · exact .inr ⟨c, hc, hn⟩
    · -- a gap closes it
      obtain ⟨runs, hruns, hmax, hfirst, hden⟩ := ih (UInt32.le_refl cpu) htail
      have hgap : prev.toNat + 1 < cpu.toNat := by
        have hne : cpu.toNat ≠ after.toNat := fun heq => hsame (UInt32.toNat_inj.mp heq)
        omega
      refine ⟨(start, prev) :: runs, ?_, ⟨?_, ?_⟩, ?_, fun n => ?_⟩
      · exact (if_neg hsame).trans (by rw [hruns]; rfl)
      · exact List.forall_mem_cons.mpr ⟨hopen, hmax.range⟩
      · refine List.pairwise_cons.mpr ⟨fun r hr => ?_, hmax.gaps⟩
        exact Nat.lt_of_lt_of_le hgap (hfirst r hr)
      · refine List.forall_mem_cons.mpr ⟨Nat.le_refl _, fun r hr => ?_⟩
        have hr' := hfirst r hr
        omega
      · have hcons : Denotes (((start, prev) :: runs).map asRange) n ↔
            (start.toNat ≤ n ∧ n ≤ prev.toNat) ∨ Denotes (runs.map asRange) n :=
          List.exists_mem_cons_iff _ _ _
        rw [hcons, hden, List.exists_mem_cons_iff]
        have hone : cpu.toNat ≤ n ∧ n ≤ cpu.toNat ↔ cpu.toNat = n := by omega
        rw [hone]

theorem cpuRuns_exact (cpus : List UInt32) : ∃ runs, cpuRuns cpus = some runs ∧
    Maximal (runs.map asRange) ∧
    ∀ n, Denotes (runs.map asRange) n ↔ ∃ cpu ∈ cpus, cpu.toNat = n := by
  have hmem (cpu : UInt32) : cpu ∈ dedup (cpus.mergeSort (· ≤ ·)) ↔ cpu ∈ cpus := by
    rw [mem_dedup, List.mem_mergeSort]
  have hsorted : (cpus.mergeSort (· ≤ ·)).Pairwise (· ≤ ·) := by
    have htrans (a b c : UInt32) (hab : decide (a ≤ b) = true) (hbc : decide (b ≤ c) = true) :
        decide (a ≤ c) = true :=
      decide_eq_true (UInt32.le_trans (of_decide_eq_true hab) (of_decide_eq_true hbc))
    have htotal (a b : UInt32) : (decide (a ≤ b) || decide (b ≤ a)) = true := by
      simpa using UInt32.le_total a b
    exact (List.pairwise_mergeSort htrans htotal cpus).imp of_decide_eq_true
  have hascending := dedup_ascending hsorted
  unfold cpuRuns
  cases hlist : dedup (cpus.mergeSort (· ≤ ·)) with
  | nil =>
    refine ⟨[], rfl, ⟨nofun, .nil⟩, fun n => ⟨fun ⟨_, hr, _⟩ => (nomatch hr), ?_⟩⟩
    rintro ⟨cpu, hcpu, -⟩
    have hin := (hmem cpu).mpr hcpu
    rw [hlist] at hin
    cases hin
  | cons first rest =>
    rw [hlist] at hascending
    obtain ⟨runs, hruns, hmax, -, hden⟩ := runsFrom_exact (UInt32.le_refl first) hascending
    refine ⟨runs, hruns, hmax, fun n => ?_⟩
    have hlisted : (∃ cpu ∈ cpus, cpu.toNat = n) ↔ ∃ cpu ∈ first :: rest, cpu.toNat = n := by
      simp only [← hmem, hlist]
    have hone : first.toNat ≤ n ∧ n ≤ first.toNat ↔ first.toNat = n := by omega
    rw [hden, hlisted, List.exists_mem_cons_iff, hone]

/-! ### The text -/

theorem readRange_formatCpuRange (r : ℕ × ℕ) :
    readRange (Host.formatCpuRange r).toList = some r := by
  have hdash (n : ℕ) : '-' ∉ (toString n).toList := notMem_toString (by decide)
  unfold Host.formatCpuRange
  by_cases hsame : r.1 = r.2
  · rw [if_pos hsame, readRange, List.splitOn_eq_singleton (hdash r.1)]
    dsimp only
    rw [decimal_toString]
    exact congrArg some (Prod.ext rfl hsame)
  · have htext : (toString (toString r.1) ++ toString "-" ++ toString (toString r.2)).toList =
        (toString r.1).toList ++ '-' :: (toString r.2).toList := by
      rw [String.toList_append, String.toList_append, List.append_assoc]
      rfl
    rw [if_neg hsame, readRange, htext, List.splitOn_append_cons_self_of_not_mem (hdash _),
      List.splitOn_eq_singleton (hdash r.2)]
    dsimp only
    rw [decimal_toString, decimal_toString]
    rfl

theorem readCpuList_compactCpuList (ranges : List (ℕ × ℕ)) :
    readCpuList (Host.compactCpuList ranges) = some ranges := by
  have hcomma (r : ℕ × ℕ) : ',' ∉ (Host.formatCpuRange r).toList := by
    have hdigits (n : ℕ) : ',' ∉ (toString n).toList := notMem_toString (by decide)
    unfold Host.formatCpuRange
    split
    · exact hdigits _
    · simp only [String.toList_append, List.mem_append, not_or]
      exact ⟨⟨hdigits _, by decide⟩, hdigits _⟩
  have hread : (ranges.map (fun r => (Host.formatCpuRange r).toList)).mapM readRange =
      some ranges := by
    rw [List.mapM_map]
    induction ranges with
    | nil => rfl
    | cons r ranges ih =>
      rw [List.mapM_cons, ih]
      dsimp only [Function.comp_apply]
      rw [readRange_formatCpuRange]
      rfl
  have htext : (Host.compactCpuList ranges).toList =
      [','].intercalate (ranges.map (fun r => (Host.formatCpuRange r).toList)) := by
    rw [Host.compactCpuList, String.toList_intercalate, List.map_map]
    rfl
  cases ranges with
  | nil => rfl
  | cons r ranges =>
    have hsplit : (Host.compactCpuList (r :: ranges)).toList.splitOn ',' =
        (r :: ranges).map (fun r => (Host.formatCpuRange r).toList) := by
      rw [htext]
      refine List.splitOn_intercalate ',' (fun l hl => ?_) (by simp)
      obtain ⟨s, -, rfl⟩ := List.mem_map.mp hl
      exact hcomma s
    have hne : (Host.compactCpuList (r :: ranges)).isEmpty = false := by
      rw [Bool.eq_false_iff]
      intro hempty
      rw [String.isEmpty_iff.mp hempty] at hsplit
      have hnil : [] = (Host.formatCpuRange r).toList := (List.cons.inj hsplit).1
      have hfirst := readRange_formatCpuRange r
      rw [← hnil] at hfirst
      cases hfirst
    rw [readCpuList, hne, if_neg Bool.false_ne_true, hsplit, hread]

/-- The printed list denotes the CPUs that were given, in maximal ranges, and no increment overflows. -/
theorem compactCpuList_exact (cpus : List UInt32) : ∃ text ranges,
    compactCpuList cpus = some text ∧ readCpuList text = some ranges ∧ Maximal ranges ∧
      ∀ n, Denotes ranges n ↔ ∃ cpu ∈ cpus, cpu.toNat = n := by
  obtain ⟨runs, hruns, hmax, hden⟩ := cpuRuns_exact cpus
  refine ⟨Host.compactCpuList (runs.map asRange), runs.map asRange, ?_,
    readCpuList_compactCpuList _, hmax, hden⟩
  rw [compactCpuList, hruns]
  rfl

end Pertisk.Boot
