import Pertisk.Lib.Bytes
import Pertisk.Lib.Text
import Pertisk.Lib.Utf8
import Pertisk.PeerUrl

namespace Pertisk.Updates
open Lib PeerUrl

/-- What a finished package manager left. -/
structure Output where
  /-- None when a signal ended it. -/
  code : Option Int
  status : String
  stdout : List UInt8
  stderr : List UInt8

def Output.success (o : Output) : Bool := o.code == some 0

def tidyPkgLog (stdout stderr : List UInt8) : List Char :=
  let raw := Utf8.lossy stdout
  let raw :=
    if stderr.isEmpty then raw
    else
      (if raw.isEmpty || raw.getLast? == some '\n' then raw else raw ++ ['\n']) ++ Utf8.lossy stderr
  let text := raw.map (fun c => if c = '\r' then '\n' else c)
  ['\n'].intercalate (((lines text).map trim).filter (fun line => !line.isEmpty))

def keep : ℕ := 64 * 1024

/-- `"…\n"` -/
def marker : List Char := [Char.ofNat 0x2026, '\n']

/-- A log that is too long is cut; nothing stands for a panic. -/
def truncated (log : List Char) : Option (List Char) :=
  if keep < utf8Len log then (sliceFrom log (utf8Len log - keep)).map (fun rest => marker ++ rest)
  else some log

def pkgDnsFailed (log : List Char) : Bool :=
  contains log "Temporary failure resolving" || contains log "Could not resolve '" ||
    contains log "Failed to resolve" || contains log "Curl error (6):" ||
    contains log "Could not resolve host"

/-- What is told of the run, from the log that is left. -/
def aptResult (args : List String) (output : Output) (log : List Char) :
    Except (List Char) (List Char) :=
  if output.code = some 124 then
    .error "apt-get timed out after 120s (mirror or DNS too slow)".toList
  else if pkgDnsFailed log then
    .error ("No DNS: cannot reach deb.debian.org. Plug the LAN in, wait for DHCP, " ++
      "then Refresh again.").toList
  else if !output.success then
    .error (if (trim log).isEmpty then s!"apt-get failed ({output.status})".toList else log)
  else if args.contains "update" && !contains log "Finished." then
    .ok ((if !log.isEmpty && log.getLast? != some '\n' then log ++ ['\n'] else log) ++
      "Finished.\n".toList)
  else .ok log

def runApt (args : List String) :
    Except String Output → Option (Except (List Char) (List Char))
  | .error err => some (.error s!"run apt-get: {err}".toList)
  | .ok output =>
    (truncated (tidyPkgLog output.stdout output.stderr)).map (aptResult args output)

def dnfResult (output : Output) (log : List Char) : Except (List Char) (Int × List Char) :=
  let code := output.code.getD 1
  if code = 124 then .error "dnf timed out after 180s (mirror or DNS too slow)".toList
  else if pkgDnsFailed log then
    .error ("No DNS: cannot reach AlmaLinux mirrors. Plug the LAN in, wait for DHCP, " ++
      "then Refresh again.").toList
  else .ok (code, log)

def runDnfStatus : Except String Output → Option (Except (List Char) (Int × List Char))
  | .error err => some (.error s!"run dnf: {err}".toList)
  | .ok output => (truncated (tidyPkgLog output.stdout output.stderr)).map (dnfResult output)

/-- The whole log, or the mark and as much of its end as is kept. -/
def Cut (log shown : List Char) : Prop :=
  shown = log ∨ ∃ rest, rest <:+ log ∧ utf8Len rest ≤ keep ∧ shown = marker ++ rest

/-- The log is short enough, or a character begins where it is cut. -/
def CutsWell (log : List Char) : Prop :=
  utf8Len log ≤ keep ∨ Boundary log (utf8Len log - keep)

section cut
variable {log shown : List Char}

theorem truncated_cut (h : truncated log = some shown) : Cut log shown := by
  unfold truncated at h
  split at h
  · obtain ⟨rest, hrest, rfl⟩ := Option.map_eq_some_iff.mp h
    obtain ⟨a, rfl, ha⟩ := eq_append_of_sliceFrom hrest
    refine .inr ⟨rest, List.suffix_append a rest, ?_, rfl⟩
    rw [utf8Len_append] at ha
    omega
  · exact .inl (Option.some.inj h).symm

theorem truncated_isSome_iff : (truncated log).isSome = true ↔ CutsWell log := by
  unfold truncated CutsWell
  split
  · rename_i hlong
    rw [Option.isSome_map, sliceFrom_isSome_iff]
    exact ⟨.inr, fun h => h.resolve_left (Nat.not_le.mpr hlong)⟩
  · rename_i hshort
    exact ⟨fun _ => .inl (Nat.not_lt.mp hshort), fun _ => rfl⟩

end cut

/-- Neither manager's run panics, and the log that it tells of is the tidied one or its end. -/
def Safe (args : List String) (output : Output) : Prop :=
  ∃ shown, Cut (tidyPkgLog output.stdout output.stderr) shown ∧
    runApt args (.ok output) = some (aptResult args output shown) ∧
    runDnfStatus (.ok output) = some (dnfResult output shown)

theorem safe_iff (args : List String) (output : Output) :
    Safe args output ↔ CutsWell (tidyPkgLog output.stdout output.stderr) := by
  rw [← truncated_isSome_iff, Option.isSome_iff_exists]
  constructor
  · rintro ⟨shown, -, hrun, -⟩
    rw [runApt, Option.map_eq_some_iff] at hrun
    obtain ⟨log, hlog, -⟩ := hrun
    exact ⟨log, hlog⟩
  · rintro ⟨log, hlog⟩
    refine ⟨log, truncated_cut hlog, ?_, ?_⟩
    · rw [runApt, hlog]
      rfl
    · rw [runDnfStatus, hlog]
      rfl

section long

/-- A byte that is no character's, and as many letters behind it. -/
def replacedThen (n : ℕ) : List UInt8 := 0xFF :: List.replicate n 0x61

theorem lossy_replaced (n : ℕ) :
    Utf8.lossy (replacedThen n) = Utf8.replacement :: List.replicate n 'a' := by
  have hletters : ∀ n, Utf8.lossy (List.replicate n 0x61) = List.replicate n 'a' := by
    intro n
    induction n with
    | zero => rfl
    | succ n ih =>
      have hhead := Utf8.lossy_ascii (a := []) (b := List.replicate n 0x61) (x := 0x61) (by decide)
      rw [List.replicate_succ, List.replicate_succ, ← ih]
      exact hhead
  exact congrArg (Utf8.replacement :: ·) (hletters n)

theorem tidy_replaced (n : ℕ) :
    tidyPkgLog (replacedThen n) [] = Utf8.replacement :: List.replicate n 'a' := by
  have hchars : ∀ c ∈ Utf8.replacement :: List.replicate n 'a',
      c = Utf8.replacement ∨ c = 'a' := by
    intro c hc
    rcases List.mem_cons.mp hc with rfl | hc
    · exact .inl rfl
    · exact .inr (List.eq_of_mem_replicate hc)
  have hplain : ∀ c ∈ Utf8.replacement :: List.replicate n 'a',
      c ≠ '\r' ∧ '\n' ≠ c ∧ isWhiteSpace c = false := by
    intro c hc
    rcases hchars c hc with rfl | rfl
    · decide
    · decide
  have hmap : (Utf8.replacement :: List.replicate n 'a').map
      (fun c => if c = '\r' then '\n' else c) = Utf8.replacement :: List.replicate n 'a' := by
    refine (List.map_congr_left fun c hc => ?_).trans (List.map_id _)
    exact if_neg (hplain c hc).1
  have hlines := lines_end (l := Utf8.replacement :: List.replicate n 'a')
    (fun hmem => (hplain _ hmem).2.1 rfl) (List.cons_ne_nil _ _)
  have htrim : trim (Utf8.replacement :: List.replicate n 'a') =
      Utf8.replacement :: List.replicate n 'a' :=
    trim_eq_self (fun c hc => (hplain c (List.mem_of_mem_head? hc)).2.2)
      (fun c hc => (hplain c (List.mem_of_getLast? hc)).2.2)
  unfold tidyPkgLog
  rw [lossy_replaced]
  simp only [List.isEmpty_nil, if_true, hmap, hlines, List.map_cons, List.map_nil, htrim,
    List.filter_cons, List.isEmpty_cons, Bool.not_false, List.filter_nil]
  exact List.intercalate_singleton

def longOutput : Output where
  code := some 0
  status := "exit status: 0"
  stdout := replacedThen 65535
  stderr := []

/-- The cut falls inside of the character that stands for the byte. -/
theorem long_log_panics :
    runApt ["update"] (.ok longOutput) = none ∧ runDnfStatus (.ok longOutput) = none := by
  have hlen : utf8Len (Utf8.replacement :: List.replicate 65535 'a') = 65538 := by
    rw [utf8Len_cons, utf8Len, List.map_replicate, List.sum_replicate]
    rfl
  have hcut : truncated (tidyPkgLog (replacedThen 65535) []) = none := by
    rw [tidy_replaced, truncated, hlen, if_pos (by decide)]
    rfl
  rw [runApt, runDnfStatus, longOutput, hcut]
  exact ⟨rfl, rfl⟩

end long

end Pertisk.Updates
