import Pertisk.Seed.Hostname
import Pertisk.Text

namespace Pertisk.Seed
open Lib PeerUrl

/-- The lines of the hosts file that stay. -/
def keepsLine (hostname line : List Char) : Bool :=
  !decide (hostname <:+: line) && !startsWith line "127.0.1.1"

def withLoopback (ls : List (List Char)) : List (List Char) :=
  if ls.any (startsWith · "127.0.0.1") then ls else "127.0.0.1 localhost".toList :: ls

def ownLine (hostname : List Char) : List Char := "127.0.1.1 ".toList ++ hostname

/-- `existing` is empty when the file cannot be read. -/
def patchHosts (hostname existing : List Char) : List Char :=
  let ls := withLoopback ((lines existing).filter (keepsLine hostname))
  ['\n'].intercalate (ls ++ [ownLine hostname] ++ [[]])

/-! ### What a hosts file says -/

/-- White space between the fields of a line. -/
def isBlank (c : Char) : Bool := c == ' ' || decide (9 ≤ c.toNat ∧ c.toNat ≤ 13)

structure HostEntry where
  address : List Char
  names : List (List Char)
deriving DecidableEq

/-- An address and the host names behind it; a `#` starts a comment. -/
def hostEntry (line : List Char) : Option HostEntry :=
  match wordsBy isBlank (line.takeWhile (· != '#')) with
  | address :: name :: names => some ⟨address, name :: names⟩
  | _ => none

def hostEntries (text : List Char) : List HostEntry := (lines text).filterMap hostEntry

def loopbackEntry : HostEntry := ⟨"127.0.0.1".toList, ["localhost".toList]⟩

def ownEntry (hostname : List Char) : HostEntry := ⟨"127.0.1.1".toList, [hostname]⟩

/-- An entry that says nothing about the host. -/
def other (hostname : List Char) (e : HostEntry) : Bool :=
  !decide (hostname ∈ e.names) && e.address != "127.0.1.1".toList

/-- Other entries stay in order, both loopback addresses have their entry, and a second run
changes nothing. -/
structure Patched (hostname text : List Char) : Prop where
  others : ((hostEntries text).filter (other hostname)).Sublist
    (hostEntries (patchHosts hostname text))
  loopback : ∃ e ∈ hostEntries (patchHosts hostname text), e.address = "127.0.0.1".toList
  own : (hostEntries (patchHosts hostname text)).filter (·.address == "127.0.1.1".toList) =
    [ownEntry hostname]
  again : patchHosts hostname (patchHosts hostname text) = patchHosts hostname text

/-- The other entries among some lines. -/
def othersOf (hostname : List Char) (ls : List (List Char)) : List HostEntry :=
  (ls.filterMap hostEntry).filter (other hostname)

/-- The tests on whole lines tell the entries of `ls` apart. -/
structure ToldApart (hostname : List Char) (ls : List (List Char)) : Prop where
  /-- Only the entry that is written back anyway may be lost. -/
  others : (∀ l ∈ ls, ∀ e, hostEntry l = some e → other hostname e = true →
      keepsLine hostname l = true) ∨
    (∀ l ∈ ls, keepsLine hostname l = true → startsWith l "127.0.0.1" = false) ∧
      othersOf hostname ls = loopbackEntry :: othersOf hostname (ls.filter (keepsLine hostname))
  loopback : ∀ l ∈ ls, keepsLine hostname l = true → startsWith l "127.0.0.1" = true →
    ∃ m ∈ ls, keepsLine hostname m = true ∧
      ∃ e, hostEntry m = some e ∧ e.address = "127.0.0.1".toList
  own : ∀ l ∈ ls, keepsLine hostname l = true → ∀ e, hostEntry l = some e →
    e.address ≠ "127.0.1.1".toList
  ended : ∀ l ∈ ls, keepsLine hostname l = true → l.getLast? ≠ some '\r'

/-- What the sanitising of a host name promises to the writers. -/
structure HostWord (s : List Char) : Prop where
  nonempty : s ≠ []
  chars : ∀ c ∈ s, c.isAlphanum = true ∨ c = '-'

theorem hostWord_sanitizeHost (raw : List Char) : HostWord (sanitizeHost raw) := by
  have heq : sanitizeHost raw = sanitizeHostname raw := rfl
  rw [heq, sanitizeHostname_eq]
  by_cases hcore : core raw = []
  · rw [if_pos hcore]
    exact ⟨label_pertisk.nonempty, label_pertisk.chars⟩
  · rw [if_neg hcore]
    obtain ⟨-, -, -, -, -, hfirst, -⟩ := core_split raw
    have hhead := head_labelFrom false hfirst
    refine ⟨fun hnil => ?_, fun c hc => labelFrom_chars false c (List.mem_of_mem_take hc)⟩
    rcases List.take_eq_nil_iff.mp hnil with h | h
    · cases h
    · rw [h, List.head?_nil, eq_comm, List.head?_eq_none_iff] at hhead
      exact hcore hhead

section chars
variable {s : List Char} {c : Char}

theorem HostWord.notMem (h : HostWord s) (hc : c.isAlphanum = false) (hne : c ≠ '-') : c ∉ s := by
  intro hmem
  rcases h.chars c hmem with halnum | hhyphen
  · rw [hc] at halnum
    cases halnum
  · exact hne hhyphen

theorem whiteSpace_of_isBlank (h : isBlank c = true) : isWhiteSpace c = true := by
  rcases Bool.or_eq_true_iff.mp h with h | h
  · rw [eq_of_beq h]
    rfl
  · have hrange := of_decide_eq_true h
    simp [isWhiteSpace, hrange]

theorem HostWord.not_blank (h : HostWord s) : ∀ c ∈ s, isBlank c = false := by
  intro c hc
  rcases h.chars c hc with halnum | rfl
  · by_contra hblank
    rw [not_alphanum_of_whiteSpace (whiteSpace_of_isBlank (by simpa using hblank))] at halnum
    cases halnum
  · rfl

end chars

/-! ### The entries of the new file -/

theorem wordsBy_chop (l : List Char) : wordsBy isBlank ((chop l).takeWhile (· != '#')) =
    wordsBy isBlank (l.takeWhile (· != '#')) := by
  unfold chop
  split
  · rename_i hlast
    obtain ⟨s, rfl⟩ := List.getLast?_eq_some_iff.mp hlast
    rw [List.dropLast_concat, List.takeWhile_append]
    split
    · have hall : s.takeWhile (· != '#') = s := (List.takeWhile_prefix _).eq_of_length ‹_›
      rw [hall]
      exact (wordsBy_append_blanks (PeerUrl.forall_of_all (by decide))).symm
    · rfl
  · rfl

theorem hostEntry_chop (l : List Char) : hostEntry (chop l) = hostEntry l := by
  unfold hostEntry
  rw [wordsBy_chop]

theorem hostEntry_ownLine {hostname : List Char} (h : HostWord hostname) :
    hostEntry (ownLine hostname) = some (ownEntry hostname) := by
  have hcomment : '#' ∉ ownLine hostname := by
    intro hmem
    rcases List.mem_append.mp hmem with hmem | hmem
    · revert hmem
      decide
    · exact h.notMem rfl (by decide) hmem
  have hall : (ownLine hostname).takeWhile (· != '#') = ownLine hostname :=
    List.takeWhile_eq_self_iff.mpr fun c hc => bne_iff_ne.mpr fun heq => hcomment (heq ▸ hc)
  have hwords : wordsBy isBlank (ownLine hostname) = ["127.0.1.1".toList, hostname] := by
    have hsplit : ownLine hostname = "127.0.1.1".toList ++ ' ' :: hostname := rfl
    rw [hsplit, wordsBy_append_blank rfl, wordsBy_word h.not_blank h.nonempty]
    rfl
  unfold hostEntry
  rw [hall, hwords]
  rfl

theorem hostEntry_loopback : hostEntry "127.0.0.1 localhost".toList = some loopbackEntry := by
  decide

/-- The lines of the new file before its own. -/
def keptLines (hostname text : List Char) : List (List Char) :=
  (lines text).filter (keepsLine hostname)

section entries
variable {hostname text : List Char}

theorem patchHosts_eq (hostname text : List Char) : patchHosts hostname text =
    unlines (withLoopback (keptLines hostname text) ++ [ownLine hostname]) :=
  intercalate_newline _

theorem newline_notMem_withLoopback {ls : List (List Char)} (h : ∀ l ∈ ls, '\n' ∉ l) :
    ∀ l ∈ withLoopback ls, '\n' ∉ l := by
  intro l hl
  unfold withLoopback at hl
  split at hl
  · exact h l hl
  · rcases List.mem_cons.mp hl with rfl | hl
    · decide
    · exact h l hl

theorem newline_notMem_keptLines : ∀ l ∈ keptLines hostname text, '\n' ∉ l :=
  fun l hl => newline_notMem_lines l (List.mem_of_mem_filter hl)

theorem newline_notMem_ownLine (h : HostWord hostname) : '\n' ∉ ownLine hostname := by
  intro hmem
  rcases List.mem_append.mp hmem with hmem | hmem
  · revert hmem
    decide
  · exact h.notMem rfl (by decide) hmem

theorem newline_notMem_written (h : HostWord hostname) :
    ∀ l ∈ withLoopback (keptLines hostname text) ++ [ownLine hostname], '\n' ∉ l := by
  intro l hl
  rcases List.mem_append.mp hl with hl | hl
  · exact newline_notMem_withLoopback newline_notMem_keptLines l hl
  · rw [List.mem_singleton.mp hl]
    exact newline_notMem_ownLine h

theorem lines_patchHosts (h : HostWord hostname) : lines (patchHosts hostname text) =
    (withLoopback (keptLines hostname text) ++ [ownLine hostname]).map chop := by
  have hwritten : ∀ l ∈ withLoopback (keptLines hostname text) ++ [ownLine hostname], '\n' ∉ l :=
    newline_notMem_written h
  have hlines := lines_unlines_append hwritten []
  rw [List.append_nil, lines_nil, List.append_nil] at hlines
  rw [patchHosts_eq, hlines]

theorem hostEntries_patchHosts (h : HostWord hostname) : hostEntries (patchHosts hostname text) =
    (withLoopback (keptLines hostname text)).filterMap hostEntry ++ [ownEntry hostname] := by
  have hsame : (fun l => hostEntry (chop l)) = hostEntry := funext hostEntry_chop
  unfold hostEntries
  rw [lines_patchHosts h, List.filterMap_map, Function.comp_def, hsame, List.filterMap_append]
  exact congrArg _ (List.filterMap_cons_some (hostEntry_ownLine h))

theorem othersOf_lines : othersOf hostname (lines text) =
    (hostEntries text).filter (other hostname) := rfl

theorem other_ownEntry : other hostname (ownEntry hostname) = false := by
  have hown : ((ownEntry hostname).address != "127.0.1.1".toList) = false := bne_self_eq_false _
  unfold other
  rw [hown, Bool.and_false]

end entries

/-! ### The second run -/

section again
variable {hostname text l : List Char} {ls : List (List Char)}

theorem infix_chop_iff (h : '\r' ∉ hostname) : hostname <:+: chop l ↔ hostname <:+: l := by
  unfold chop
  split
  · rename_i hlast
    obtain ⟨s, rfl⟩ := List.getLast?_eq_some_iff.mp hlast
    rw [List.dropLast_concat, List.infix_concat_iff, List.suffix_concat_iff]
    constructor
    · exact .inr
    · rintro ((rfl | ⟨t, rfl, -⟩) | hin)
      · exact List.nil_infix
      · exact absurd (by simp) h
      · exact hin
  · rfl

theorem startsWith_chop (text : String) (h : '\r' ∉ text.toList) :
    startsWith (chop l) text = startsWith l text := by
  have hiff : text.toList <+: chop l ↔ text.toList <+: l := by
    unfold chop
    split
    · rename_i hlast
      obtain ⟨s, rfl⟩ := List.getLast?_eq_some_iff.mp hlast
      rw [List.dropLast_concat, List.prefix_concat_iff]
      refine ⟨.inr, fun hpre => hpre.resolve_left fun heq => h ?_⟩
      rw [heq]
      simp
    · rfl
  rw [Bool.eq_iff_iff]
  unfold startsWith
  rw [List.isPrefixOf_iff_prefix, List.isPrefixOf_iff_prefix, hiff]

theorem keepsLine_chop (h : HostWord hostname) : keepsLine hostname (chop l) =
    keepsLine hostname l := by
  unfold keepsLine
  rw [startsWith_chop _ (by decide), decide_eq_decide.mpr (infix_chop_iff (h.notMem rfl (by decide)))]

theorem keepsLine_ownLine : keepsLine hostname (ownLine hostname) = false := by
  have hin : hostname <:+: ownLine hostname := (List.suffix_append _ _).isInfix
  simp [keepsLine, hin]

theorem chop_eq_self_iff : chop l = l ↔ l.getLast? ≠ some '\r' := by
  unfold chop
  split
  · rename_i hlast
    refine iff_of_false (fun heq => ?_) fun hne => hne hlast
    have hlen := congrArg List.length heq
    obtain ⟨s, rfl⟩ := List.getLast?_eq_some_iff.mp hlast
    rw [List.dropLast_concat, List.length_append] at hlen
    simp at hlen
  · rename_i hlast
    exact iff_of_true rfl hlast

theorem map_chop_iff : ls.map chop = ls ↔ ∀ l ∈ ls, l.getLast? ≠ some '\r' := by
  have hiff := List.map_inj_left (l := ls) (f := chop) (g := id)
  rw [List.map_id] at hiff
  rw [hiff]
  exact forall₂_congr fun l _ => chop_eq_self_iff

theorem any_chop (text : String) (h : '\r' ∉ text.toList) :
    (ls.map chop).any (startsWith · text) = ls.any (startsWith · text) := by
  rw [List.any_map]
  exact congrArg (fun p => ls.any p) (funext fun l => startsWith_chop text h)

theorem withLoopback_map_chop : (withLoopback ls).map chop = withLoopback (ls.map chop) := by
  unfold withLoopback
  rw [any_chop _ (by decide)]
  split <;> rfl

/-- The lines that the first run wrote are kept, or written again, by the second. -/
theorem withLoopback_filter (hls : ∀ l ∈ ls, keepsLine hostname l = true) :
    withLoopback ((withLoopback ls).filter (keepsLine hostname)) = withLoopback ls := by
  have hself : ls.filter (keepsLine hostname) = ls := List.filter_eq_self.mpr hls
  have hstart : startsWith "127.0.0.1 localhost".toList "127.0.0.1" = true := by decide
  by_cases hany : ls.any (startsWith · "127.0.0.1") = true
  · have hsame : withLoopback ls = ls := if_pos hany
    rw [hsame, hself, hsame]
  · have hadd : withLoopback ls = "127.0.0.1 localhost".toList :: ls := if_neg hany
    rw [hadd, List.filter_cons, hself]
    split
    · unfold withLoopback
      rw [List.any_cons, hstart, Bool.true_or, if_pos rfl]
    · exact hadd

theorem patchHosts_twice (h : HostWord hostname) :
    patchHosts hostname (patchHosts hostname text) =
      unlines ((withLoopback (keptLines hostname text)).map chop ++ [ownLine hostname]) := by
  have hkept : keptLines hostname (patchHosts hostname text) =
      ((withLoopback (keptLines hostname text)).filter (keepsLine hostname)).map chop := by
    have hsame : keepsLine hostname ∘ chop = keepsLine hostname :=
      funext fun l => keepsLine_chop h
    unfold keptLines
    rw [lines_patchHosts h, List.filter_map, hsame, List.filter_append,
      List.filter_cons_of_neg (by rw [keepsLine_ownLine]; exact Bool.false_ne_true),
      List.filter_nil, List.append_nil]
    rfl
  rw [patchHosts_eq, hkept, ← withLoopback_map_chop, withLoopback_filter]
  exact fun l hl => (List.mem_filter.mp hl).2

theorem newline_notMem_map_chop (h : ∀ l ∈ ls, '\n' ∉ l) : ∀ l ∈ ls.map chop, '\n' ∉ l := by
  intro l hl
  obtain ⟨m, hm, rfl⟩ := List.mem_map.mp hl
  exact newline_notMem_chop (h m hm)

theorem patchHosts_again_iff (text : List Char) (h : HostWord hostname) :
    patchHosts hostname (patchHosts hostname text) = patchHosts hostname text ↔
      ∀ l ∈ keptLines hostname text, l.getLast? ≠ some '\r' := by
  have hmem : ∀ l ∈ keptLines hostname text, l ∈ withLoopback (keptLines hostname text) := by
    intro l hl
    unfold withLoopback
    split
    · exact hl
    · exact List.mem_cons_of_mem _ hl
  rw [patchHosts_twice h, patchHosts_eq]
  constructor
  · intro heq l hl
    have hkept : ∀ l ∈ keptLines hostname text, '\n' ∉ l := newline_notMem_keptLines
    have hlines := newline_notMem_withLoopback hkept
    have hsame := unlines_inj ?_ (newline_notMem_written h) heq
    · have hmap := List.append_cancel_right hsame
      exact map_chop_iff.mp hmap l (hmem l hl)
    · intro m hm
      rcases List.mem_append.mp hm with hm | hm
      · exact newline_notMem_map_chop hlines m hm
      · rw [List.mem_singleton.mp hm]
        exact newline_notMem_ownLine h
  · intro hend
    rw [withLoopback_map_chop, map_chop_iff.mpr hend]

end again

/-! ### What the tests on whole lines tell apart -/

section iff
variable {hostname text : List Char} {ls : List (List Char)}

theorem withLoopback_of_mem {l : List Char} (hl : l ∈ ls) (h : startsWith l "127.0.0.1" = true) :
    withLoopback ls = ls :=
  if_pos (List.any_eq_true.mpr ⟨l, hl, h⟩)

theorem withLoopback_of_none (h : ∀ l ∈ ls, startsWith l "127.0.0.1" = false) :
    withLoopback ls = "127.0.0.1 localhost".toList :: ls := by
  refine if_neg fun hany => ?_
  obtain ⟨l, hl, hstarts⟩ := List.any_eq_true.mp hany
  rw [h l hl] at hstarts
  cases hstarts

theorem withLoopback_cases (ls : List (List Char)) :
    (∃ l ∈ ls, startsWith l "127.0.0.1" = true) ∧ withLoopback ls = ls ∨
    (∀ l ∈ ls, startsWith l "127.0.0.1" = false) ∧
      withLoopback ls = "127.0.0.1 localhost".toList :: ls := by
  by_cases h : ∃ l ∈ ls, startsWith l "127.0.0.1" = true
  · obtain ⟨l, hl, hstarts⟩ := h
    exact .inl ⟨⟨l, hl, hstarts⟩, withLoopback_of_mem hl hstarts⟩
  · have hnone : ∀ l ∈ ls, startsWith l "127.0.0.1" = false :=
      fun l hl => Bool.eq_false_iff.mpr fun hstarts => h ⟨l, hl, hstarts⟩
    exact .inr ⟨hnone, withLoopback_of_none hnone⟩

theorem filterMap_loopback : ("127.0.0.1 localhost".toList :: ls).filterMap hostEntry =
    loopbackEntry :: ls.filterMap hostEntry :=
  List.filterMap_cons_some hostEntry_loopback

theorem patchHosts_loopback_iff (text : List Char) (h : HostWord hostname) :
    (∃ e ∈ hostEntries (patchHosts hostname text), e.address = "127.0.0.1".toList) ↔
      ∀ l ∈ keptLines hostname text, startsWith l "127.0.0.1" = true →
        ∃ m ∈ keptLines hostname text, ∃ e, hostEntry m = some e ∧
          e.address = "127.0.0.1".toList := by
  rw [hostEntries_patchHosts h]
  constructor
  · rintro ⟨e, he, haddr⟩ l hl hstarts
    rw [withLoopback_of_mem hl hstarts] at he
    rcases List.mem_append.mp he with he | he
    · obtain ⟨m, hm, hentry⟩ := List.mem_filterMap.mp he
      exact ⟨m, hm, e, hentry, haddr⟩
    · rw [List.mem_singleton.mp he] at haddr
      have hne : "127.0.1.1".toList ≠ "127.0.0.1".toList := by decide
      exact absurd haddr hne
  · intro hloop
    rcases withLoopback_cases (keptLines hostname text) with ⟨⟨l, hl, hstarts⟩, heq⟩ | ⟨-, heq⟩
    · obtain ⟨m, hm, e, hentry, haddr⟩ := hloop l hl hstarts
      refine ⟨e, List.mem_append_left _ ?_, haddr⟩
      rw [heq]
      exact List.mem_filterMap.mpr ⟨m, hm, hentry⟩
    · rw [heq, filterMap_loopback]
      exact ⟨loopbackEntry, List.mem_append_left _ List.mem_cons_self, rfl⟩

theorem patchHosts_own_iff (text : List Char) (h : HostWord hostname) :
    (hostEntries (patchHosts hostname text)).filter (·.address == "127.0.1.1".toList) =
        [ownEntry hostname] ↔
      ∀ l ∈ keptLines hostname text, ∀ e, hostEntry l = some e →
        e.address ≠ "127.0.1.1".toList := by
  have hown : [ownEntry hostname].filter (·.address == "127.0.1.1".toList) =
      [ownEntry hostname] := List.filter_cons_of_pos (beq_self_eq_true _)
  have hkept : ((withLoopback (keptLines hostname text)).filterMap hostEntry).filter
        (·.address == "127.0.1.1".toList) =
      ((keptLines hostname text).filterMap hostEntry).filter
        (·.address == "127.0.1.1".toList) := by
    rcases withLoopback_cases (keptLines hostname text) with ⟨-, heq⟩ | ⟨-, heq⟩
    · rw [heq]
    · rw [heq, filterMap_loopback]
      exact List.filter_cons_of_neg (by decide)
  rw [hostEntries_patchHosts h, List.filter_append, hown, hkept, List.append_left_eq_self,
    List.filter_eq_nil_iff]
  constructor
  · intro hnone l hl e hentry haddr
    refine hnone e (List.mem_filterMap.mpr ⟨l, hl, hentry⟩) ?_
    rw [haddr]
    exact beq_self_eq_true _
  · intro hnone e he haddr
    obtain ⟨l, hl, hentry⟩ := List.mem_filterMap.mp he
    exact hnone l hl e hentry (eq_of_beq haddr)

theorem othersOf_filter_sublist (hostname : List Char) (ls : List (List Char)) (p : List Char → Bool) :
    (othersOf hostname (ls.filter p)).Sublist (othersOf hostname ls) :=
  ((List.filter_sublist (p := p)).filterMap hostEntry).filter _

/-- Nothing is lost exactly when every line of another entry stays. -/
theorem othersOf_filter_eq_iff (hostname : List Char) (ls : List (List Char)) (p : List Char → Bool) :
    othersOf hostname ls = othersOf hostname (ls.filter p) ↔
      ∀ l ∈ ls, ∀ e, hostEntry l = some e → other hostname e = true → p l = true := by
  induction ls with
  | nil => exact iff_of_true rfl nofun
  | cons l ls ih =>
    rw [List.forall_mem_cons, ← ih]
    have hsub := othersOf_filter_sublist hostname ls p
    cases hentry : hostEntry l with
    | none =>
      have hsame : othersOf hostname (l :: ls) = othersOf hostname ls := by
        unfold othersOf
        rw [List.filterMap_cons_none hentry]
      have hsame' : othersOf hostname ((l :: ls).filter p) = othersOf hostname (ls.filter p) := by
        rw [List.filter_cons]
        split
        · unfold othersOf
          rw [List.filterMap_cons_none hentry]
        · rfl
      rw [hsame, hsame']
      exact ⟨fun heq => ⟨nofun, heq⟩, fun heq => heq.2⟩
    | some e =>
      have hcons : ∀ ms, othersOf hostname (l :: ms) =
          if other hostname e = true then e :: othersOf hostname ms
          else othersOf hostname ms := by
        intro ms
        unfold othersOf
        rw [List.filterMap_cons_some hentry, List.filter_cons]
      rw [hcons, List.filter_cons]
      by_cases hother : other hostname e = true
      · rw [if_pos hother]
        by_cases hp : p l = true
        · rw [if_pos hp, hcons, if_pos hother, List.cons.injEq]
          exact ⟨fun heq => ⟨fun _ _ _ => hp, heq.2⟩, fun heq => ⟨rfl, heq.2⟩⟩
        · rw [if_neg hp]
          refine iff_of_false (fun heq => ?_) fun heq => hp (heq.1 e rfl hother)
          have hlen := hsub.length_le
          rw [← heq, List.length_cons] at hlen
          omega
      · rw [if_neg hother]
        have hrest : othersOf hostname (if p l = true then l :: ls.filter p else ls.filter p) =
            othersOf hostname (ls.filter p) := by
          split
          · rw [hcons, if_neg hother]
          · rfl
        rw [hrest]
        refine ⟨fun heq => ⟨fun e' he' hother' => ?_, heq⟩, fun heq => heq.2⟩
        rw [Option.some.inj he'] at hother
        exact absurd hother' hother

/-- A list between another and that with one more in front is one of the two. -/
theorem eq_or_eq_cons {α : Type} {xs ys : List α} {a : α} (h : ys.Sublist xs)
    (h' : xs.Sublist (a :: ys)) : xs = ys ∨ xs = a :: ys := by
  have hlen := h.length_le
  have hlen' := h'.length_le
  rw [List.length_cons] at hlen'
  by_cases hsame : xs.length = ys.length
  · exact .inl (h.eq_of_length hsame.symm).symm
  · exact .inr (h'.eq_of_length (by rw [List.length_cons]; omega))

theorem patchHosts_others_iff (text : List Char) (h : HostWord hostname) :
    ((hostEntries text).filter (other hostname)).Sublist
        (hostEntries (patchHosts hostname text)) ↔
      othersOf hostname (lines text) = othersOf hostname (keptLines hostname text) ∨
      (∀ l ∈ keptLines hostname text, startsWith l "127.0.0.1" = false) ∧
        othersOf hostname (lines text) =
          loopbackEntry :: othersOf hostname (keptLines hostname text) := by
  have hafter : (hostEntries (patchHosts hostname text)).filter (other hostname) =
      othersOf hostname (withLoopback (keptLines hostname text)) := by
    rw [hostEntries_patchHosts h, List.filter_append,
      List.filter_cons_of_neg (by rw [other_ownEntry]; exact Bool.false_ne_true),
      List.filter_nil, List.append_nil]
    rfl
  have hiff : ((hostEntries text).filter (other hostname)).Sublist
      (hostEntries (patchHosts hostname text)) ↔ (othersOf hostname (lines text)).Sublist
        (othersOf hostname (withLoopback (keptLines hostname text))) := by
    rw [othersOf_lines, ← hafter]
    constructor
    · intro hsub
      have hfilter := hsub.filter (other hostname)
      simpa only [List.filter_filter, Bool.and_self] using hfilter
    · exact fun hsub => hsub.trans List.filter_sublist
  have hkept : (othersOf hostname (keptLines hostname text)).Sublist
      (othersOf hostname (lines text)) := othersOf_filter_sublist _ _ _
  rw [hiff]
  rcases withLoopback_cases (keptLines hostname text) with
    ⟨⟨l, hl, hstarts⟩, heq⟩ | ⟨hnone, heq⟩
  · rw [heq]
    constructor
    · exact fun hsub => .inl (hsub.antisymm hkept)
    · rintro (hsame | ⟨hnone, -⟩)
      · rw [hsame]
      · rw [hnone l hl] at hstarts
        cases hstarts
  · have hcons : othersOf hostname (withLoopback (keptLines hostname text)) =
        if other hostname loopbackEntry = true then
          loopbackEntry :: othersOf hostname (keptLines hostname text)
        else othersOf hostname (keptLines hostname text) := by
      unfold othersOf
      rw [heq, filterMap_loopback, List.filter_cons]
    rw [hcons]
    by_cases hother : other hostname loopbackEntry = true
    · rw [if_pos hother]
      constructor
      · intro hsub
        exact (eq_or_eq_cons hkept hsub).imp_right fun hlost => ⟨hnone, hlost⟩
      · rintro (hsame | ⟨-, hlost⟩)
        · rw [hsame]
          exact List.sublist_cons_self _ _
        · rw [hlost]
    · rw [if_neg hother]
      constructor
      · exact fun hsub => .inl (hsub.antisymm hkept)
      · rintro (hsame | ⟨-, hlost⟩)
        · rw [hsame]
        · have hmem : loopbackEntry ∈ othersOf hostname (lines text) := by
            rw [hlost]
            exact List.mem_cons_self
          exact absurd (List.mem_filter.mp hmem).2 hother

end iff

theorem forall_keptLines {hostname text : List Char} {p : List Char → Prop} :
    (∀ l ∈ keptLines hostname text, p l) ↔
      ∀ l ∈ lines text, keepsLine hostname l = true → p l := by
  simp only [keptLines, List.mem_filter, and_imp]

theorem exists_keptLines {hostname text : List Char} {p : List Char → Prop} :
    (∃ l ∈ keptLines hostname text, p l) ↔
      ∃ l ∈ lines text, keepsLine hostname l = true ∧ p l := by
  simp only [keptLines, List.mem_filter, and_assoc]

theorem patchHosts_iff (raw text : List Char) :
    Patched (sanitizeHost raw) text ↔ ToldApart (sanitizeHost raw) (lines text) := by
  have h := hostWord_sanitizeHost raw
  generalize sanitizeHost raw = hostname at h
  have hothers := patchHosts_others_iff text h
  have hloop := patchHosts_loopback_iff text h
  have hown := patchHosts_own_iff text h
  have hagain := patchHosts_again_iff text h
  have hlost := othersOf_filter_eq_iff hostname (lines text) (keepsLine hostname)
  simp only [forall_keptLines, exists_keptLines] at hothers hloop hown hagain
  constructor
  · intro hp
    exact ⟨(hothers.mp hp.others).imp_left hlost.mp, hloop.mp hp.loopback, hown.mp hp.own,
      hagain.mp hp.again⟩
  · intro ht
    exact ⟨hothers.mpr (ht.others.imp_left hlost.mpr), hloop.mpr ht.loopback, hown.mpr ht.own,
      hagain.mpr ht.ended⟩

/-- A short name is found inside another host's. -/
theorem short_name_drops_entry : ¬ ∀ raw text, Patched (sanitizeHost raw) text := by
  intro h
  exact absurd (h "db".toList "10.0.0.5 db1\n".toList).others (by decide +kernel)

end Pertisk.Seed
