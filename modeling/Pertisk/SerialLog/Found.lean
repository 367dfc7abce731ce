import Pertisk.SerialLog.Macs

namespace Pertisk.SerialLog
open Lib PeerUrl Net Text
open Volume (trimMatches)

/-! ### Parts of a text -/

section parts
variable {s t : List Char} {p : Char → Bool}

theorem trimEnd_infix : trimEnd p s <:+: s := (prefix_trimEnd p s).isInfix

theorem trimMatches_infix : trimMatches p s <:+: s :=
  trimEnd_infix.trans (List.dropWhile_suffix p).isInfix

theorem trim_infix : trim s <:+: s := trimMatches_infix

theorem head_splitOnP (p : Char → Bool) (s : List Char) :
    ∃ rest, s.splitOnP p = s.takeWhile (fun c => !p c) :: rest := by
  induction s with
  | nil => exact ⟨[], rfl⟩
  | cons c s ih =>
    obtain ⟨rest, hrest⟩ := ih
    rw [List.splitOnP_cons_eq_if_modifyHead, hrest]
    by_cases hc : p c = true
    · rw [if_pos hc, List.takeWhile_cons_of_neg (by simp [hc])]
      exact ⟨_, rfl⟩
    · rw [if_neg hc, List.takeWhile_cons_of_pos (by simp [hc])]
      exact ⟨rest, rfl⟩

theorem splitOnP_infix {w : List Char} (h : w ∈ s.splitOnP p) : w <:+: s := by
  induction s generalizing w with
  | nil =>
    rw [List.splitOnP_nil, List.mem_singleton] at h
    rw [h]
  | cons c s ih =>
    obtain ⟨rest, hrest⟩ := head_splitOnP p s
    rw [List.splitOnP_cons_eq_if_modifyHead] at h
    split at h
    · rcases List.mem_cons.mp h with rfl | h
      · exact List.nil_infix
      · exact List.infix_cons (ih h)
    · rw [hrest, List.modifyHead_cons] at h
      rw [hrest] at ih
      rcases List.mem_cons.mp h with rfl | h
      · exact (List.cons_prefix_cons.mpr ⟨rfl, List.takeWhile_prefix _⟩).isInfix
      · exact List.infix_cons (ih (List.mem_cons_of_mem _ h))

theorem wordsBy_infix {w : List Char} (h : w ∈ wordsBy p s) : w <:+: s :=
  splitOnP_infix (List.mem_filter.mp h).1

theorem splitOnce_infix {a b : List Char} {c : Char} (h : splitOnce s c = some (a, b)) :
    b <:+: s := by
  obtain ⟨rfl, -⟩ := splitOnce_eq_some h
  exact ((List.suffix_cons c b).trans (List.suffix_append a _)).isInfix

theorem addrBehind_infix {after ip : List Char} (h : addrBehind after = some ip) :
    ip <:+: after ∧ trim ip = ip := by
  unfold addrBehind at h
  obtain ⟨⟨label, addrPart⟩, hsplit, h⟩ := Option.bind_eq_some_iff.mp h
  obtain ⟨word, hword, h⟩ := Option.bind_eq_some_iff.mp h
  dsimp only at hword h
  split at h
  · cases h
  · obtain rfl := Option.some.inj h
    refine ⟨?_, trim_trim _⟩
    calc trim ((trimMatches _ word).takeWhile _)
        <:+: (trimMatches _ word).takeWhile _ := trim_infix
      _ <:+: trimMatches _ word := (List.takeWhile_prefix _).isInfix
      _ <:+: word := trimMatches_infix
      _ <:+: addrPart := wordsBy_infix (List.mem_of_mem_head? hword)
      _ <:+: after.dropWhile isWhiteSpace := splitOnce_infix hsplit
      _ <:+: after := (List.dropWhile_suffix _).isInfix

end parts

/-! ### The label path -/

section label
variable {line label : List Char} {idx : ℕ}

/-- The byte that is found ends a part of the text, with what was sought behind it. -/
theorem find_eq_some {text s : List Char} (h : find text s = some idx) :
    ∃ u v, s = u ++ text ++ v ∧ utf8Len u = idx := by
  induction s generalizing idx with
  | nil =>
    rw [find] at h
    split at h
    · rename_i hnil
      cases h
      exact ⟨[], [], by rw [hnil]; rfl, rfl⟩
    · cases h
  | cons c s ih =>
    rw [find] at h
    split at h
    · rename_i hpre
      obtain ⟨v, hv⟩ := hpre
      cases h
      exact ⟨[], v, hv.symm, rfl⟩
    · obtain ⟨rest, hrest, rfl⟩ := Option.map_eq_some_iff.mp h
      obtain ⟨u, v, rfl, rfl⟩ := ih hrest
      exact ⟨c :: u, v, rfl, utf8Len_cons⟩

/-- The offset into the text in small letters is one of the text itself. -/
theorem sliceFrom_of_find (h : find label (toAsciiLowercase line) = some idx) :
    ∃ after, sliceFrom line (idx + utf8Len label) = some after ∧ after <:+ line := by
  obtain ⟨u, v, huv, hidx⟩ := find_eq_some h
  obtain ⟨uw, v', rfl, huw, rfl⟩ := List.map_eq_append_iff.mp huv
  have hlen : utf8Len uw = idx + utf8Len label := by
    rw [← utf8Len_lower uw, show toAsciiLowercase uw = u ++ label from huw, utf8Len_append, hidx]
  refine ⟨v', ?_, List.suffix_append uw v'⟩
  rw [← hlen]
  exact sliceFrom_append

theorem labeledAddr_spec (label line : List Char) (mac : Option String) (allow : Bool) :
    ∃ r, labeledAddr label line mac allow = some r ∧
      ∀ ip ∈ r, ip <:+: line ∧ trim ip = ip ∧ ∀ m ∈ mac, Accepted m allow line := by
  unfold labeledAddr
  cases hfind : find label (toAsciiLowercase line) with
  | none => exact ⟨none, rfl, fun ip hip => absurd hip (Option.not_mem_none ip)⟩
  | some idx =>
    obtain ⟨b, hb, haccepted⟩ := serialLineMacOk_spec line mac allow
    obtain ⟨after, hafter, hsuffix⟩ := sliceFrom_of_find hfind
    simp only [hb, hafter, Option.bind_eq_bind, Option.bind_some]
    cases b with
    | false => exact ⟨none, rfl, fun ip hip => absurd hip (Option.not_mem_none ip)⟩
    | true =>
      refine ⟨addrBehind after, rfl, fun ip hip => ?_⟩
      obtain ⟨hin, htrim⟩ := addrBehind_infix hip
      exact ⟨hin.trans hsuffix.isInfix, htrim, haccepted rfl⟩

theorem labeledIpv4_spec (line : List Char) (mac : Option String) :
    ∃ r, labeledIpv4 mac line = some r ∧
      ∀ ip ∈ r, ip <:+: line ∧ AddrText ip ∧ ∀ m ∈ mac, CarriesNic line m := by
  obtain ⟨r, hr, hall⟩ := labeledAddr_spec "ipv4 address for".toList line mac false
  unfold labeledIpv4
  rw [hr]
  refine ⟨r.filter isGuestIpv4, rfl, fun ip hip => ?_⟩
  obtain ⟨hr', hguest⟩ := Option.filter_eq_some_iff.mp hip
  obtain ⟨hin, htrim, haccepted⟩ := hall ip hr'
  have htext := isGuestIpv4_chars hguest
  rw [htrim] at htext
  exact ⟨hin, htext, fun m hm => (haccepted m hm).given rfl⟩

theorem ipv4Tokens_text {token : List Char} (h : token ∈ ipv4Tokens line) :
    token <:+: line ∧ AddrText token := by
  obtain ⟨hne, hchars⟩ := mem_wordsBy h
  refine ⟨ wordsBy_infix h, hne, fun c hc => ?_⟩
  have hboth := hchars c hc
  rw [Bool.not_eq_false', Bool.or_eq_true] at hboth
  rcases hboth with hdigit | hdot
  · simp [isAddrChar, isHexdigit, hdigit]
  · simp [isAddrChar, hdot]

theorem deviceAddr_spec {mac : Option String} {ip : List Char}
    (h : deviceAddr mac line = some ip) :
    ip <:+: line ∧ AddrText ip ∧ ∀ m ∈ mac, CarriesNic line m := by
  unfold deviceAddr at h
  dsimp only at h
  split at h
  · cases h
  · split at h
    · cases h
    · rename_i hmac
      have hmem := List.mem_of_getLast? h
      obtain ⟨hin, htext⟩ := ipv4Tokens_text (List.mem_filter.mp hmem).1
      refine ⟨hin, htext, fun m hm => serialLineHasMac_carries ?_⟩
      rw [Option.mem_def.mp hm] at hmac
      simpa using hmac

end label

/-! ### The runs of digits and colons -/

section spans
variable {line a b : List Char} {opened : Option ℕ} {i : ℕ}

/-- A span of a line begins and ends between characters. -/
structure Cut (line : List Char) (span : ℕ × ℕ) : Prop where
  first : Boundary line span.1
  last : Boundary line span.2
  ordered : span.1 ≤ span.2

theorem spansFrom_skip {bs rest : List UInt8} (h : ∀ b ∈ bs, isTokenByte b = false) :
    spansFrom none i (bs ++ rest) = spansFrom none (i + bs.length) rest := by
  induction bs generalizing i with
  | nil => rfl
  | cons b bs ih =>
    rw [List.cons_append, spansFrom, h b List.mem_cons_self, if_neg Bool.false_ne_true]
    rw [ih fun b' hb' => h b' (List.mem_cons_of_mem _ hb'), List.length_cons]
    rw [show i + 1 + bs.length = i + (bs.length + 1) by omega]
    rfl

theorem ascii_of_isTokenByte {x : UInt8} (h : isTokenByte x = true) : x.toNat < 0x80 := by
  rw [← toNat_byteChar]
  rcases Bool.or_eq_true_iff.mp h with h | h
  · exact ascii_of_isHexdigit h
  · rw [eq_of_beq h]
    decide

theorem boundary_append : Boundary (a ++ b) (utf8Len a) := ⟨a, b, rfl, rfl⟩

/-- The run that is being read may end here. -/
theorem cut_opened (hline : line = a ++ b)
    (hopened : ∀ s ∈ opened, Boundary line s ∧ s ≤ utf8Len a) :
    ∀ span ∈ opened.toList.map (fun start => (start, utf8Len a)), Cut line span := by
  intro span hspan
  obtain ⟨s, hs, rfl⟩ := List.mem_map.mp hspan
  obtain ⟨hbound, hle⟩ := hopened s (Option.mem_toList.mp hs)
  exact ⟨hbound, hline ▸ boundary_append, hle⟩

theorem cut_spansFrom (hline : line = a ++ b)
    (hopened : ∀ s ∈ opened, Boundary line s ∧ s ≤ utf8Len a) :
    ∀ span ∈ spansFrom opened (utf8Len a) (bytesOf b), Cut line span := by
  induction b generalizing a opened with
  | nil => exact cut_opened hline hopened
  | cons c b ih =>
    have hnext : line = (a ++ [c]) ++ b := by rw [hline, List.append_assoc]; rfl
    have hlen : utf8Len (a ++ [c]) = utf8Len a + c.utf8Size := by simp
    obtain ⟨x, bs, hbytes⟩ := List.exists_cons_of_ne_nil (String.utf8EncodeChar_ne_nil (c := c))
    have hsize : c.utf8Size = bs.length + 1 := by
      rw [← String.length_utf8EncodeChar, hbytes, List.length_cons]
    rw [bytesOf_cons, hbytes, List.cons_append, spansFrom]
    split
    · rename_i htoken
      have hascii : c.toNat < 0x80 := by
        by_contra hbig
        have := high_of_mem_encode (Nat.not_lt.mp hbig) x (hbytes ▸ List.mem_cons_self)
        have := ascii_of_isTokenByte htoken
        omega
      have hone : bs = [] := by
        rw [encode_ascii hascii] at hbytes
        exact (List.cons.inj hbytes).2.symm
      rw [hone, List.length_nil] at hsize
      rw [hone, List.nil_append]
      rw [hsize] at hlen
      rw [← hlen]
      refine ih hnext ?_
      intro s hs
      obtain rfl := Option.some.inj hs
      cases opened with
      | none => exact ⟨hline ▸ boundary_append, by rw [hlen]; exact Nat.le_succ _⟩
      | some s =>
        obtain ⟨hbound, hle⟩ := hopened s rfl
        exact ⟨hbound, by rw [hlen]; exact Nat.le_succ_of_le hle⟩
    · rename_i hother
      have hrest : ∀ y ∈ bs, isTokenByte y = false := by
        intro y hy
        by_contra htoken
        have hlow := ascii_of_isTokenByte (Bool.not_eq_false _ ▸ htoken)
        by_cases hascii : c.toNat < 0x80
        · rw [encode_ascii hascii] at hbytes
          rw [(List.cons.inj hbytes).2.symm] at hy
          cases hy
        · have := high_of_mem_encode (Nat.not_lt.mp hascii) y
            (hbytes ▸ List.mem_cons_of_mem x hy)
          omega
      intro span hspan
      rcases List.mem_append.mp hspan with hspan | hspan
      · exact cut_opened hline hopened span hspan
      · rw [spansFrom_skip hrest] at hspan
        have hpos : utf8Len a + 1 + bs.length = utf8Len (a ++ [c]) := by omega
        have hnone : ∀ s ∈ (none : Option ℕ), Boundary line s ∧ s ≤ utf8Len (a ++ [c]) := nofun
        rw [hpos] at hspan
        exact ih hnext hnone span hspan

theorem slice_of_cut {span : ℕ × ℕ} (h : Cut line span) :
    ∃ token, slice line span = some token ∧ token <:+: line := by
  obtain ⟨front, hfront⟩ := Option.isSome_iff_exists.mp (sliceFrom_isSome_iff.mpr h.first)
  obtain ⟨behind, hbehind⟩ := Option.isSome_iff_exists.mp (sliceFrom_isSome_iff.mpr h.last)
  unfold slice
  rw [hfront, hbehind]
  refine ⟨front.take (front.length - behind.length), if_pos h.ordered, ?_⟩
  obtain ⟨u, rfl, -⟩ := eq_append_of_sliceFrom hfront
  exact (List.take_prefix _ _).isInfix.trans (List.suffix_append u front).isInfix

theorem tokenIpv6_spec {token ip : List Char} (h : tokenIpv6 token = some ip) :
    ip <:+: token ∧ AddrText ip := by
  unfold tokenIpv6 at h
  dsimp only at h
  split at h
  · obtain ⟨htext, v, hv, rfl⟩ := preferIpv6_mem h
    rw [List.mem_singleton.mp hv]
    exact ⟨ trim_infix.trans trimMatches_infix, List.mem_singleton.mp hv ▸ htext⟩
  · cases h

theorem tokensAt_spec {spans : List (ℕ × ℕ)} (h : ∀ span ∈ spans, Cut line span) :
    ∃ tokens, tokensAt line spans = some tokens ∧ ∀ ip ∈ tokens, ip <:+: line ∧ AddrText ip := by
  induction spans with
  | nil => exact ⟨[], rfl, nofun⟩
  | cons span spans ih =>
    obtain ⟨token, htoken, hin⟩ := slice_of_cut (h span List.mem_cons_self)
    obtain ⟨tokens, htokens, hall⟩ := ih fun s hs => h s (List.mem_cons_of_mem _ hs)
    unfold tokensAt
    rw [htoken, htokens]
    refine ⟨(tokenIpv6 token).toList ++ tokens, rfl, fun ip hip => ?_⟩
    rcases List.mem_append.mp hip with hip | hip
    · obtain ⟨hip', htext⟩ := tokenIpv6_spec (Option.mem_toList.mp hip)
      exact ⟨hip'.trans hin, htext⟩
    · exact hall ip hip

theorem ipv6Tokens_spec (line : List Char) :
    ∃ tokens, ipv6Tokens line = some tokens ∧ ∀ ip ∈ tokens, ip <:+: line ∧ AddrText ip :=
  tokensAt_spec (cut_spansFrom (a := []) rfl nofun)

theorem ipv6OnSerialLine_spec (mac : Option String) (allow : Bool) (line : List Char) :
    ∃ r, ipv6OnSerialLine mac allow line = some r ∧
      ∀ ip ∈ r, ip <:+: line ∧ AddrText ip ∧ ∀ m ∈ mac, Accepted m allow line := by
  unfold ipv6OnSerialLine
  dsimp only
  split
  · exact ⟨none, rfl, fun ip hip => absurd hip (Option.not_mem_none ip)⟩
  · obtain ⟨ok, hok, haccepted⟩ := serialLineMacOk_spec line mac allow
    rw [hok]
    cases ok with
    | false => exact ⟨none, rfl, fun ip hip => absurd hip (Option.not_mem_none ip)⟩
    | true =>
      by_cases htagged : has (toAsciiLowercase line) ipv6Label = true
      · obtain ⟨r, hr, hall⟩ := labeledAddr_spec ipv6Label line mac allow
        rw [htagged, hr]
        refine ⟨r.bind (fun ip => preferIpv6 [ip]), rfl, fun ip hip => ?_⟩
        obtain ⟨label, hlabel, hprefer⟩ := Option.bind_eq_some_iff.mp hip
        obtain ⟨htext, v, hv, rfl⟩ := preferIpv6_mem hprefer
        obtain ⟨hin, htrim, -⟩ := hall label hlabel
        rw [List.mem_singleton.mp hv] at htext ⊢
        exact ⟨ trim_infix.trans hin, htext, haccepted rfl⟩
      · obtain ⟨tokens, htokens, hall⟩ := ipv6Tokens_spec line
        rw [Bool.not_eq_true] at htagged
        rw [htagged, htokens]
        refine ⟨preferIpv6 tokens, rfl, fun ip hip => ?_⟩
        obtain ⟨htext, v, hv, rfl⟩ := preferIpv6_mem hip
        exact ⟨ trim_infix.trans (hall v hv).1, htext, haccepted rfl⟩

end spans

/-! ### All the lines -/

section lines
variable {f : List Char → Option (Option (List Char))} {found : Option (List Char)}
  {ls : List (List Char)}

theorem lastFound_spec (found : Option (List Char)) (h : ∀ line ∈ ls, ∃ r, f line = some r) :
    ∃ r, lastFound f found ls = some r ∧
      (r = found ∧ (∀ line ∈ ls, f line = some none) ∨
        ∃ before line after ip, ls = before ++ line :: after ∧ r = some ip ∧
          f line = some (some ip) ∧ ∀ l ∈ after, f l = some none) := by
  induction ls generalizing found with
  | nil => exact ⟨found, rfl, .inl ⟨rfl, nofun⟩⟩
  | cons line ls ih =>
    obtain ⟨r, hr⟩ := h line List.mem_cons_self
    have hrest : ∀ l ∈ ls, ∃ r, f l = some r := fun l hl => h l (List.mem_cons_of_mem _ hl)
    unfold lastFound
    rw [hr]
    cases r with
    | none =>
      obtain ⟨r, hlast, hcases⟩ := ih found hrest
      refine ⟨r, hlast, ?_⟩
      rcases hcases with ⟨hsame, hnone⟩ | ⟨before, l, after, ip, hls, hip, hl, hafter⟩
      · exact .inl ⟨hsame, List.forall_mem_cons.mpr ⟨hr, hnone⟩⟩
      · exact .inr ⟨line :: before, l, after, ip, by rw [hls]; rfl, hip, hl, hafter⟩
    | some ip =>
      obtain ⟨r, hlast, hcases⟩ := ih (some ip) hrest
      refine ⟨r, hlast, .inr ?_⟩
      rcases hcases with ⟨hsame, hnone⟩ | ⟨before, l, after, ip', hls, hip, hl, hafter⟩
      · exact ⟨[], line, ls, ip, rfl, hsame, hr, hnone⟩
      · exact ⟨line :: before, l, after, ip', by rw [hls]; rfl, hip, hl, hafter⟩

theorem isSome_lastFound (h : ∀ line, ∃ r, f line = some r) :
    (lastFound f found ls).isSome = true := by
  obtain ⟨r, hr, -⟩ := lastFound_spec found fun line (_ : line ∈ ls) => h line
  rw [hr]
  rfl

end lines

/-! ### URLs -/

/-- Each round leaves a shorter text. -/
theorem isSome_lastUrl {steps : ℕ} {last : Option (List Char)} {rest : List Char}
    (h : rest.length < steps) : (lastUrl steps last rest).isSome = true := by
  induction steps generalizing last rest with
  | zero => omega
  | succ steps ih =>
    unfold lastUrl
    cases hfind : find "://".toList rest with
    | none => rfl
    | some idx =>
      obtain ⟨u, v, hrest, hidx⟩ := find_eq_some hfind
      have hscheme : utf8Len "://".toList = 3 := by decide
      have hafter : sliceFrom rest (idx + 3) = some v := by
        rw [hrest, ← hidx, ← hscheme, ← utf8Len_append]
        exact sliceFrom_append
      have hshort : v.length < rest.length := by
        rw [hrest]
        simp only [List.length_append]
        have : 0 < "://".toList.length := by decide
        omega
      have hsplit := (List.takeWhile_append_dropWhile (p := fun c => !isHostEnd c) (l := v)).symm
      have hhost : ∀ a b, v = a ++ b →
          min (utf8Len a) (utf8Len v) = utf8Len a ∧ sliceFrom v (utf8Len a) = some b := by
        rintro a b rfl
        rw [utf8Len_append]
        exact ⟨Nat.min_eq_left (Nat.le_add_right _ _), sliceFrom_append⟩
      obtain ⟨hmin, hbehind⟩ := hhost _ _ hsplit
      simp only [hafter, hmin, hbehind, Option.bind_eq_bind, Option.bind_some]
      split
      · rfl
      · refine ih ?_
        have hdrop := (List.dropWhile_suffix (fun c => !isHostEnd c) (l := v)).length_le
        omega

end Pertisk.SerialLog
