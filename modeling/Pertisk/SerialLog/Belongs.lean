import Pertisk.SerialLog.Found

namespace Pertisk.SerialLog
open Lib PeerUrl Net Text

/-- The lines of a whole log. -/
def logLines (data : List UInt8) : List (List Char) := lines (Utf8.lossy data)

/-- Where an address of the NIC must stand in the log. -/
structure Belongs (data : List UInt8) (mac : String) (allowWithoutMac : Bool) (ip : List Char) :
    Prop where
  /-- Not only on lines of other NICs. -/
  shared : ∃ l ∈ logLines data, ip <:+: l ∧ (CarriesMac l → CarriesNic l mac)
  own : allowWithoutMac = false → ∃ l ∈ logLines data, ip <:+: l ∧ CarriesNic l mac

/-- The reading ends, nothing is read out of range, and an address belongs to the NIC. -/
structure Sound (data : List UInt8) (mac : String) (allowWithoutMac : Bool) : Prop where
  ends : ∀ mac' : Option String, (ipv4FromSerialLog (some data) mac').isSome = true ∧
    (ipv6FromSerialLog (some data) mac' allowWithoutMac).isSome = true
  ipv4 : ∀ ip, ipv4FromSerialLog (some data) (some mac) = some (some ip) →
    Belongs data mac false ip
  ipv6 : ∀ ip, ipv6FromSerialLog (some data) (some mac) allowWithoutMac = some (some ip) →
    Belongs data mac allowWithoutMac ip

/-- The end of the log that is read begins within a line whose other NIC's address is cut off, and
the address behind it is the last one and on no line without such an address. -/
structure Misled (data : List UInt8) (mac : String) (ip : List Char) : Prop where
  long : tailLen < data.length
  cut : ∃ first rest, logLines (tailOf data) = first :: rest ∧ ¬ CarriesMac first ∧
    ipv6OnSerialLine (some mac) true first = some (some ip) ∧
    ∀ l ∈ rest, ipv6OnSerialLine (some mac) true l = some none
  others : ∀ l ∈ logLines data, ip <:+: l → CarriesMac l ∧ ¬ CarriesNic l mac

section tail
variable {data : List UInt8} {mac : String} {allow : Bool} {line ip : List Char}

theorem replacement_notMem (h : AddrText ip) : Utf8.replacement ∉ ip := by
  intro hmem
  exact absurd (h.chars _ hmem) (by decide)

/-- A part of a text behind replacements that has none is one of the text. -/
theorem infix_of_infix_append {x w : List Char} (hx : ∀ c ∈ x, c = Utf8.replacement)
    (hip : Utf8.replacement ∉ ip) (hne : ip ≠ []) (h : ip <:+: x ++ w) : ip <:+: w := by
  induction x with
  | nil => exact h
  | cons c x ih =>
    rw [List.cons_append, List.infix_cons_iff] at h
    rcases h with hpre | hin
    · obtain ⟨d, ip', rfl⟩ := List.exists_cons_of_ne_nil hne
      rw [List.cons_prefix_cons, hx c List.mem_cons_self] at hpre
      exact absurd (hpre.1 ▸ List.mem_cons_self) hip
    · exact ih (fun d hd => hx d (List.mem_cons_of_mem c hd)) hin

theorem CarriesNic.mono {whole : List Char} (h : CarriesNic line mac) (hin : line <:+: whole) :
    CarriesNic whole mac := by
  obtain ⟨m, want, hm, htext, hwant, hsame⟩ := h
  exact ⟨m, want, hm.trans hin, htext, hwant, hsame⟩

/-- MAC addresses and IP addresses of a line behind replacements stand in what is left. -/
theorem CarriesNic.behind {x w : List Char} (hx : ∀ c ∈ x, c = Utf8.replacement)
    (h : CarriesNic (x ++ w) mac) : CarriesNic w mac := by
  obtain ⟨m, want, hm, htext, hwant, hsame⟩ := h
  refine ⟨m, want, infix_of_infix_append hx ?_ ?_ hm, htext, hwant, hsame⟩
  · intro hmem
    exact absurd (isPairs_ascii htext _ hmem) (by decide)
  · rintro rfl
    cases htext

/-- Of the lines that are read only the first may be less than a line of the log. -/
theorem tail_cases (data : List UInt8) : logLines (tailOf data) = [] ∨
    ∃ first rest, logLines (tailOf data) = first :: rest ∧ (∀ l ∈ rest, l ∈ logLines data) ∧
      ∀ ip, AddrText ip → ip <:+: first →
        ∃ whole ∈ logLines data, ip <:+: whole ∧
          (∀ mac, CarriesNic first mac → CarriesNic whole mac) ∧
          (data.length ≤ tailLen → whole = first) := by
  by_cases hshort : data.length ≤ tailLen
  · have hself : tailOf data = data := by
      unfold tailOf
      rw [Nat.sub_eq_zero_of_le hshort, List.drop_zero]
    rw [hself]
    cases hlines : logLines data with
    | nil => exact .inl rfl
    | cons first rest =>
      refine .inr ⟨first, rest, rfl, fun l hl => List.mem_cons_of_mem _ hl, fun ip _ hin => ?_⟩
      exact ⟨first, List.mem_cons_self, hin, fun _ h => h, fun _ => rfl⟩
  · obtain ⟨u, x, v, hwhole, htail, hx⟩ :=
      Utf8.lossy_tail (data.take (data.length - tailLen)) (tailOf data)
    rw [show data.take (data.length - tailLen) ++ tailOf data = data from
      List.take_append_drop _ _] at hwhole
    have hnewline : '\n' ∉ x := fun h => absurd (hx _ h) (by decide)
    have hreturn : '\r' ∉ x := fun h => absurd (hx _ h) (by decide)
    unfold logLines
    rw [htail, hwhole]
    rcases lines_tail (u := u) (v := v) hnewline hreturn with hnil | ⟨w, rest, hl, hrest, hw⟩
    · exact .inl hnil
    · refine .inr ⟨x ++ w, rest, hl, hrest, fun ip hip hin => ?_⟩
      have hinw := infix_of_infix_append hx (replacement_notMem hip) hip.nonempty hin
      rcases hw with rfl | ⟨p, hp⟩
      · exact absurd (List.infix_nil.mp hinw) hip.nonempty
      · exact ⟨p ++ w, hp, hinw.trans (List.suffix_append p w).isInfix,
          fun mac h => h.behind hx |>.mono (List.suffix_append p w).isInfix,
          fun h => absurd h hshort⟩

/-- An address on a line that carries the NIC's. -/
theorem belongs_of_own (hl : line ∈ logLines (tailOf data)) (hin : ip <:+: line)
    (htext : AddrText ip) (hown : CarriesNic line mac) : Belongs data mac allow ip := by
  rcases tail_cases data with hnil | ⟨first, rest, hlines, hrest, hfirst⟩
  · rw [hnil] at hl
    cases hl
  · rw [hlines] at hl
    rcases List.mem_cons.mp hl with rfl | hl
    · obtain ⟨whole, hmem, hin', hcarries, -⟩ := hfirst ip htext hin
      exact ⟨⟨whole, hmem, hin', fun _ => hcarries mac hown⟩,
        fun _ => ⟨whole, hmem, hin', hcarries mac hown⟩⟩
    · exact ⟨⟨line, hrest line hl, hin, fun _ => hown⟩, fun _ => ⟨line, hrest line hl, hin, hown⟩⟩

theorem isSome_ipv4InText (text : List Char) (mac : Option String) :
    (ipv4InText text mac).isSome = true := by
  have hdevice : ∀ line, ∃ r, (fun line => some (deviceAddr mac line)) line = some r :=
    fun line => ⟨_, rfl⟩
  have hlabel : ∀ line, ∃ r, labeledIpv4 mac line = some r := by
    intro line
    obtain ⟨r, hr, -⟩ := labeledIpv4_spec line mac
    exact ⟨r, hr⟩
  unfold ipv4InText
  have hr : (lastFound (fun line => some (deviceAddr mac line)) none (lines text)).isSome = true :=
    isSome_lastFound hdevice
  have hr' : (lastFound (labeledIpv4 mac) none (lines text)).isSome = true :=
    isSome_lastFound hlabel
  obtain ⟨r, hr⟩ := Option.isSome_iff_exists.mp hr
  obtain ⟨r', hr'⟩ := Option.isSome_iff_exists.mp hr'
  simp only [hr, hr', Option.bind_eq_bind, Option.bind_some]
  cases r with
  | some ip => rfl
  | none =>
    cases r' with
    | some ip => rfl
    | none =>
      cases mac with
      | some mac => rfl
      | none => exact isSome_lastUrl (Nat.lt_succ_self _)

theorem ipv4_ends (data : List UInt8) (mac : Option String) :
    (ipv4FromSerialLog (some data) mac).isSome = true := isSome_ipv4InText _ mac

theorem ipv6OnSerialLine_total (mac : Option String) (allow : Bool) (line : List Char) :
    ∃ r, ipv6OnSerialLine mac allow line = some r := by
  obtain ⟨r, hr, -⟩ := ipv6OnSerialLine_spec mac allow line
  exact ⟨r, hr⟩

theorem ipv6_ends (data : List UInt8) (mac : Option String) (allow : Bool) :
    (ipv6FromSerialLog (some data) mac allow).isSome = true :=
  isSome_lastFound (ipv6OnSerialLine_total mac allow)

/-- Both ways to an IPv4 address look at the NIC's own lines only. -/
theorem ipv4_belongs (h : ipv4FromSerialLog (some data) (some mac) = some (some ip)) :
    Belongs data mac false ip := by
  have hfound : ∀ {f : List Char → Option (Option (List Char))},
      (∀ line, ∃ r, f line = some r ∧
        ∀ ip ∈ r, ip <:+: line ∧ AddrText ip ∧ ∀ m ∈ some mac, CarriesNic line m) →
      ∀ {ip}, lastFound f none (lines (Utf8.lossy (tailOf data))) = some (some ip) →
        Belongs data mac false ip := by
    intro f hf ip hlast
    obtain ⟨r, hr, hcases⟩ := lastFound_spec none
      fun line (_ : line ∈ lines (Utf8.lossy (tailOf data))) => (hf line).imp fun _ h => h.1
    rw [hlast] at hr
    obtain rfl := Option.some.inj hr
    rcases hcases with ⟨hnone, -⟩ | ⟨before, line, after, ip', hls, hip, hline, -⟩
    · cases hnone
    · obtain rfl := Option.some.inj hip
      obtain ⟨r, hr, hall⟩ := hf line
      rw [hline] at hr
      obtain rfl := Option.some.inj hr
      obtain ⟨hin, htext, hcarries⟩ := hall ip rfl
      refine belongs_of_own ?_ hin htext (hcarries mac rfl)
      unfold logLines
      rw [hls]
      exact List.mem_append_right _ List.mem_cons_self
  have htext : ipv4InText (Utf8.lossy (tailOf data)) (some mac) = some (some ip) := h
  unfold ipv4InText at htext
  obtain ⟨r, hr, h⟩ := Option.bind_eq_some_iff.mp htext
  cases r with
  | some ip' =>
    obtain rfl : ip' = ip := Option.some.inj (Option.some.inj h)
    exact hfound (fun line => ⟨_, rfl, fun ip hip => deviceAddr_spec hip⟩) hr
  | none =>
    obtain ⟨r, hr, h⟩ := Option.bind_eq_some_iff.mp h
    cases r with
    | some ip' =>
      obtain rfl : ip' = ip := Option.some.inj (Option.some.inj h)
      exact hfound (fun line => labeledIpv4_spec line (some mac)) hr
    | none => cases h

theorem ipv6_cases (h : ipv6FromSerialLog (some data) (some mac) allow = some (some ip)) :
    ∃ before line after, logLines (tailOf data) = before ++ line :: after ∧
      ipv6OnSerialLine (some mac) allow line = some (some ip) ∧
      (∀ l ∈ after, ipv6OnSerialLine (some mac) allow l = some none) ∧ ip <:+: line ∧
      AddrText ip ∧ Accepted mac allow line := by
  obtain ⟨r, hr, hcases⟩ := lastFound_spec none
    fun line (_ : line ∈ logLines (tailOf data)) => ipv6OnSerialLine_total (some mac) allow line
  have hsame : some (some ip) = some r := h.symm.trans hr
  obtain rfl := Option.some.inj hsame
  rcases hcases with ⟨hnone, -⟩ | ⟨before, line, after, ip', hls, hip, hline, hafter⟩
  · cases hnone
  · obtain rfl := Option.some.inj hip
    obtain ⟨r, hr, hall⟩ := ipv6OnSerialLine_spec (some mac) allow line
    rw [hline] at hr
    obtain rfl := Option.some.inj hr
    obtain ⟨hin, htext, haccepted⟩ := hall ip rfl
    exact ⟨before, line, after, hls, hline, hafter, hin, htext, haccepted mac rfl⟩

/-- Only a line that the beginning of what is read cuts may mislead. -/
theorem ipv6_belongs (hnot : allow = true → ¬ Misled data mac ip)
    (h : ipv6FromSerialLog (some data) (some mac) allow = some (some ip)) :
    Belongs data mac allow ip := by
  obtain ⟨before, line, after, hls, hline, hafter, hin, htext, haccepted⟩ := ipv6_cases h
  have hmem : line ∈ logLines (tailOf data) := hls ▸ List.mem_append_right _ List.mem_cons_self
  by_cases hown : CarriesNic line mac
  · exact belongs_of_own hmem hin htext hown
  · have hany : ¬ CarriesMac line := mt haccepted.own hown
    have hallow : allow = true := by
      by_contra hfalse
      exact hown (haccepted.given (Bool.not_eq_true _ ▸ hfalse))
    subst hallow
    refine ⟨?_, nofun⟩
    rcases tail_cases data with hnil | ⟨first, rest, hlines, hrest, hfirst⟩
    · rw [hnil] at hmem
      cases hmem
    · cases before with
      | cons l before =>
        rw [hlines, List.cons_append, List.cons.injEq] at hls
        refine ⟨line, hrest line ?_, hin, fun hmac => absurd hmac hany⟩
        rw [hls.2]
        exact List.mem_append_right _ List.mem_cons_self
      | nil =>
        rw [List.nil_append] at hls
        have hheads := hlines.symm.trans hls
        obtain ⟨rfl, rfl⟩ := List.cons.inj hheads
        obtain ⟨whole, hwhole, hin', -, hshort⟩ := hfirst ip htext hin
        by_cases hlong : tailLen < data.length
        · by_contra hall
          refine hnot rfl ⟨hlong, ⟨_, _, hls, hany, hline, hafter⟩, fun l hl hip => ?_⟩
          by_contra hfree
          exact hall ⟨l, hl, hip, fun hmac => by_contra fun hother => hfree ⟨hmac, hother⟩⟩
        · refine ⟨whole, hwhole, hin', fun hmac => ?_⟩
          rw [hshort (Nat.not_lt.mp hlong)] at hmac
          exact absurd hmac hany

/-- The address behind the cut is the one that is told. -/
theorem not_sound_of_misled (hmisled : Misled data mac ip) : ¬ Sound data mac true := by
  intro hsound
  obtain ⟨first, rest, hls, -, hfirst, hrest⟩ := hmisled.cut
  have hread : ipv6FromSerialLog (some data) (some mac) true = some (some ip) := by
    have hlast : lastFound (ipv6OnSerialLine (some mac) true) (some ip) rest =
        some (some ip) := by
      obtain ⟨r, hr, hcases⟩ := lastFound_spec (some ip)
        fun l (_ : l ∈ rest) => ipv6OnSerialLine_total (some mac) true l
      rcases hcases with ⟨rfl, -⟩ | ⟨before, l, after, ip', hsplit, -, hl, -⟩
      · exact hr
      · rw [hrest l (hsplit ▸ List.mem_append_right _ List.mem_cons_self)] at hl
        cases hl
    have hlines : lines (Utf8.lossy (tailOf data)) = first :: rest := hls
    unfold ipv6FromSerialLog
    dsimp only
    rw [hlines, lastFound, hfirst]
    exact hlast
  obtain ⟨l, hl, hin, hfree⟩ := (hsound.ipv6 ip hread).shared
  obtain ⟨hmac, hother⟩ := hmisled.others l hl hin
  exact hother (hfree hmac)

end tail

def otherMac : List Char := "52:54:00:11:11:11 ".toList

def labelLine : List Char := "IPv6 address for eth0: 2405::1".toList

/-- The label's line of another NIC, and blank lines up to the length that is read. -/
def cutText : List Char :=
  otherMac ++ (labelLine ++ '\n' :: List.replicate (tailLen - 31) '\n')

theorem lossy_bytesOf {s : List Char} (h : ∀ c ∈ s, c.toNat < 0x80) :
    Utf8.lossy (bytesOf s) = s := by
  induction s with
  | nil => rfl
  | cons c s ih =>
    have hc := h c List.mem_cons_self
    have hone := Utf8.lossy_ascii (a := []) (b := bytesOf s)
      (x := UInt8.ofNat c.toNat) (by rwa [toNat_encode_ascii hc])
    rw [toNat_encode_ascii hc, Char.ofNat_toNat] at hone
    rw [bytesOf_cons, encode_ascii hc]
    exact hone.trans (congrArg (c :: ·) (ih fun d hd => h d (List.mem_cons_of_mem _ hd)))

theorem lines_replicate (n : ℕ) : lines (List.replicate n '\n') = List.replicate n [] := by
  induction n with
  | zero => rfl
  | succ n ih =>
    rw [List.replicate_succ, List.replicate_succ, ← ih]
    exact lines_newline (l := []) List.not_mem_nil

theorem ascii_replicate (n : ℕ) : ∀ c ∈ List.replicate n '\n', c.toNat < 0x80 := by
  intro c hc
  rw [List.eq_of_mem_replicate hc]
  decide

theorem ascii_labelLine : ∀ c ∈ labelLine, c.toNat < 0x80 := by
  have hall : labelLine.all (fun c => decide (c.toNat < 0x80)) = true := by decide
  exact fun c hc => of_decide_eq_true (List.all_eq_true.mp hall c hc)

theorem ascii_otherMac : ∀ c ∈ otherMac, c.toNat < 0x80 := by
  have hall : otherMac.all (fun c => decide (c.toNat < 0x80)) = true := by decide
  exact fun c hc => of_decide_eq_true (List.all_eq_true.mp hall c hc)

theorem length_bytesOf_ascii {s : List Char} (h : ∀ c ∈ s, c.toNat < 0x80) :
    (bytesOf s).length = s.length := by
  have hmap := congrArg List.length (bytesOf_ascii h).1
  rwa [List.length_map] at hmap

/-- What is read of a log that so much text ends. -/
theorem tailOf_append {front back : List UInt8} (h : back.length = tailLen) :
    tailOf (front ++ back) = back := by
  unfold tailOf
  rw [List.length_append, h, Nat.add_sub_cancel, List.drop_left]

theorem not_carriesNic_of {line : List Char} {mac want : String}
    (hwant : normalizeMac mac = some want)
    (h : ¬ want.toList <:+: (toAsciiLowercase line).map coloned) : ¬ CarriesNic line mac := by
  rintro ⟨m, want', hm, -, hwant', hsame⟩
  obtain rfl : want = want' := Option.some.inj (hwant.symm.trans hwant')
  exact h (hsame ▸ (infix_lower hm).map coloned)

theorem carriesMac_iff_scan {line : List Char} {b : Bool} (h : lineHasAnyMac line = some b) :
    CarriesMac line ↔ b = true := by
  obtain ⟨b', hb', hiff⟩ := lineHasAnyMac_spec line
  rw [h] at hb'
  rw [Option.some.inj hb', hiff]

theorem misled_cut : Misled (bytesOf cutText) "52:54:00:22:22:22" "2405::1".toList := by
  have hfill : ∀ c ∈ labelLine ++ '\n' :: List.replicate (tailLen - 31) '\n',
      c.toNat < 0x80 := by
    intro c hc
    rcases List.mem_append.mp hc with hc | hc
    · exact ascii_labelLine c hc
    · rcases List.mem_cons.mp hc with rfl | hc
      · decide
      · exact ascii_replicate _ c hc
  have hback : (bytesOf (labelLine ++ '\n' :: List.replicate (tailLen - 31) '\n')).length =
      tailLen := by
    have hlabel : labelLine.length = 30 := by decide
    have htail : 31 ≤ tailLen := by decide
    rw [length_bytesOf_ascii hfill, List.length_append, List.length_cons, List.length_replicate,
      hlabel]
    omega
  have hdata : bytesOf cutText = bytesOf otherMac ++
      bytesOf (labelLine ++ '\n' :: List.replicate (tailLen - 31) '\n') := bytesOf_append
  have hlines : ∀ front : List Char, (∀ c ∈ front, c.toNat < 0x80) → '\n' ∉ front ++ labelLine →
      chop (front ++ labelLine) = front ++ labelLine →
      logLines (bytesOf (front ++ (labelLine ++ '\n' :: List.replicate (tailLen - 31) '\n'))) =
        (front ++ labelLine) :: List.replicate (tailLen - 31) [] := by
    intro front hfront hnewline hchop
    unfold logLines
    rw [lossy_bytesOf, ← List.append_assoc, lines_newline hnewline, lines_replicate, hchop]
    intro c hc
    rcases List.mem_append.mp hc with hc | hc
    · exact hfront c hc
    · exact hfill c hc
  have htail := hlines [] nofun (by decide) (by decide)
  have hwhole := hlines otherMac ascii_otherMac (by decide) (by decide)
  have hany : lineHasAnyMac (otherMac ++ labelLine) = some true := by decide +kernel
  have hnone : lineHasAnyMac labelLine = some false := by decide +kernel
  have hread : ipv6OnSerialLine (some "52:54:00:22:22:22") true labelLine =
      some (some "2405::1".toList) := by decide +kernel
  have hblank : ipv6OnSerialLine (some "52:54:00:22:22:22") true [] = some none := by
    decide +kernel
  have hwant : normalizeMac "52:54:00:22:22:22" = some "52:54:00:22:22:22" := by decide +kernel
  refine ⟨?_, ⟨labelLine, List.replicate (tailLen - 31) [], ?_, ?_, hread, ?_⟩, ?_⟩
  · have hmac : 0 < otherMac.length := by decide
    rw [hdata, List.length_append, hback, length_bytesOf_ascii ascii_otherMac]
    omega
  · rw [hdata, tailOf_append hback]
    exact htail
  · rw [carriesMac_iff_scan hnone]
    exact Bool.false_ne_true
  · intro l hl
    rw [List.eq_of_mem_replicate hl, hblank]
  · intro l hl hin
    have hl' : l ∈ (otherMac ++ labelLine) :: List.replicate (tailLen - 31) [] := hwhole ▸ hl
    rcases List.mem_cons.mp hl' with rfl | hl'
    · exact ⟨(carriesMac_iff_scan hany).mpr rfl, not_carriesNic_of hwant (by decide +kernel)⟩
    · rw [List.eq_of_mem_replicate hl', List.infix_nil] at hin
      exact absurd hin (by decide)

end Pertisk.SerialLog
