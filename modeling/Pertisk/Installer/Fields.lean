import Pertisk.Installer.Form
import Pertisk.Installer.Injected

namespace Pertisk.Installer
open Lib PeerUrl Volume

/-! ### Blanks of one side -/

/-- What only the form takes for a blank. -/
def formBlank (c : Char) : Bool := c.toNat == 0xFEFF

/-- What only the server takes for a blank. -/
def serverBlank (c : Char) : Bool := (0x1C ≤ c.toNat && c.toNat ≤ 0x1F) || c.toNat == 0x85

section blanks
variable {p q : Char → Bool} {s t : List Char} {c : Char}

theorem not_jsSpace (h : 33 ≤ c.toNat ∧ c.toNat ≤ 126) : jsSpace c = false := by
  simp only [jsSpace, isWhiteSpace, Bool.or_eq_false_iff, Bool.and_eq_false_iff,
    decide_eq_false_iff_not, beq_eq_false_iff_ne, bne_eq_false_iff_eq]
  omega

theorem jsSpace_imp : (jsSpace c = true → isSpace c = true) ↔ formBlank c = false := by
  simp only [jsSpace, isSpace, formBlank, isWhiteSpace, Bool.or_eq_true, Bool.and_eq_true,
    decide_eq_true_eq, beq_iff_eq, bne_iff_ne, beq_eq_false_iff_ne]
  omega

theorem isSpace_imp : (isSpace c = true → jsSpace c = true) ↔ serverBlank c = false := by
  simp only [jsSpace, isSpace, serverBlank, isWhiteSpace, Bool.or_eq_true, Bool.and_eq_true,
    decide_eq_true_eq, beq_iff_eq, bne_iff_ne, Bool.or_eq_false_iff, Bool.and_eq_false_iff,
    decide_eq_false_iff_not, beq_eq_false_iff_ne]
  omega

theorem mem_trim (hc : c ∈ s) (hp : p c = false) : c ∈ trimMatches p s := by
  obtain ⟨u, v, hs, hu, hv, -⟩ := trimMatches_split p s
  rw [hs, List.mem_append, List.mem_append] at hc
  rcases hc with (hc | hc) | hc
  · rw [hu c hc] at hp
    cases hp
  · exact hc
  · rw [hv c hc] at hp
    cases hp

theorem mem_of_mem_trim (hc : c ∈ trimMatches p s) : c ∈ s := by
  obtain ⟨u, v, hs, -⟩ := trimMatches_split p s
  rw [hs]
  exact List.mem_append_left _ (List.mem_append_right _ hc)

/-- Two trims cut the same away when what one cuts is blank for the other, and nothing else is. -/
theorem trim_of_imp (hm : ∀ c ∈ trimMatches p s, q c = false)
    (h : ∀ c ∈ s, p c = true → q c = true) : trimMatches q s = trimMatches p s := by
  obtain ⟨u, v, hs, hu, hv, -⟩ := trimMatches_split p s
  have hmem : ∀ {c}, c ∈ u ∨ c ∈ v → c ∈ s := by
    intro c hc
    rw [hs]
    simp only [List.mem_append]
    tauto
  conv_lhs => rw [hs]
  exact trimMatches_of_ends (fun c hc => h c (hmem (.inl hc)) (hu c hc))
    (fun c hc => hm c (List.mem_of_mem_head? hc)) (fun c hc => hm c (List.mem_of_getLast? hc))
    fun c hc => h c (hmem (.inr hc)) (hv c hc)

/-- A pattern without blanks sees no difference unless something is blank for one of them only. -/
theorem pattern_trim {f : List Char → Bool}
    (hf : ∀ t, f t = true → ∀ c ∈ t, p c = false ∧ q c = false) (h : f (trimMatches p s) = true) :
    f (trimMatches q s) = true ↔ ∀ c ∈ s, p c = true → q c = true := by
  constructor
  · intro hq c hc hpc
    by_contra hqc
    have hmem := mem_trim hc (Bool.eq_false_iff.mpr hqc)
    rw [(hf _ hq c hmem).1] at hpc
    cases hpc
  · intro himp
    rwa [trim_of_imp (fun c hc => (hf _ h c hc).2) himp]

end blanks

/-! ### The peer's URL -/

/-- A peer that is left away, or is a URL. -/
def PeerOk (blank : Char → Bool) (s : List Char) : Prop :=
  trimMatches blank s = [] ∨ urlBy blank (trimMatches blank s) = true

/-- How a peer that one side takes looks to the other, which does not: it begins with what is no
blank here, or has a blank in it, or nothing after the scheme. -/
def OddPeer (p q : Char → Bool) (t : List Char) : Prop :=
  t ≠ [] ∧ ((∃ c ∈ t.head?, p c = true) ∨ (∃ c ∈ t, q c = true) ∨ ∃ w ∈ schemes, t = w.toList)

section peer
variable {p q : Char → Bool} {s t : List Char}

theorem urlBy_iff : urlBy p t = true ↔
    ∃ w ∈ schemes, ∃ r, t = w.toList ++ r ∧ r ≠ [] ∧ ∀ c ∈ r, p c = false := by
  unfold urlBy
  simp only [List.any_eq_true, Bool.and_eq_true, startsWith, List.isPrefixOf_iff_prefix, many_iff,
    Bool.not_eq_true']
  constructor
  · rintro ⟨w, hw, ⟨r, rfl⟩, hne, hr⟩
    rw [← String.length_toList, List.drop_left] at hne hr
    exact ⟨w, hw, r, rfl, hne, hr⟩
  · rintro ⟨w, hw, r, rfl, hne, hr⟩
    refine ⟨w, hw, ⟨r, rfl⟩, ?_⟩
    rw [← String.length_toList, List.drop_left]
    exact ⟨hne, hr⟩

theorem scheme_eq : ∀ v ∈ schemes, ∀ w ∈ schemes, v.toList <+: w.toList → v = w := by decide

theorem scheme_head : ∀ w ∈ schemes, w.toList.head? = some 'h' ∧ w.toList.getLast? = some '/' ∧
    ∀ c ∈ w.toList, 33 ≤ c.toNat ∧ c.toNat ≤ 126 := by
  have hsolid : ∀ w ∈ schemes,
      w.toList.all (fun c => decide (33 ≤ c.toNat ∧ c.toNat ≤ 126)) = true := by decide
  have hends : ∀ w ∈ schemes, w.toList.head? = some 'h' ∧ w.toList.getLast? = some '/' := by
    decide
  intro w hw
  refine ⟨(hends w hw).1, (hends w hw).2, fun c hc => ?_⟩
  exact of_decide_eq_true (List.all_eq_true.mp (hsolid w hw) c hc)

/-- Where the text begins is the same for both, when neither takes its first character away. -/
theorem front_unique {u u' x y : List Char} {a c : Char} (hu : ∀ x ∈ u, p x = true)
    (hu' : ∀ x ∈ u', q x = true) (ha : q a = false) (hc : p c = false)
    (heq : u ++ a :: x = u' ++ c :: y) : a :: x = c :: y := by
  rcases List.append_eq_append_iff.mp heq with ⟨k, rfl, hk⟩ | ⟨k, rfl, hk⟩
  · cases k with
    | nil => exact hk
    | cons b k =>
      obtain ⟨rfl, -⟩ := List.cons.inj hk
      rw [hu' a (by simp)] at ha
      cases ha
  · cases k with
    | nil => exact hk.symm
    | cons b k =>
      obtain ⟨rfl, -⟩ := List.cons.inj hk
      rw [hu c (by simp)] at hc
      cases hc

/-- The scheme stands first for the other side too. -/
theorem scheme_first {w : String} {r v v' t : List Char} (hw : w ∈ schemes)
    (hq : ∀ {c : Char}, 33 ≤ c.toNat ∧ c.toNat ≤ 126 → q c = false) (hv' : ∀ c ∈ v', q c = true)
    (heq : w.toList ++ (r ++ v) = t ++ v') : ∃ k, t = w.toList ++ k := by
  obtain ⟨-, hlast, hsolid⟩ := scheme_head w hw
  rcases List.append_eq_append_iff.mp heq with ⟨k, rfl, -⟩ | ⟨k, hk, hv⟩
  · exact ⟨k, rfl⟩
  · by_cases hnil : k = []
    · exact ⟨[], by rw [hk, hnil, List.append_nil, List.append_nil]⟩
    · have hmem : k.getLast hnil ∈ v' := by
        rw [hv]
        exact List.mem_append_left _ (List.getLast_mem hnil)
      have hsolid := hq (hsolid (k.getLast hnil) (by
        rw [hk]
        exact List.mem_append_right _ (List.getLast_mem hnil)))
      rw [hv' _ hmem] at hsolid
      cases hsolid

/-- What one side takes and the other does not. -/
theorem peer_trim (hp : ∀ {c : Char}, 33 ≤ c.toNat ∧ c.toNat ≤ 126 → p c = false)
    (hq : ∀ {c : Char}, 33 ≤ c.toNat ∧ c.toNat ≤ 126 → q c = false) (h : PeerOk p s) :
    ¬ PeerOk q s ↔ OddPeer p q (trimMatches q s) := by
  constructor
  · intro hno
    obtain ⟨hne, hurl⟩ := not_or.mp hno
    refine ⟨hne, ?_⟩
    by_cases hfirst : ∃ c ∈ (trimMatches q s).head?, p c = true
    · exact .inl hfirst
    · by_cases hblank : ∃ c ∈ trimMatches q s, q c = true
      · exact .inr (.inl hblank)
      · refine .inr (.inr ?_)
        obtain ⟨c, t, ht⟩ := List.exists_cons_of_ne_nil hne
        have hpc : p c = false := by
          refine Bool.eq_false_iff.mpr fun hpc => hfirst ⟨c, ?_, hpc⟩
          rw [ht]
          rfl
        have hmem : c ∈ trimMatches p s :=
          mem_trim (mem_of_mem_trim (by rw [ht]; exact List.mem_cons_self)) hpc
        rcases h with hnil | hurl'
        · rw [hnil] at hmem
          cases hmem
        · obtain ⟨w, hw, r, hj, -⟩ := urlBy_iff.mp hurl'
          obtain ⟨u, v, hs, hu, -⟩ := trimMatches_split p s
          obtain ⟨u', v', hs', hu', hv', -⟩ := trimMatches_split q s
          obtain ⟨a, w', hwa⟩ : ∃ a w', w.toList = a :: w' :=
            ⟨'h', _, List.eq_cons_of_mem_head? (scheme_head w hw).1⟩
          have ha : q a = false := hq ((scheme_head w hw).2.2 a (by rw [hwa]; exact List.mem_cons_self))
          rw [hj, hwa] at hs
          rw [ht, hs] at hs'
          simp only [List.append_assoc, List.cons_append] at hs'
          have hfront := front_unique hu hu' ha hpc hs'
          obtain ⟨k, hk⟩ := scheme_first (t := c :: t) (r := r) (v := v) hw hq hv' (by
            rw [hwa]
            simpa using hfront)
          rw [ht] at hurl hblank ⊢
          refine ⟨w, hw, ?_⟩
          by_cases hnil : k = []
          · rw [hk, hnil, List.append_nil]
          · refine absurd (urlBy_iff.mpr ⟨w, hw, k, hk, hnil, fun x hx => ?_⟩) hurl
            refine Bool.eq_false_iff.mpr fun hqx => hblank ⟨x, ?_, hqx⟩
            rw [hk]
            exact List.mem_append_right _ hx
  · rintro ⟨hne, hodd⟩ (hnil | hurl)
    · exact hne hnil
    · obtain ⟨w, hw, r, ht, hr, hblank⟩ := urlBy_iff.mp hurl
      obtain ⟨hfirst, -, hsolid⟩ := scheme_head w hw
      rw [ht] at hodd
      rcases hodd with ⟨c, hc, hpc⟩ | ⟨c, hc, hqc⟩ | ⟨v, hv, heq⟩
      · rw [List.head?_append, hfirst] at hc
        cases hc
        rw [hp (by decide)] at hpc
        cases hpc
      · rcases List.mem_append.mp hc with hc | hc
        · rw [hq (hsolid c hc)] at hqc
          cases hqc
        · rw [hblank c hc] at hqc
          cases hqc
      · have hvw := scheme_eq w hw v hv (heq ▸ List.prefix_append _ _)
        subst hvw
        exact hr (List.append_right_eq_self.mp heq)

end peer

/-! ### Python's `int` -/

section pyInt
variable {d : Decimals} {s ds : List Char} {z : ℤ} {ns : List ℕ}

theorem trim_self {p : Char → Bool} (h : ∀ c ∈ s, p c = false) : trimMatches p s = s := by
  have htrim := trimMatches_of_ends (p := p) (u := []) (v := []) nofun
    (fun c hc => h c (List.mem_of_mem_head? hc)) (fun c hc => h c (List.mem_of_getLast? hc)) nofun
  rwa [List.nil_append, List.append_nil] at htrim

theorem value_digit {c : Char} (h : c.isDigit = true) : d.value c = some (c.toNat - 48) := by
  have hsolid := solid_of_isAlphanum (isAlphanum_of_isDigit h)
  rw [d.ascii (by omega), if_pos h]

theorem intDigits_digits (hne : ds ≠ []) (h : ∀ c ∈ ds, c.isDigit = true) :
    intDigits d ds = some (ds.map fun c => c.toNat - 48) := by
  induction ds with
  | nil => exact absurd rfl hne
  | cons c ds ih =>
    obtain ⟨hc, hds⟩ := List.forall_mem_cons.mp h
    cases ds with
    | nil => rw [intDigits, value_digit hc, Option.map_some, List.map_singleton]
    | cons b ds =>
      have hb : b ≠ '_' := by
        rintro rfl
        exact absurd (List.forall_mem_cons.mp hds).1 (by decide)
      rw [intDigits.eq_4 _ _ _ (by simp) (by simpa using fun h => absurd h hb), value_digit hc,
        ih (List.cons_ne_nil _ _) hds]
      rfl

theorem intDigits_chars (h : intDigits d s = some ns) :
    s ≠ [] ∧ ∀ c ∈ s, (∃ n, d.value c = some n) ∨ c = '_' := by
  induction s using intDigits.induct generalizing ns with
  | case1 => cases h
  | case2 c =>
    obtain ⟨n, hn, -⟩ := Option.map_eq_some_iff.mp h
    exact ⟨List.cons_ne_nil _ _, List.forall_mem_cons.mpr ⟨.inl ⟨n, hn⟩, nofun⟩⟩
  | case3 c s ih =>
    obtain ⟨n, hn, h⟩ := Option.bind_eq_some_iff.mp h
    obtain ⟨ms, hms, -⟩ := Option.map_eq_some_iff.mp h
    exact ⟨List.cons_ne_nil _ _, List.forall_mem_cons.mpr ⟨.inl ⟨n, hn⟩,
      List.forall_mem_cons.mpr ⟨.inr rfl, (ih hms).2⟩⟩⟩
  | case4 c s h₁ h₂ ih =>
    rw [intDigits.eq_4 _ _ _ h₁ h₂] at h
    obtain ⟨n, hn, h⟩ := Option.bind_eq_some_iff.mp h
    obtain ⟨ms, hms, -⟩ := Option.map_eq_some_iff.mp h
    exact ⟨List.cons_ne_nil _ _, List.forall_mem_cons.mpr ⟨.inl ⟨n, hn⟩, (ih hms).2⟩⟩

theorem pyInt_eq (d : Decimals) (s : List Char) : pyInt d s =
    (intDigits d (signed (strip s)).2).bind fun ns =>
      if maxStrDigits < ns.length then none else some ((signed (strip s)).1 * natOf ns) := by
  unfold pyInt
  dsimp only
  rcases signed_cases (strip s) with ⟨hminus, hplus, hs⟩ | ⟨t, ht, hs⟩ | ⟨t, ht, hs⟩
  · rw [hs, if_neg (not_or.mpr ⟨hminus, hplus⟩)]
    simp only [if_neg hminus, one_mul]
  · rw [hs, ht]
    simp
  · rw [hs, ht]
    simp

theorem pyInt_digits (hs : signed (strip s) = (z, ds)) (hne : ds ≠ [])
    (h : ∀ c ∈ ds, c.isDigit = true) :
    pyInt d s = if maxStrDigits < ds.length then none else some (z * digitValue ds) := by
  rw [pyInt_eq, hs, intDigits_digits hne h, Option.bind_some, List.length_map]
  rfl

end pyInt

/-! ### Addresses -/

section addresses
variable {d : Decimals} {s part : List Char}

def NoLeadingZero (part : List Char) : Prop := part.length = 1 ∨ part.head? ≠ some '0'

theorem digitValue_eq (s : List Char) : digitValue s = Nat.ofDigitChars 10 s 0 := by
  rw [digitValue, natOf, List.foldl_map, Nat.ofDigitChars_eq_foldl]
  rfl

theorem octetOk_toDigits : ∀ n < 256, octetOk (Nat.toDigits 10 n) = true ∧
    NoLeadingZero (Nat.toDigits 10 n) := by
  unfold NoLeadingZero
  decide +kernel

theorem octet_iff : (match pyInt d part with
    | none => false
    | some n => decide (0 ≤ n) && decide (n ≤ 255) && (toString n).toList == part) = true ↔
    octetOk part = true ∧ NoLeadingZero part := by
  constructor
  · intro h
    split at h
    · cases h
    · rename_i n hn
      simp only [Bool.and_eq_true, decide_eq_true_eq, beq_iff_eq] at h
      obtain ⟨⟨hlow, hhigh⟩, rfl⟩ := h
      obtain ⟨k, rfl⟩ := Int.eq_ofNat_of_zero_le hlow
      have htext : (toString (k : ℤ)).toList = Nat.toDigits 10 k := toList_toString k
      rw [htext]
      exact octetOk_toDigits k (by omega)
  · rintro ⟨hoctet, hzero⟩
    simp only [octetOk, Bool.and_eq_true, Bool.not_eq_true', List.isEmpty_eq_false_iff,
      List.all_eq_true, decide_eq_true_eq] at hoctet
    obtain ⟨⟨⟨hne, hlen⟩, hdigits⟩, hvalue⟩ := hoctet
    have hsolid : ∀ c ∈ part, isSpace c = false := fun c hc =>
      not_isSpace (solid_of_isAlphanum (isAlphanum_of_isDigit (hdigits c hc)))
    have hsigned : signed (strip part) = (1, part) := by
      rw [strip, trim_self hsolid]
      rcases signed_cases part with ⟨-, -, hs⟩ | ⟨t, rfl, -⟩ | ⟨t, rfl, -⟩
      · exact hs
      · exact absurd (hdigits '-' List.mem_cons_self) (by decide)
      · exact absurd (hdigits '+' List.mem_cons_self) (by decide)
    have hint : pyInt d part = some (digitValue part : ℤ) := by
      rw [pyInt_digits hsigned hne hdigits, one_mul, if_neg]
      exact Nat.not_lt.mpr (Nat.le_trans hlen (by decide))
    have htext : (toString ((digitValue part : ℕ) : ℤ)).toList = part :=
      (toList_toString _).trans (by rw [digitValue_eq]; exact toDigits_ofDigitChars hne hdigits hzero)
    rw [hint]
    simp only [htext, beq_self_eq_true, Bool.and_true, Bool.and_eq_true, decide_eq_true_eq]
    omega

/-- The server takes what the form takes, less a zero in front. -/
theorem ipv4Ok_iff : ipv4Ok d s = true ↔
    octets s = true ∧ ∀ part ∈ s.splitOn '.', NoLeadingZero part := by
  unfold ipv4Ok octets
  simp only [Bool.and_eq_true, List.all_eq_true]
  constructor
  · rintro ⟨hlen, hparts⟩
    exact ⟨⟨hlen, fun part hpart => (octet_iff.mp (hparts part hpart)).1⟩,
      fun part hpart => (octet_iff.mp (hparts part hpart)).2⟩
  · rintro ⟨⟨hlen, hparts⟩, hzero⟩
    exact ⟨hlen, fun part hpart => octet_iff.mpr ⟨hparts part hpart, hzero part hpart⟩⟩

theorem octets_solid (h : octets s = true) : ∀ c ∈ s, 33 ≤ c.toNat ∧ c.toNat ≤ 126 := by
  simp only [octets, Bool.and_eq_true, List.all_eq_true] at h
  intro c hc
  rcases mem_splitOn '.' hc with rfl | ⟨part, hpart, hmem⟩
  · decide
  · have hoctet := h.2 part hpart
    simp only [octetOk, Bool.and_eq_true, List.all_eq_true] at hoctet
    exact solid_of_isAlphanum (isAlphanum_of_isDigit (hoctet.1.2 c hmem))

theorem octets_unblank (t : List Char) (h : octets t = true) :
    ∀ c ∈ t, jsSpace c = false ∧ isSpace c = false :=
  fun c hc => ⟨not_jsSpace (octets_solid h c hc), not_isSpace (octets_solid h c hc)⟩

theorem address_form (h : ipv4 s = true) : ipv4Ok d (strip s) = true ↔
    (∀ c ∈ s, formBlank c = false) ∧ ∀ part ∈ (jsTrim s).splitOn '.', NoLeadingZero part := by
  have hoctets : octets (strip s) = true ↔ ∀ c ∈ s, jsSpace c = true → isSpace c = true :=
    pattern_trim octets_unblank h
  rw [ipv4Ok_iff, hoctets, forall₂_congr fun c _ => jsSpace_imp]
  refine and_congr_right fun himp => ?_
  have heq : strip s = jsTrim s := trim_of_imp (fun c hc => (octets_unblank _ h c hc).2)
    fun c hc => jsSpace_imp.mpr (himp c hc)
  rw [heq]

theorem address_server (h : ipv4Ok d (strip s) = true) :
    ipv4 s = true ↔ ∀ c ∈ s, serverBlank c = false := by
  rw [← forall₂_congr fun c (_ : c ∈ s) => isSpace_imp]
  exact pattern_trim (fun t ht c hc => (octets_unblank t ht c hc).symm) (ipv4Ok_iff.mp h).1

end addresses

/-! ### The prefix -/

/-- A prefix of digits alone, a sign before them at most, and not more than `int` takes. -/
structure PlainPrefix (s : List Char) : Prop where
  blanks : ∀ c ∈ s, formBlank c = false
  digits : ∀ c ∈ (signed (jsTrim s)).2, c.isDigit = true
  length : (signed (jsTrim s)).2.length ≤ maxStrDigits

/-- The server's check of the prefix. -/
def ServerPrefix (d : Decimals) (s : List Char) : Prop :=
  1 ≤ (pyInt d (strip s)).getD 0 ∧ (pyInt d (strip s)).getD 0 ≤ 32

/-- What the form makes of any number's text: a blank, a digit or a sign. -/
def numeral (c : Char) : Bool := jsSpace c || c.isDigit || c == '+' || c == '-'

section prefixes
variable {d : Decimals} {s : List Char} {z : ℤ} {ds : List Char}

theorem solid_sign {c : Char} (h : c = '+' ∨ c = '-') : 33 ≤ c.toNat ∧ c.toNat ≤ 126 := by
  rcases h with rfl | rfl <;> decide

theorem solid_numberChar {c : Char} (h : numberChar c) : 33 ≤ c.toNat ∧ c.toNat ≤ 126 := by
  rcases h with h | rfl | h
  · exact solid_of_isAlphanum h
  · decide
  · exact solid_sign h

/-- A text is its sign and the rest. -/
theorem mem_signed {c : Char} (hc : c ∈ s) : c ∈ (signed s).2 ∨ c = '+' ∨ c = '-' := by
  rcases signed_cases s with ⟨-, -, hs⟩ | ⟨t, rfl, hs⟩ | ⟨t, rfl, hs⟩
  · rw [hs]
    exact .inl hc
  · rw [hs]
    rcases List.mem_cons.mp hc with rfl | hc
    · exact .inr (.inr rfl)
    · exact .inl hc
  · rw [hs]
    rcases List.mem_cons.mp hc with rfl | hc
    · exact .inr (.inl rfl)
    · exact .inl hc

theorem mem_of_mem_signed {c : Char} (hc : c ∈ (signed s).2) : c ∈ s := by
  rcases signed_cases s with ⟨-, -, hs⟩ | ⟨t, rfl, hs⟩ | ⟨t, rfl, hs⟩ <;> rw [hs] at hc
  · exact hc
  · exact List.mem_cons_of_mem _ hc
  · exact List.mem_cons_of_mem _ hc

/-- A sign alone is no number, and no text is zero. -/
theorem prefixOk_ne_nil (h : prefixOk s = true) : (signed (jsTrim s)).2 ≠ [] := by
  intro hnil
  unfold prefixOk number at h
  rcases signed_cases (jsTrim s) with ⟨-, -, hs⟩ | ⟨t, ht, hs⟩ | ⟨t, ht, hs⟩
  · rw [hs] at hnil
    rw [show jsTrim s = [] from hnil] at h
    exact absurd h (by decide)
  · rw [hs] at hnil
    rw [ht, show t = [] from hnil] at h
    exact Bool.false_ne_true h
  · rw [hs] at hnil
    rw [ht, show t = [] from hnil] at h
    exact Bool.false_ne_true h

theorem strip_strip (s : List Char) : strip (strip s) = strip s := by
  obtain ⟨u, v, -, -, -, hfirst, hlast⟩ := trimMatches_split isSpace s
  have htrim := trimMatches_of_ends (p := isSpace) (u := []) (v := []) nofun hfirst hlast nofun
  rwa [List.nil_append, List.append_nil] at htrim

/-- What the server's prefix is, where both sides find the same digits. -/
theorem serverPrefix_digits (hs : signed (strip s) = (z, ds)) (hne : ds ≠ [])
    (h : ∀ c ∈ ds, c.isDigit = true) :
    ServerPrefix d s ↔ ds.length ≤ maxStrDigits ∧ z = 1 ∧ 1 ≤ digitValue ds ∧ digitValue ds ≤ 32 := by
  have hsign : z = 1 ∨ z = -1 := by
    rcases signed_cases (strip s) with ⟨-, -, heq⟩ | ⟨t, -, heq⟩ | ⟨t, -, heq⟩ <;>
      rw [heq] at hs <;> cases hs
    · exact .inl rfl
    · exact .inr rfl
    · exact .inl rfl
  unfold ServerPrefix
  rw [pyInt_digits (by rw [strip_strip]; exact hs) hne h]
  split
  · rename_i hlong
    exact iff_of_false (fun habs => absurd habs.1 (by decide)) fun habs => absurd habs.1 (by omega)
  · rw [Option.getD_some]
    rcases hsign with rfl | rfl <;> omega

theorem serverPrefix_chars (h : ServerPrefix d s) : (signed (strip s)).2 ≠ [] ∧
    ∀ c ∈ (signed (strip s)).2, (∃ n, d.value c = some n) ∨ c = '_' := by
  unfold ServerPrefix at h
  rw [pyInt_eq, strip_strip] at h
  cases hint : intDigits d (signed (strip s)).2 with
  | none =>
    rw [hint, Option.bind_none, Option.getD_none] at h
    exact absurd h.1 (by decide)
  | some ns => exact intDigits_chars hint

theorem isDigit_of_value {c : Char} {n : ℕ} (h : d.value c = some n) (hc : c.toNat < 128) :
    c.isDigit = true := by
  rw [d.ascii hc] at h
  exact (Option.ite_none_right_eq_some.mp h).1

theorem strip_eq_jsTrim (h : ∀ c ∈ jsTrim s, 33 ≤ c.toNat ∧ c.toNat ≤ 126)
    (hblanks : ∀ c ∈ s, formBlank c = false) : strip s = jsTrim s :=
  trim_of_imp (fun c hc => not_isSpace (h c hc)) fun c hc => jsSpace_imp.mpr (hblanks c hc)

/-- The server takes a prefix that the form takes exactly when it is plain. -/
theorem prefix_form (h : prefixOk s = true) : ServerPrefix d s ↔ PlainPrefix s := by
  have hne := prefixOk_ne_nil h
  have hsolid : ∀ c ∈ jsTrim s, 33 ≤ c.toNat ∧ c.toNat ≤ 126 := by
    unfold prefixOk at h
    split at h
    · cases h
    · rename_i q hq
      exact fun c hc => solid_numberChar (numberChar_number hq c hc)
  constructor
  · intro hserver
    obtain ⟨-, hchars⟩ := serverPrefix_chars hserver
    have hblanks : ∀ c ∈ s, formBlank c = false := by
      intro c hc
      by_contra hblank
      have hfeff : c.toNat = 0xFEFF := by simpa [formBlank] using hblank
      have hspace : isSpace c = false := by
        simp only [isSpace, isWhiteSpace, hfeff]
        decide
      rcases mem_signed (mem_trim hc hspace) with hc | hc
      · rcases hchars c hc with ⟨n, hn⟩ | rfl
        · exact (d.inked hn).2 hfeff
        · exact absurd hfeff (by decide)
      · have := solid_sign hc
        omega
    have heq := strip_eq_jsTrim hsolid hblanks
    have hdigits : ∀ c ∈ (signed (jsTrim s)).2, c.isDigit = true := by
      intro c hc
      have hsol := hsolid c (mem_of_mem_signed hc)
      rcases hchars c (by rwa [heq]) with ⟨n, hn⟩ | rfl
      · exact isDigit_of_value hn (by omega)
      · unfold prefixOk at h
        split at h
        · cases h
        · rename_i q hq
          rcases numberChar_number hq '_' (mem_of_mem_signed hc) with habs | habs | habs | habs
          all_goals exact absurd habs (by decide)
    exact ⟨hblanks, hdigits, ((serverPrefix_digits (by rw [heq]) hne hdigits).mp hserver).1⟩
  · rintro ⟨hblanks, hdigits, hlen⟩
    have heq := strip_eq_jsTrim hsolid hblanks
    exact (serverPrefix_digits (z := (signed (jsTrim s)).1) (by rw [heq]) hne hdigits).mpr
      ⟨hlen, (prefixOk_digits rfl hne hdigits).mp h⟩

/-- The form takes a prefix that the server takes exactly when it is numerals. -/
theorem prefix_server (h : ServerPrefix d s) :
    prefixOk s = true ↔ ∀ c ∈ s, numeral c = true := by
  obtain ⟨hne, hchars⟩ := serverPrefix_chars h
  constructor
  · intro hform c hc
    have hplain := (prefix_form hform).mp h
    by_cases hspace : jsSpace c = true
    · simp [numeral, hspace]
    · rcases mem_signed (mem_trim hc (Bool.eq_false_iff.mpr hspace)) with hc | rfl | rfl
      · simp [numeral, hplain.digits c hc]
      · decide
      · decide
  · intro hall
    have hnumeral : ∀ c ∈ s, jsSpace c = true ∨ c.isDigit = true ∨ c = '+' ∨ c = '-' := by
      intro c hc
      have := hall c hc
      simp only [numeral, Bool.or_eq_true, beq_iff_eq] at this
      tauto
    have hdigits : ∀ c ∈ (signed (strip s)).2, c.isDigit = true := by
      intro c hc
      rcases hchars c hc with ⟨n, hn⟩ | rfl
      · rcases hnumeral c (mem_of_mem_trim (mem_of_mem_signed hc)) with hspace | hdigit | hsign
        · obtain ⟨hink, hfeff⟩ := d.inked hn
          have hblank : formBlank c = false := by simpa [formBlank] using hfeff
          rw [jsSpace_imp.mpr hblank hspace] at hink
          cases hink
        · exact hdigit
        · have := solid_sign hsign
          exact isDigit_of_value hn (by omega)
      · exact absurd (hall '_' (mem_of_mem_trim (mem_of_mem_signed hc))) (by decide)
    have hsolid : ∀ c ∈ strip s, 33 ≤ c.toNat ∧ c.toNat ≤ 126 := by
      intro c hc
      rcases mem_signed hc with hc | hc
      · exact solid_of_isAlphanum (isAlphanum_of_isDigit (hdigits c hc))
      · exact solid_sign hc
    have heq : jsTrim s = strip s := by
      refine trim_of_imp (fun c hc => not_jsSpace (hsolid c hc)) fun c hc hspace => ?_
      rcases hnumeral c hc with hjs | hdigit | hsign
      · exact hjs
      · rw [not_isSpace (solid_of_isAlphanum (isAlphanum_of_isDigit hdigit))] at hspace
        cases hspace
      · rw [not_isSpace (solid_sign hsign)] at hspace
        cases hspace
    exact (prefixOk_digits (z := (signed (strip s)).1) (by rw [heq]) hne hdigits).mpr
      ((serverPrefix_digits rfl hne hdigits).mp h).2

end prefixes

/-! ### Passwords -/

section passwords
variable {pw : String}

/-- What the server asks of a password. -/
structure ServerPassword (pw : String) : Prop where
  length : 8 ≤ pw.length
  chars : ':' ∉ pw.toList ∧ '\n' ∉ pw.toList ∧ '\r' ∉ pw.toList ∧ '\x00' ∉ pw.toList

theorem length_units (c : Char) : 1 ≤ (Utf16.units c).length := by
  unfold Utf16.units
  split <;> simp

theorem length_le_jsLength (pw : String) : pw.length ≤ jsLength pw := by
  rw [jsLength, ← String.length_toList]
  induction pw.toList with
  | nil => exact Nat.le_refl _
  | cons c cs ih =>
    have hc := length_units c
    rw [Utf16.encode, List.flatMap_cons, List.length_append, List.length_cons]
    rw [Utf16.encode] at ih
    omega

theorem passwordIssue_eq : passwordIssue pw = "" ↔
    8 ≤ jsLength pw ∧ ':' ∉ pw.toList ∧ '\n' ∉ pw.toList := by
  unfold passwordIssue
  split_ifs with hempty hshort hchars
  · subst hempty
    decide
  · exact iff_of_false (by decide) fun h => absurd h.1 (Nat.not_le.mpr hshort)
  · exact iff_of_false (by decide) fun h => hchars.elim h.2.1 h.2.2
  · exact iff_of_true rfl ⟨Nat.not_lt.mp hshort, not_or.mp hchars⟩

theorem password_ok {label text : String} : password pw label = .ok text ↔
    text = pw ∧ ServerPassword pw := by
  unfold password
  split_ifs with hempty hshort hchars
  · subst hempty
    exact iff_of_false (fun h => nomatch h) fun h => absurd h.2.length (by decide)
  · exact iff_of_false (fun h => nomatch h) fun h => absurd h.2.length (Nat.not_le.mpr hshort)
  · obtain ⟨c, hc, hbad⟩ := List.any_eq_true.mp hchars
    refine iff_of_false (fun h => nomatch h) fun ⟨_, _, h₁, h₂, h₃, h₄⟩ => ?_
    rcases of_decide_eq_true hbad with rfl | rfl | rfl | rfl
    · exact h₁ hc
    · exact h₂ hc
    · exact h₃ hc
    · exact h₄ hc
  · refine ⟨fun h => ⟨(Except.ok.inj h).symm, Nat.not_lt.mp hshort, ?_⟩, fun h => by rw [h.1]⟩
    have hnone : ∀ c ∈ pw.toList, ¬ (c = ':' ∨ c = '\n' ∨ c = '\r' ∨ c = '\x00') := fun c hc hbad =>
      hchars (List.any_eq_true.mpr ⟨c, hc, decide_eq_true hbad⟩)
    exact ⟨fun h => hnone _ h (by decide), fun h => hnone _ h (by decide),
      fun h => hnone _ h (by decide), fun h => hnone _ h (by decide)⟩

theorem password_form (h : passwordIssue pw = "") : ServerPassword pw ↔
    8 ≤ pw.length ∧ '\r' ∉ pw.toList ∧ '\x00' ∉ pw.toList := by
  obtain ⟨-, hcolon, hnewline⟩ := passwordIssue_eq.mp h
  exact ⟨fun ⟨hlen, _, _, hreturn, hzero⟩ => ⟨hlen, hreturn, hzero⟩,
    fun ⟨hlen, hreturn, hzero⟩ => ⟨hlen, hcolon, hnewline, hreturn, hzero⟩⟩

theorem password_server (h : ServerPassword pw) : passwordIssue pw = "" :=
  passwordIssue_eq.mpr ⟨Nat.le_trans h.length (length_le_jsLength pw), h.chars.1, h.chars.2.1⟩

end passwords

end Pertisk.Installer
