import Mathlib.Data.Finset.Card
import Pertisk.Net.Addresses

namespace Pertisk.Net

/-- Six pairs of hex digits with colons between them. -/
def IsMac (mac : String) : Prop :=
  ∃ pairs : List (Char × Char), pairs.length = 6 ∧
    (∀ p ∈ pairs, isHexdigit p.1 = true ∧ isHexdigit p.2 = true) ∧
    mac.toList = [':'].intercalate (pairs.map fun p => [p.1, p.2])

/-- An address as the guests of a node have it, and its own normal form. -/
structure GuestMac (mac : String) : Prop where
  text : IsMac mac
  start : "52:54:00:".toList <+: mac.toList
  normal : normalizeMac mac = some mac

/-! ### Digits -/

theorem digitChar_hex : ∀ d < 16, isHexdigit d.digitChar = true ∧
    d.digitChar.toLower = d.digitChar ∧ hexValue d.digitChar = d := by decide

theorem high_lt {n : ℕ} (h : n < 256) : n / 16 < 16 := by omega

theorem low_lt (n : ℕ) : n % 16 < 16 := Nat.mod_lt n (by decide)

section text
variable {a b c : ℕ}

theorem toList_macText (a b c : ℕ) : (macText a b c).toList =
    ['5', '2', ':', '5', '4', ':', '0', '0', ':', (a / 16).digitChar, (a % 16).digitChar, ':',
      (b / 16).digitChar, (b % 16).digitChar, ':', (c / 16).digitChar, (c % 16).digitChar] := by
  have hself : ∀ s : String, toString s = s := fun _ => rfl
  simp [macText, hexByte, hself]

/-- The digits of the last three bytes. -/
def macDigits (a b c : ℕ) : List Char :=
  [a / 16, a % 16, b / 16, b % 16, c / 16, c % 16].map Nat.digitChar

theorem macDigits_hex (ha : a < 256) (hb : b < 256) (hc : c < 256) :
    ∀ d ∈ [a / 16, a % 16, b / 16, b % 16, c / 16, c % 16], d < 16 := by
  simp only [List.forall_mem_cons]
  exact ⟨high_lt ha, low_lt a, high_lt hb, low_lt b, high_lt hc, low_lt c, nofun⟩

theorem hexDigits_macText (ha : a < 256) (hb : b < 256) (hc : c < 256) :
    hexDigits (macText a b c) = ['5', '2', '5', '4', '0', '0'] ++ macDigits a b c := by
  have hcolon : isHexdigit ':' = false := by decide
  have hstart : isHexdigit '5' = true ∧ isHexdigit '2' = true ∧ isHexdigit '4' = true ∧
      isHexdigit '0' = true := by decide
  have hhex := macDigits_hex ha hb hc
  simp only [List.forall_mem_cons] at hhex
  obtain ⟨h₁, h₂, h₃, h₄, h₅, h₆, -⟩ := hhex
  simp only [hexDigits, toList_macText, macDigits, List.filter_cons, hcolon, hstart,
    (digitChar_hex _ h₁).1, (digitChar_hex _ h₂).1, (digitChar_hex _ h₃).1,
    (digitChar_hex _ h₄).1, (digitChar_hex _ h₅).1, (digitChar_hex _ h₆).1, if_true,
    Bool.false_eq_true, if_false, List.filter_nil, List.map_cons, List.map_nil, List.cons_append,
    List.nil_append]

/-- An address that was written is in its normal form. -/
theorem normalizeMac_macText (ha : a < 256) (hb : b < 256) (hc : c < 256) :
    normalizeMac (macText a b c) = some (macText a b c) := by
  have hlower : (hexDigits (macText a b c)).map Char.toLower = hexDigits (macText a b c) := by
    rw [hexDigits_macText ha hb hc, List.map_append]
    refine congrArg₂ _ (by decide) ?_
    rw [macDigits, List.map_map]
    exact List.map_congr_left fun d hd => (digitChar_hex d (macDigits_hex ha hb hc d hd)).2.1
  unfold normalizeMac
  rw [hlower, hexDigits_macText ha hb hc]
  refine (if_neg (by simp [macDigits])).trans (congrArg some (String.toList_inj.mp ?_))
  rw [String.toList_ofList, toList_macText]
  rfl

theorem isMac_macText (ha : a < 256) (hb : b < 256) (hc : c < 256) : IsMac (macText a b c) := by
  have hhex := macDigits_hex ha hb hc
  simp only [List.forall_mem_cons] at hhex
  obtain ⟨h₁, h₂, h₃, h₄, h₅, h₆, -⟩ := hhex
  refine ⟨[('5', '2'), ('5', '4'), ('0', '0'), ((a / 16).digitChar, (a % 16).digitChar),
    ((b / 16).digitChar, (b % 16).digitChar), ((c / 16).digitChar, (c % 16).digitChar)], rfl,
    ?_, ?_⟩
  · simp only [List.forall_mem_cons]
    exact ⟨by decide, by decide, by decide, ⟨(digitChar_hex _ h₁).1, (digitChar_hex _ h₂).1⟩,
      ⟨(digitChar_hex _ h₃).1, (digitChar_hex _ h₄).1⟩,
      ⟨(digitChar_hex _ h₅).1, (digitChar_hex _ h₆).1⟩, nofun⟩
  · rw [toList_macText]
    rfl

theorem guestMac_macText (ha : a < 256) (hb : b < 256) (hc : c < 256) : GuestMac (macText a b c) :=
  ⟨isMac_macText ha hb hc, ⟨_, (toList_macText a b c).symm⟩, normalizeMac_macText ha hb hc⟩

end text

/-! ### The addresses that the search visits -/

/-- The guest address with this number in its last three bytes. -/
def tailMac (tail : ℕ) : String :=
  macText (tail / 2 ^ 16 % 256) (tail / 2 ^ 8 % 256) (tail % 256)

theorem byte_lt (n : ℕ) : n % 256 < 256 := Nat.mod_lt n (by decide)

theorem guestMac_tailMac (tail : ℕ) : GuestMac (tailMac tail) :=
  guestMac_macText (byte_lt _) (byte_lt _) (byte_lt _)

/-- The bytes of a written address, as they are read back. -/
theorem bumpQemuMac_macText {a b c : ℕ} (ha : a < 256) (hb : b < 256) (hc : c < 256) :
    bumpQemuMac (macText a b c) = tailMac ((a * 2 ^ 16 + b * 2 ^ 8 + c + 1) % 2 ^ 24) := by
  have hhex := macDigits_hex ha hb hc
  simp only [List.forall_mem_cons] at hhex
  obtain ⟨h₁, h₂, h₃, h₄, h₅, h₆, -⟩ := hhex
  have hchunks : ∀ d₁ d₂ d₃ d₄ d₅ d₆ : Char,
      (['5', '2', '5', '4', '0', '0'] ++ [d₁, d₂, d₃, d₄, d₅, d₆]).toChunks 2 =
        [['5', '2'], ['5', '4'], ['0', '0'], [d₁, d₂], [d₃, d₄], [d₅, d₆]] :=
    fun _ _ _ _ _ _ => rfl
  unfold bumpQemuMac
  rw [hexDigits_macText ha hb hc]
  simp only [macDigits, List.map_cons, List.map_nil, hchunks, List.foldl_cons, List.foldl_nil,
    (digitChar_hex _ h₁).2.2, (digitChar_hex _ h₂).2.2, (digitChar_hex _ h₃).2.2,
    (digitChar_hex _ h₄).2.2, (digitChar_hex _ h₅).2.2, (digitChar_hex _ h₆).2.2,
    List.getElem?_cons_succ, List.getElem?_cons_zero, Option.getD_some, Nat.mul_zero, Nat.zero_add,
    Nat.div_add_mod]
  rfl

theorem bumpQemuMac_tailMac {tail : ℕ} (h : tail < 2 ^ 24) :
    bumpQemuMac (tailMac tail) = tailMac ((tail + 1) % 2 ^ 24) := by
  rw [tailMac, bumpQemuMac_macText (byte_lt _) (byte_lt _) (byte_lt _)]
  have hsum : tail / 2 ^ 16 % 256 * 2 ^ 16 + tail / 2 ^ 8 % 256 * 2 ^ 8 + tail % 256 = tail := by
    omega
  rw [hsum]

/-- Each step goes on by one, and from the last address to the first. -/
theorem iterate_bumpQemuMac {tail : ℕ} (h : tail < 2 ^ 24) (k : ℕ) :
    bumpQemuMac^[k] (tailMac tail) = tailMac ((tail + k) % 2 ^ 24) := by
  induction k with
  | zero => rw [Nat.add_zero, Nat.mod_eq_of_lt h, Function.iterate_zero_apply]
  | succ k ih =>
    rw [Function.iterate_succ_apply', ih, bumpQemuMac_tailMac (Nat.mod_lt _ (by decide)),
      Nat.mod_add_mod, Nat.add_assoc]

theorem digitChar_inj {d e : ℕ} (hd : d < 16) (he : e < 16) (h : d.digitChar = e.digitChar) :
    d = e := by
  rw [← (digitChar_hex d hd).2.2, h, (digitChar_hex e he).2.2]

theorem byte_inj {n m : ℕ} (hn : n < 256) (hm : m < 256)
    (hhigh : (n / 16).digitChar = (m / 16).digitChar)
    (hlow : (n % 16).digitChar = (m % 16).digitChar) : n = m := by
  have hdiv := digitChar_inj (high_lt hn) (high_lt hm) hhigh
  have hmod := digitChar_inj (low_lt n) (low_lt m) hlow
  omega

theorem tailMac_inj {s t : ℕ} (hs : s < 2 ^ 24) (ht : t < 2 ^ 24) (h : tailMac s = tailMac t) :
    s = t := by
  have hlist := congrArg String.toList h
  simp only [tailMac, toList_macText, List.cons.injEq, true_and, and_true] at hlist
  obtain ⟨h₁, h₂, h₃, h₄, h₅, h₆⟩ := hlist
  have ha := byte_inj (byte_lt _) (byte_lt _) h₁ h₂
  have hb := byte_inj (byte_lt _) (byte_lt _) h₃ h₄
  have hc := byte_inj (byte_lt _) (byte_lt _) h₅ h₆
  omega

theorem foldSalt_lt {salt : List ℕ} (h : ∀ b ∈ salt, b < 256) (i : ℕ) : foldSalt salt i < 256 := by
  have hfold : ∀ (ns : List ℕ) (n : ℕ), n < 256 → (∀ m ∈ ns, m < 256) →
      ns.foldl (· ^^^ ·) n < 256 := by
    intro ns
    induction ns with
    | nil => exact fun n hn _ => hn
    | cons m ns ih =>
      intro n hn hall
      obtain ⟨hm, hrest⟩ := List.forall_mem_cons.mp hall
      exact ih _ (Nat.xor_lt_two_pow (n := 8) hn hm) hrest
  refine hfold _ 0 (by decide) fun m hm => ?_
  obtain ⟨e, he, rfl⟩ := List.mem_map.mp hm
  exact h _ (List.fst_mem_of_mem_zipIdx (List.mem_filter.mp he).1)

theorem asBytes_lt (id : VmId) (i : ℕ) : asBytes id i < 256 := by
  cases id <;> exact byte_lt _

/-- The first address that a guest is offered. -/
theorem guestMacSalted_eq (vmId : VmId) {i : ℕ} {salt : List ℕ} (hi : i < 256)
    (hsalt : ∀ b ∈ salt, b < 256) :
    ∃ tail < 2 ^ 24, guestMacSalted vmId i salt = tailMac tail := by
  have h₁ := Nat.xor_lt_two_pow (n := 8) (asBytes_lt vmId 13) (foldSalt_lt hsalt 0)
  have h₂ := Nat.xor_lt_two_pow (n := 8) (asBytes_lt vmId 14) (foldSalt_lt hsalt 1)
  have h₃ := Nat.xor_lt_two_pow (n := 8) (Nat.xor_lt_two_pow (n := 8) (asBytes_lt vmId 15) hi)
    (foldSalt_lt hsalt 2)
  unfold guestMacSalted
  generalize asBytes vmId 13 ^^^ foldSalt salt 0 = a at h₁
  generalize asBytes vmId 14 ^^^ foldSalt salt 1 = b at h₂
  generalize asBytes vmId 15 ^^^ i ^^^ foldSalt salt 2 = c at h₃
  have ha : (a * 2 ^ 16 + b * 2 ^ 8 + c) / 2 ^ 16 % 256 = a := by omega
  have hb : (a * 2 ^ 16 + b * 2 ^ 8 + c) / 2 ^ 8 % 256 = b := by omega
  have hc : (a * 2 ^ 16 + b * 2 ^ 8 + c) % 256 = c := by omega
  refine ⟨a * 2 ^ 16 + b * 2 ^ 8 + c, by omega, ?_⟩
  rw [tailMac, ha, hb, hc]

/-! ### The search -/

theorem searchMac_visits (used : List String) (tries : ℕ) (mac : String) :
    ∃ k, searchMac used tries mac = bumpQemuMac^[k] mac := by
  induction tries generalizing mac with
  | zero => exact ⟨0, rfl⟩
  | succ tries ih =>
    unfold searchMac
    split
    · obtain ⟨k, hk⟩ := ih (bumpQemuMac mac)
      exact ⟨k + 1, hk⟩
    · exact ⟨0, rfl⟩

theorem macKey_tailMac (tail : ℕ) : macKey (tailMac tail) = tailMac tail := by
  rw [macKey, (guestMac_tailMac tail).normal, Option.getD_some]

/-- The search goes through as many addresses as it has tries. -/
theorem not_crowded {vmId : VmId} {i : ℕ} {used : List String} {salt : List ℕ} (hi : i < 256)
    (hsalt : ∀ b ∈ salt, b < 256)
    (hfew : (used.filterMap normalizeMac).toFinset.card < 2 ^ 20) : ¬ Crowded vmId i used salt := by
  intro hcrowded
  obtain ⟨tail, htail, hfirst⟩ := guestMacSalted_eq vmId hi hsalt
  have hvisit : ∀ k, macKey (bumpQemuMac^[k] (guestMacSalted vmId i salt)) =
      tailMac ((tail + k) % 2 ^ 24) := by
    intro k
    rw [hfirst, iterate_bumpQemuMac htail, macKey_tailMac]
  have hcard : (Finset.range macTries).card ≤ (used.filterMap normalizeMac).toFinset.card := by
    refine Finset.card_le_card_of_injOn (fun k => tailMac ((tail + k) % 2 ^ 24)) ?_ ?_
    · intro k hk
      have hmem := hcrowded k (Finset.mem_range.mp hk)
      rw [hvisit] at hmem
      exact List.mem_toFinset.mpr hmem
    · intro k hk l hl heq
      have hk := Finset.mem_range.mp hk
      have hl := Finset.mem_range.mp hl
      unfold macTries at hk hl
      have hsame := tailMac_inj (Nat.mod_lt _ (by decide)) (Nat.mod_lt _ (by decide)) heq
      omega
  rw [Finset.card_range] at hcard
  exact absurd hfew (Nat.not_lt.mpr hcard)

/-- A guest's new address is well formed and differs from each that is in use, as long as fewer
addresses are in use than the search has tries. -/
theorem uniqueGuestMac_free (vmId : VmId) (i : ℕ) (used : List String) (salt : List ℕ)
    (hi : i < 256) (hsalt : ∀ b ∈ salt, b < 256)
    (hfew : (used.filterMap normalizeMac).toFinset.card < 2 ^ 20) :
    GuestMac (uniqueGuestMac vmId i used salt) ∧
      ∀ mac ∈ used, normalizeMac mac ≠ normalizeMac (uniqueGuestMac vmId i used salt) := by
  have hfree : ¬ Crowded vmId i used salt := not_crowded hi hsalt hfew
  obtain ⟨tail, htail, hfirst⟩ := guestMacSalted_eq vmId hi hsalt
  obtain ⟨k, hk⟩ := searchMac_visits (used.filterMap normalizeMac) macTries
    (guestMacSalted vmId i salt)
  have hguest : GuestMac (uniqueGuestMac vmId i used salt) := by
    unfold uniqueGuestMac
    rw [hk, hfirst, iterate_bumpQemuMac htail]
    exact guestMac_tailMac _
  refine ⟨hguest, fun mac hmac heq => ?_⟩
  rw [hguest.normal] at heq
  exact uniqueGuestMac_ne hfree hmac heq hguest.normal

theorem uniqueGuestMac_free_of_two :
    GuestMac (uniqueGuestMac (.numeric 100) 0 ["52-54-00-00-00-64", "none"] []) ∧
      ∀ mac ∈ ["52-54-00-00-00-64", "none"],
        normalizeMac mac ≠
          normalizeMac (uniqueGuestMac (.numeric 100) 0 ["52-54-00-00-00-64", "none"] []) :=
  uniqueGuestMac_free (.numeric 100) 0 ["52-54-00-00-00-64", "none"] [] (by decide) nofun
    (Nat.lt_of_le_of_lt (List.toFinset_card_le _)
      (Nat.lt_of_le_of_lt (List.length_filterMap_le _ _) (by decide)))

end Pertisk.Net
