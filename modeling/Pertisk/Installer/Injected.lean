import Pertisk.Installer.Sections

namespace Pertisk.Installer
open Lib PeerUrl

/-! ### Words of a line -/

/-- The arguments that a line of a kickstart has. -/
def arguments (line : String) : List String := (wordsBy isSpace line.toList).map String.ofList

/-- Printable characters of ASCII, no blank among them. -/
def Solid (s : String) : Prop := ∀ c ∈ s.toList, 33 ≤ c.toNat ∧ c.toNat ≤ 126

instance (s : String) : Decidable (Solid s) := List.decidableBAll _ _

section words
variable {c : Char} {s t line : String} {ws : List String}

theorem not_isSpace (h : 33 ≤ c.toNat ∧ c.toNat ≤ 126) : isSpace c = false := by
  simp only [isSpace, isWhiteSpace, Bool.or_eq_false_iff, Bool.and_eq_false_iff,
    decide_eq_false_iff_not]
  omega

theorem not_isLineBreak (h : 32 ≤ c.toNat ∧ c.toNat ≤ 126) : isLineBreak c = false := by
  simp only [isLineBreak, Bool.or_eq_false_iff, Bool.and_eq_false_iff, decide_eq_false_iff_not]
  omega

theorem solid_of_isAlphanum (h : c.isAlphanum = true) : 33 ≤ c.toNat ∧ c.toNat ≤ 126 := by
  have hnat : c.toNat = c.val.toNat := rfl
  simp only [isAlphanum_iff, isUpper_iff, isLower_iff, Char.isDigit, Bool.and_eq_true,
    decide_eq_true_eq, ge_iff_le, Char.le_def, UInt32.le_iff_toNat_le] at h
  rcases h with (⟨h₁, h₂⟩ | ⟨h₁, h₂⟩) | ⟨h₁, h₂⟩
  · exact ⟨Nat.le_trans (by decide) h₁, Nat.le_trans h₂ (by decide)⟩
  · exact ⟨Nat.le_trans (by decide) h₁, Nat.le_trans h₂ (by decide)⟩
  · exact ⟨Nat.le_trans (by decide) h₁, Nat.le_trans h₂ (by decide)⟩

theorem Solid.append (hs : Solid s) (ht : Solid t) : Solid (s ++ t) := by
  intro c hc
  rw [String.toList_append] at hc
  rcases List.mem_append.mp hc with hc | hc
  · exact hs c hc
  · exact ht c hc

/-- The line is these words, with one blank between two of them. -/
structure Spelled (line : String) (ws : List String) : Prop where
  text : line.toList = [' '].intercalate (ws.map String.toList)
  words : ∀ w ∈ ws, w ≠ "" ∧ Solid w

instance (line : String) (ws : List String) : Decidable (Spelled line ws) :=
  decidable_of_iff (line.toList = [' '].intercalate (ws.map String.toList) ∧
    ∀ w ∈ ws, w ≠ "" ∧ Solid w) ⟨fun h => ⟨h.1, h.2⟩, fun h => ⟨h.text, h.words⟩⟩

theorem Spelled.arguments (h : Spelled line ws) : arguments line = ws := by
  have hwords : ∀ w ∈ ws.map String.toList, w ≠ [] ∧ ∀ c ∈ w, isSpace c = false := by
    intro w hw
    obtain ⟨v, hv, rfl⟩ := List.mem_map.mp hw
    obtain ⟨hne, hsolid⟩ := h.words v hv
    exact ⟨fun hnil => hne (String.toList_eq_nil_iff.mp hnil), fun c hc => not_isSpace (hsolid c hc)⟩
  unfold Installer.arguments
  rw [h.text, wordsBy_intercalate (by decide) hwords, List.map_map]
  exact (List.map_congr_left (g := id) fun w _ => String.ofList_toList).trans (List.map_id _)

theorem Spelled.noBreak (h : Spelled line ws) : ∀ c ∈ line.toList, isLineBreak c = false := by
  intro c hc
  rw [h.text] at hc
  refine not_isLineBreak ?_
  have hwords := h.words
  clear h
  induction ws with
  | nil => cases hc
  | cons w ws ih =>
    obtain ⟨hw, hrest⟩ := List.forall_mem_cons.mp hwords
    have hsolid : c ∈ w.toList → 32 ≤ c.toNat ∧ c.toNat ≤ 126 := fun hc =>
      ⟨Nat.le_trans (by decide) (hw.2 c hc).1, (hw.2 c hc).2⟩
    rw [List.map_cons] at hc
    by_cases hws : ws.map String.toList = []
    · rw [hws, List.intercalate_singleton] at hc
      exact hsolid hc
    · rw [List.intercalate_cons_of_ne_nil hws, List.append_assoc, List.singleton_append] at hc
      rcases List.mem_append.mp hc with hc | hc
      · exact hsolid hc
      · rcases List.mem_cons.mp hc with rfl | hc
        · decide
        · exact ih hc hrest

theorem spelled_all {lines : List String} {args : List (List String)}
    (h : List.Forall₂ Spelled lines args) : lines.map arguments = args ∧
      ∀ l ∈ lines, ∀ c ∈ l.toList, isLineBreak c = false := by
  induction h with
  | nil => exact ⟨rfl, nofun⟩
  | cons hl _ ih =>
    exact ⟨by rw [List.map_cons, hl.arguments, ih.1], List.forall_mem_cons.mpr ⟨hl.noBreak, ih.2⟩⟩

end words

/-! ### The sequence of commands -/

/-- The answers' texts, without the blanks around them. -/
def given (a : Answers) : Names where
  nic := trimmedText a "nicId"
  hostname := trimmedText a "hostname"
  lang := String.ofList (strip ((a "lang").textOr "en_US.UTF-8").toList)
  keyboard := String.ofList (strip ((a "keyboard").textOr "us").toList)
  timezone := String.ofList (strip ((a "timezone").textOr "Etc/UTC").toList)

def networkArguments (d : Decimals) (a : Answers) : List String :=
  if networkMode a = .str "static" then
    ["network", "--device=" ++ (given a).nic, "--bootproto=static",
      "--ip=" ++ trimmedText a "address", "--netmask=" ++ netmask (prefixOf d a).toNat,
      "--gateway=" ++ trimmedText a "gateway", "--nameserver=" ++ trimmedText a "dns", "--activate",
      "--onboot=on", "--hostname=" ++ (given a).hostname]
  else
    ["network", "--device=" ++ (given a).nic, "--bootproto=dhcp", "--activate", "--onboot=on",
      "--hostname=" ++ (given a).hostname]

/-- The commands before the template's part, each with its arguments. -/
def fixedArguments (d : Decimals) (a : Answers) (disk : Disk) (firmware rootHash adminHash : String) :
    List (List String) :=
  [["cmdline"], ["lang", (given a).lang], ["keyboard", "--vckeymap=" ++ (given a).keyboard],
    ["timezone", (given a).timezone, "--utc"], ["eula", "--agreed"], networkArguments d a,
    ["rootpw", "--iscrypted", "'" ++ rootHash ++ "'", "--allow-ssh"],
    ["user", "--name=admin", "--groups=wheel", "--homedir=/home/admin", "--iscrypted",
      "--password='" ++ adminHash ++ "'"],
    ["ignoredisk", "--only-use=" ++ disk.id], ["zerombr"],
    ["clearpart", "--all", "--initlabel", "--disklabel=gpt", "--drives=" ++ disk.id]] ++
  (if firmware ≠ "uefi" then [["part", "biosboot", "--fstype=biosboot", "--size=1"]] else []) ++
  [["part", "/boot/efi", "--fstype=efi", "--size=512"],
    ["part", "/boot", "--fstype=xfs", "--size=1024"],
    ["part", "swap", "--fstype=swap", "--size=2048"],
    ["part", "/", "--fstype=xfs", "--size=10240", "--maxsize=71680"],
    ["part", "/var/lib/pertisk", "--fstype=xfs", "--size=10240", "--grow"]]

/-! ### What the checks let through -/

section checks
variable {value label text : String} {pattern : List Char → Bool} {p : Char → Bool} {s : List Char}
  {a : Answers} {n : Names} {d : Decimals} {disk : Disk} {admin root line : String}

theorem token_ok : token value pattern label = .ok text ↔
    text = String.ofList (strip value.toList) ∧ pattern text.toList = true := by
  unfold token
  dsimp only
  split
  · rename_i h
    exact ⟨fun heq => ⟨(Except.ok.inj heq).symm, Except.ok.inj heq ▸ h⟩, fun heq => by rw [heq.1]⟩
  · rename_i h
    refine iff_of_false (fun heq => nomatch heq) fun heq => h ?_
    rw [← heq.1]
    exact heq.2

theorem many_iff : many p s = true ↔ s ≠ [] ∧ ∀ c ∈ s, p c = true := by
  unfold many
  rw [Bool.and_eq_true, List.all_eq_true, Bool.not_eq_true', List.isEmpty_eq_false_iff]

theorem solid_of_many (hp : ∀ c, p c = true → 33 ≤ c.toNat ∧ c.toNat ≤ 126)
    (h : many p text.toList = true) : text ≠ "" ∧ Solid text := by
  obtain ⟨hne, hall⟩ := many_iff.mp h
  exact ⟨fun heq => hne (String.toList_eq_nil_iff.mpr heq), fun c hc => hp c (hall c hc)⟩

theorem solid_nicChar {c : Char} (h : nicChar c = true) : 33 ≤ c.toNat ∧ c.toNat ≤ 126 := by
  simp only [nicChar, Bool.or_eq_true, beq_iff_eq] at h
  rcases h with ((h | rfl) | rfl) | rfl
  · exact solid_of_isAlphanum h
  all_goals decide

theorem solid_langChar {c : Char} (h : langChar c = true) : 33 ≤ c.toNat ∧ c.toNat ≤ 126 := by
  simp only [langChar, Bool.or_eq_true, beq_iff_eq] at h
  rcases h with (((h | rfl) | rfl) | rfl) | rfl
  · exact solid_of_isAlphanum h
  all_goals decide

theorem solid_keyboardChar {c : Char} (h : keyboardChar c = true) :
    33 ≤ c.toNat ∧ c.toNat ≤ 126 := by
  simp only [keyboardChar, Bool.or_eq_true, beq_iff_eq] at h
  rcases h with (h | rfl) | rfl
  · exact solid_of_isAlphanum h
  all_goals decide

theorem solid_zoneChar {c : Char} (h : zoneChar c = true) : 33 ≤ c.toNat ∧ c.toNat ≤ 126 := by
  simp only [zoneChar, Bool.or_eq_true, beq_iff_eq] at h
  rcases h with (((h | rfl) | rfl) | rfl) | rfl
  · exact solid_of_isAlphanum h
  all_goals decide

theorem hostPattern_chars (h : hostPattern s = true) :
    s ≠ [] ∧ ∀ c ∈ s, c.isAlphanum = true ∨ c = '-' := by
  cases s with
  | nil => cases h
  | cons c s =>
    refine ⟨List.cons_ne_nil _ _, List.forall_mem_cons.mpr ?_⟩
    simp only [hostPattern, Bool.and_eq_true, Bool.or_eq_true, List.isEmpty_iff, List.all_eq_true,
      beq_iff_eq] at h
    refine ⟨.inl h.1, fun c hc => ?_⟩
    rcases h.2 with rfl | ⟨⟨-, hfront⟩, hlast⟩
    · cases hc
    · have hne := List.ne_nil_of_mem hc
      rw [← List.dropLast_append_getLast hne] at hc
      rcases List.mem_append.mp hc with hc | hc
      · exact hfront c hc
      · rw [List.mem_singleton.mp hc]
        rw [List.getLast?_eq_some_getLast hne] at hlast
        exact .inl hlast

/-- The names that are let through are the answers', and go into one word each. -/
structure Named (a : Answers) (n : Names) : Prop where
  eq : n = given a
  nic : Solid n.nic
  hostname : Solid n.hostname
  lang : n.lang ≠ "" ∧ Solid n.lang
  keyboard : Solid n.keyboard
  timezone : n.timezone ≠ "" ∧ Solid n.timezone

theorem names_ok (h : names a = .ok n) : Named a n := by
  unfold names at h
  obtain ⟨nic, hnic, h⟩ := bind_ok h
  obtain ⟨hostname, hhost, h⟩ := bind_ok h
  obtain ⟨lang, hlang, h⟩ := bind_ok h
  obtain ⟨keyboard, hkeyboard, h⟩ := bind_ok h
  obtain ⟨timezone, hzone, h⟩ := bind_ok h
  cases h
  obtain ⟨rfl, hnic⟩ := token_ok.mp hnic
  obtain ⟨rfl, hhost⟩ := token_ok.mp hhost
  obtain ⟨rfl, hlang⟩ := token_ok.mp hlang
  obtain ⟨rfl, hkeyboard⟩ := token_ok.mp hkeyboard
  obtain ⟨rfl, hzone⟩ := token_ok.mp hzone
  refine ⟨rfl, (solid_of_many (fun c => solid_nicChar) hnic).2, fun c hc => ?_,
    solid_of_many (fun c => solid_langChar) hlang,
    (solid_of_many (fun c => solid_keyboardChar) hkeyboard).2,
    solid_of_many (fun c => solid_zoneChar) hzone⟩
  rcases (hostPattern_chars hhost).2 c hc with h | rfl
  · exact solid_of_isAlphanum h
  · decide

theorem chosenDisk_ok (h : chosenDisk disk = .ok text) :
    disk.kind = "disk" ∧ minDisk ≤ disk.size ∧ text = disk.id := by
  unfold chosenDisk at h
  split at h
  · cases h
  · rename_i hkind
    split at h
    · cases h
    · rename_i hsize
      obtain ⟨rfl, -⟩ := token_ok.mp h
      refine ⟨not_not.mp hkind, Int.not_lt.mp hsize, ?_⟩
      have hends : ∀ c ∈ disk.id.toList, isSpace c = false := fun c hc =>
        not_isSpace (solid_of_isAlphanum (disk.plain.2 c hc))
      have hstrip : strip disk.id.toList = disk.id.toList := by
        have htrim := Volume.trimMatches_of_ends (p := isSpace) (u := []) (v := []) nofun
          (fun c hc => hends c (List.mem_of_mem_head? hc))
          (fun c hc => hends c (List.mem_of_getLast? hc)) nofun
        rwa [List.nil_append, List.append_nil] at htrim
      rw [hstrip, String.ofList_toList]

theorem solid_digits (n : ℕ) : Solid (toString n) := by
  intro c hc
  have hdigit := isDigit_of_mem_toString hc
  exact solid_of_isAlphanum (by simp [Char.isAlphanum, hdigit])

theorem solid_dotted (k l m n : ℕ) : Solid s!"{k}.{l}.{m}.{n}" := by
  have hself : ∀ s : String, toString s = s := fun _ => rfl
  have htext : s!"{k}.{l}.{m}.{n}".toList = (toString k).toList ++ '.' :: ((toString l).toList ++
      '.' :: ((toString m).toList ++ '.' :: (toString n).toList)) := by
    simp [hself]
  have hdot : 33 ≤ '.'.toNat ∧ '.'.toNat ≤ 126 := by decide
  intro c hc
  rw [htext] at hc
  simp only [List.mem_append, List.mem_cons] at hc
  rcases hc with hc | rfl | hc | rfl | hc | rfl | hc
  · exact solid_digits k c hc
  · exact hdot
  · exact solid_digits l c hc
  · exact hdot
  · exact solid_digits m c hc
  · exact hdot
  · exact solid_digits n c hc

theorem solid_netmask (n : ℕ) : Solid (netmask n) := solid_dotted _ _ _ _

/-- An address is digits with dots between them. -/
theorem ipv4Ok_solid (h : ipv4Ok d text.toList = true) : Solid text := by
  unfold ipv4Ok at h
  simp only [Bool.and_eq_true, beq_iff_eq, List.all_eq_true] at h
  intro c hc
  rcases mem_splitOn '.' hc with rfl | ⟨part, hpart, hmem⟩
  · decide
  · have hnum := h.2 part hpart
    split at hnum
    · cases hnum
    · rename_i m hm
      simp only [Bool.and_eq_true, decide_eq_true_eq, beq_iff_eq] at hnum
      obtain ⟨⟨hlow, -⟩, rfl⟩ := hnum
      obtain ⟨k, rfl⟩ := Int.eq_ofNat_of_zero_le hlow
      exact solid_digits k c hmem

/-- A value after an option's name is one word with it. -/
theorem word_append {p w : String} (hp : p ≠ "" ∧ Solid p) (hw : Solid w) :
    p ++ w ≠ "" ∧ Solid (p ++ w) := by
  refine ⟨fun h => hp.1 ?_, hp.2.append hw⟩
  have hnil := congrArg String.toList h
  rw [String.toList_append] at hnil
  exact String.toList_eq_nil_iff.mp (List.append_eq_nil_iff.mp hnil).1

theorem networkLine_ok (hn : Named a n) (h : networkLine d a n = .ok line) :
    Spelled line (networkArguments d a) := by
  have hself : ∀ s : String, toString s = s := fun _ => rfl
  have hnic : Solid (given a).nic := hn.eq ▸ hn.nic
  have hhost : Solid (given a).hostname := hn.eq ▸ hn.hostname
  unfold networkLine at h
  unfold networkArguments
  rw [hn.eq] at h
  dsimp only at h
  split at h
  · cases h
  · split at h
    · rename_i hstatic
      split_ifs at h with haddress hgateway hdns hpfx
      cases h
      have haddress := ipv4Ok_solid haddress
      have hgateway := ipv4Ok_solid hgateway
      have hdns := ipv4Ok_solid hdns
      rw [if_pos hstatic]
      refine ⟨by simp [hself, List.intercalate, List.intersperse], ?_⟩
      simp only [List.forall_mem_cons]
      exact ⟨by decide, word_append (by decide) hnic, by decide, word_append (by decide) haddress,
        word_append (by decide) (solid_netmask _), word_append (by decide) hgateway,
        word_append (by decide) hdns, by decide, by decide, word_append (by decide) hhost, nofun⟩
    · rename_i hstatic
      cases h
      rw [if_neg hstatic]
      refine ⟨by simp [hself, List.intercalate, List.intersperse], ?_⟩
      simp only [List.forall_mem_cons]
      exact ⟨by decide, word_append (by decide) hnic, by decide, by decide, by decide,
        word_append (by decide) hhost, nofun⟩

theorem hashPassword_ok {c : Crypt} {call : ℕ} {password text : String}
    (h : hashPassword c call password = .ok text) : c.hash call password = some text ∧ Solid text := by
  unfold hashPassword at h
  split at h
  · cases h
  · rename_i hash hhash
    cases h
    refine ⟨hhash, fun x hx => ?_⟩
    rcases c.plain hhash x hx with h | rfl | rfl | rfl
    · exact solid_of_isAlphanum h
    all_goals decide

/-- Each of the commands is spelled by its arguments. -/
theorem spelled_commandLines {rootHash adminHash firmware : String} (hn : Named a n)
    (hnet : networkLine d a n = .ok line) (hroot : Solid rootHash) (hadmin : Solid adminHash) :
    List.Forall₂ Spelled (commandLines n line rootHash adminHash disk.id firmware)
      (fixedArguments d a disk firmware rootHash adminHash) := by
  have hself : ∀ s : String, toString s = s := fun _ => rfl
  have hdisk : Solid disk.id := fun c hc => solid_of_isAlphanum (disk.plain.2 c hc)
  have hquoted : ∀ {s : String}, Solid s → Solid (s ++ "'") := fun hs => hs.append (by decide)
  have hline := networkLine_ok hn hnet
  unfold commandLines fixedArguments
  rw [← hn.eq]
  refine List.rel_append (List.rel_append ?_ ?_) ?_
  · refine .cons (by decide) (.cons ?_ (.cons ?_ (.cons ?_ (.cons (by decide) (.cons hline
      (.cons ?_ (.cons ?_ (.cons ?_ (.cons (by decide) (.cons ?_ .nil))))))))))
    · refine ⟨by simp [hself, List.intercalate, List.intersperse], ?_⟩
      simp only [List.forall_mem_cons]
      exact ⟨by decide, hn.lang, nofun⟩
    · refine ⟨by simp [hself, List.intercalate, List.intersperse], ?_⟩
      simp only [List.forall_mem_cons]
      exact ⟨by decide, word_append (by decide) hn.keyboard, nofun⟩
    · refine ⟨by simp [hself, List.intercalate, List.intersperse], ?_⟩
      simp only [List.forall_mem_cons]
      exact ⟨by decide, hn.timezone, by decide, nofun⟩
    · refine ⟨by simp [hself, List.intercalate, List.intersperse], ?_⟩
      simp only [List.forall_mem_cons]
      refine ⟨by decide, by decide, ?_, by decide, nofun⟩
      rw [String.append_assoc]
      exact word_append (by decide) (hquoted hroot)
    · refine ⟨by simp [hself, List.intercalate, List.intersperse], ?_⟩
      simp only [List.forall_mem_cons]
      refine ⟨by decide, by decide, by decide, by decide, by decide, ?_, nofun⟩
      rw [String.append_assoc]
      exact word_append (by decide) (hquoted hadmin)
    · refine ⟨by simp [hself, List.intercalate, List.intersperse], ?_⟩
      simp only [List.forall_mem_cons]
      exact ⟨by decide, word_append (by decide) hdisk, nofun⟩
    · refine ⟨by simp [hself, List.intercalate, List.intersperse], ?_⟩
      simp only [List.forall_mem_cons]
      exact ⟨by decide, by decide, by decide, by decide, word_append (by decide) hdisk, nofun⟩
  · split
    · exact .cons (by decide) .nil
    · exact .nil
  · exact .cons (by decide) (.cons (by decide) (.cons (by decide) (.cons (by decide)
      (.cons (by decide) .nil))))

end checks

/-! ### The script -/

section script
variable {lib : Library} {template firmware : String} {a : Answers} {disk : Disk}
  {commands commands' : List String} {p q text : List Char} {ls ms rest rest' : List (List Char)}
  {others : List Char → Bool}

/-- Lines without a break in them are told apart in the text. -/
theorem joinLines_cancel (hls : ∀ l ∈ ls, '\n' ∉ l) (hms : ∀ l ∈ ms, '\n' ∉ l)
    (hlen : ls.length = ms.length) (hr : rest ≠ []) (hr' : rest' ≠ [])
    (h : joinLines (ls ++ rest) = joinLines (ms ++ rest')) : joinLines rest = joinLines rest' := by
  induction ls generalizing ms with
  | nil =>
    cases ms with
    | nil => exact h
    | cons m ms => cases hlen
  | cons l ls ih =>
    cases ms with
    | nil => cases hlen
    | cons m ms =>
      obtain ⟨hl, hls⟩ := List.forall_mem_cons.mp hls
      obtain ⟨hm, hms⟩ := List.forall_mem_cons.mp hms
      unfold joinLines at h ih ⊢
      rw [List.cons_append, List.cons_append,
        List.intercalate_cons_of_ne_nil (List.append_ne_nil_of_right_ne_nil _ hr),
        List.intercalate_cons_of_ne_nil (List.append_ne_nil_of_right_ne_nil _ hr'),
        List.append_assoc, List.append_assoc, List.singleton_append, List.singleton_append] at h
      exact ih hls hms (Nat.succ.inj hlen) (field_cancel hl hm h)

/-- The template's part is told apart from the commands before it. -/
theorem script_cancel (h : ∀ l ∈ commands, '\n' ∉ l.toList) (h' : ∀ l ∈ commands', '\n' ∉ l.toList)
    (hlen : commands.length = commands'.length) (heq : script commands p = script commands' q) :
    p = q := by
  have hmap : ∀ {ls : List String}, (∀ l ∈ ls, '\n' ∉ l.toList) →
      ∀ l ∈ ls.map String.toList, '\n' ∉ l := by
    intro ls hls l hl
    obtain ⟨m, hm, rfl⟩ := List.mem_map.mp hl
    exact hls m hm
  have hjoin := joinLines_cancel (hmap h) (hmap h')
    (by rw [List.length_map, List.length_map, hlen]) (List.cons_ne_nil _ _) (List.cons_ne_nil _ _)
    (List.append_cancel_right heq)
  unfold joinLines at hjoin
  rw [List.intercalate_cons_cons, List.intercalate_cons_cons, List.intercalate_cons_cons,
    List.intercalate_cons_cons] at hjoin
  simp only [List.nil_append, List.append_assoc, List.cons_append] at hjoin
  exact List.append_cancel_right (List.cons.inj hjoin).2

theorem rstrip_strip (s : List Char) : rstrip (strip s ++ ['\n']) = strip s := by
  obtain ⟨-, -, -, -, -, -, hlast⟩ := Volume.trimMatches_split isSpace s
  have hrev : ∀ c ∈ (strip s).reverse.head?, isSpace c = false := by
    rw [List.head?_reverse]
    exact hlast
  rw [rstrip, trimEnd, List.reverse_append, List.reverse_singleton, List.singleton_append,
    List.dropWhile_cons_of_pos (by decide), dropWhile_eq_self hrev, List.reverse_reverse]

/-- What an accepted request comes to. -/
structure Accepted (lib : Library) (template : String) (a : Answers) (disk : Disk)
    (firmware : String) (text : List Char) where
  n : Names
  admin : String
  root : String
  network : String
  adminHash : String
  rootHash : String
  kept : List (List Char)
  disk_ok : disk.kind = "disk" ∧ minDisk ≤ disk.size
  named : Named a n
  passwords_ok : passwords a = .ok (admin, root)
  network_ok : networkLine lib.decimals a n = .ok network
  admin_ok : lib.crypt.hash 0 admin = some adminHash ∧ Solid adminHash
  root_ok : lib.crypt.hash 1 root = some rootHash ∧ Solid rootHash
  kept_ok : keptLines (splitlines template.toList) = .ok kept
  text_eq : text = script (commandLines n network rootHash adminHash disk.id firmware)
    (strip (joinLines kept))

theorem buildKickstart_ok (h : buildKickstart lib template a disk firmware = .ok text) :
    Nonempty (Accepted lib template a disk firmware text) := by
  unfold buildKickstart at h
  obtain ⟨diskId, hdisk, h⟩ := bind_ok h
  obtain ⟨n, hn, h⟩ := bind_ok h
  obtain ⟨⟨admin, root⟩, hpass, h⟩ := bind_ok h
  obtain ⟨network, hnet, h⟩ := bind_ok h
  obtain ⟨-, -, h⟩ := bind_ok h
  obtain ⟨adminHash, hadmin, h⟩ := bind_ok h
  obtain ⟨rootHash, hroot, h⟩ := bind_ok h
  obtain ⟨payload, hpayload, h⟩ := bind_ok h
  obtain ⟨kept, hkept, rfl⟩ := map_ok_iff.mp hpayload
  obtain ⟨hkind, hsize, rfl⟩ := chosenDisk_ok hdisk
  dsimp only at h
  split at h
  · cases h
  · cases h
    exact ⟨n, admin, root, network, adminHash, rootHash, kept, ⟨hkind, hsize⟩, names_ok hn, hpass,
      hnet, hashPassword_ok hadmin, hashPassword_ok hroot, hkept, congrArg _ (rstrip_strip _)⟩

end script

/-! ### The claim's script -/

/-- A word that is read as an option's name. -/
def OptionLike (w : String) : Prop := w.toList.head? = some '-'

/-- The script that the answers and the template should come to. -/
structure Sound (lib : Library) (others : List Char → Bool) (template : String) (a : Answers)
    (disk : Disk) (firmware : String) (text : List Char) : Prop where
  internal : disk.kind = "disk" ∧ minDisk ≤ disk.size
  positional : ¬ OptionLike (given a).lang ∧ ¬ OptionLike (given a).timezone
  script : ∃ admin root adminHash rootHash commands items,
    passwords a = .ok (admin, root) ∧ lib.crypt.hash 0 admin = some adminHash ∧
    lib.crypt.hash 1 root = some rootHash ∧
    commands.map arguments = fixedArguments lib.decimals a disk firmware rootHash adminHash ∧
    (∀ l ∈ commands, ∀ c ∈ l.toList, isLineBreak c = false) ∧
    Parsed others (splitlines template.toList) items ∧
    text = Installer.script commands (strip (joinLines (items.flatMap Item.keep)))

/-- No section of another kind has a line that the scan keeps. -/
def Quiet (others : List Char → Bool) (lines : List (List Char)) : Prop :=
  ∃ items, Parsed others lines items ∧ ∀ ls, .sect .other ls ∈ items → ¬ Leaks ls

/-- An accepted script is as it should be exactly when the language and the time zone are not read
as options and no section of another kind has a line that the scan keeps. -/
theorem kickstart_sound_iff (lib : Library) (others : List Char → Bool) (template : String)
    (a : Answers) (disk : Disk) (firmware : String) :
    (∀ text, buildKickstart lib template a disk firmware = .ok text →
      (Sound lib others template a disk firmware text ↔
        (¬ OptionLike (given a).lang ∧ ¬ OptionLike (given a).timezone) ∧
          Quiet others (splitlines template.toList))) ∧
    (Unended others (splitlines template.toList) →
      ∃ e, buildKickstart lib template a disk firmware = .error e) := by
  constructor
  · intro text h
    obtain ⟨hacc⟩ := buildKickstart_ok h
    have hspelled : List.Forall₂ Spelled
        (commandLines hacc.n hacc.network hacc.rootHash hacc.adminHash disk.id firmware)
        (fixedArguments lib.decimals a disk firmware hacc.rootHash hacc.adminHash) :=
      spelled_commandLines hacc.named hacc.network_ok hacc.root_ok.2 hacc.admin_ok.2
    obtain ⟨hargs, hbreak⟩ := spelled_all hspelled
    constructor
    · intro hsound
      refine ⟨hsound.positional, ?_⟩
      obtain ⟨_, _, adminHash', rootHash', commands, items, -, -, -, hargs', hbreak', hparsed,
        htext⟩ := hsound.script
      have hlen : (fixedArguments lib.decimals a disk firmware hacc.rootHash
          hacc.adminHash).length =
          (fixedArguments lib.decimals a disk firmware rootHash' adminHash').length := by
        simp [fixedArguments]
      rw [← hargs, ← hargs', List.length_map, List.length_map] at hlen
      have hnewline : ∀ {ls : List String}, (∀ l ∈ ls, ∀ c ∈ l.toList, isLineBreak c = false) →
          ∀ l ∈ ls, '\n' ∉ l.toList := by
        intro ls hls l hl hmem
        exact absurd (hls l hl _ hmem) (by decide)
      have hpayload := script_cancel (hnewline hbreak) (hnewline hbreak') hlen
        (hacc.text_eq.symm.trans htext)
      have hink := congrArg ink hpayload
      rw [ink_strip, ink_strip] at hink
      exact ⟨items, hparsed, (ink_payload_iff hparsed hacc.kept_ok).mp hink⟩
    · rintro ⟨hpositional, items, hparsed, hquiet⟩
      refine ⟨hacc.disk_ok, hpositional, hacc.admin, hacc.root, hacc.adminHash, hacc.rootHash, _,
        items, hacc.passwords_ok, hacc.admin_ok.1, hacc.root_ok.1, hargs, hbreak, hparsed, ?_⟩
      rw [← keptLines_quiet hparsed hacc.kept_ok hquiet]
      exact hacc.text_eq
  · intro hunended
    cases hbuild : buildKickstart lib template a disk firmware with
    | error e => exact ⟨e, rfl⟩
    | ok text =>
      obtain ⟨hacc⟩ := buildKickstart_ok hbuild
      exact absurd hacc.kept_ok (keptLines_unended hunended)

def asciiDigit (c : Char) : Option ℕ := if c.isDigit then some (c.toNat - 48) else none

theorem asciiDigit_lt {c : Char} {n : ℕ} (h : asciiDigit c = some n) : n < 10 := by
  obtain ⟨hc, hn⟩ := Option.ite_none_right_eq_some.mp h
  cases hn
  have hnat : c.toNat = c.val.toNat := rfl
  simp only [Char.isDigit, Bool.and_eq_true, decide_eq_true_eq, ge_iff_le,
    UInt32.le_iff_toNat_le] at hc
  have hlast : c.val.toNat ≤ 57 := hc.2
  omega

theorem asciiDigit_inked {c : Char} {n : ℕ} (h : asciiDigit c = some n) :
    isSpace c = false ∧ c.toNat ≠ 0xFEFF := by
  obtain ⟨hc, -⟩ := Option.ite_none_right_eq_some.mp h
  have hsolid := solid_of_isAlphanum (isAlphanum_iff.mpr (.inr hc))
  exact ⟨not_isSpace hsolid, by omega⟩

theorem asciiDigit_eq {c : Char} (_ : c.toNat < 128) :
    asciiDigit c = if c.isDigit then some (c.toNat - 48) else none := rfl

def asciiDecimals : Decimals where
  value := asciiDigit
  lt := asciiDigit_lt
  inked := asciiDigit_inked
  ascii := asciiDigit_eq

def fixedCrypt : Crypt where
  hash _ _ := some "$6$salt$hash"
  plain h c hc := by
    rw [← Option.some.inj h] at hc
    revert c
    exact PeerUrl.forall_of_all (by decide)

/-- A form with a time zone that reads as an option. -/
def optionZone : Answers
  | "nicId" => .str "eth0"
  | "hostname" => .str "node1"
  | "adminPassword" => .str "password"
  | "timezone" => .str "--nontp"
  | _ => .none

def sda : Disk where
  id := "sda"
  kind := "disk"
  size := 32 * 1024 ^ 3
  plain := ⟨by decide, PeerUrl.forall_of_all (by decide)⟩

theorem zone_read_as_option : ∃ text,
    buildKickstart ⟨asciiDecimals, fixedCrypt⟩ "" optionZone sda "uefi" = .ok text ∧
    ¬ Sound ⟨asciiDecimals, fixedCrypt⟩ (fun _ => false) "" optionZone sda "uefi" text := by
  have hpayload : extractPayload "" = .ok ['\n'] := by
    rw [extractPayload, show splitlines "".toList = [] from rfl, keptLines_nil]
    rfl
  have hsome : (buildKickstart ⟨asciiDecimals, fixedCrypt⟩ "" optionZone sda
      "uefi").toOption.isSome = true := by
    unfold buildKickstart
    rw [hpayload]
    decide +kernel
  obtain ⟨text, htext⟩ := Option.isSome_iff_exists.mp hsome
  exact ⟨text, toOption_some htext, fun h => h.positional.2 rfl⟩

end Pertisk.Installer
