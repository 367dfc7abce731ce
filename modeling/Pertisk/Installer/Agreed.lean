import Pertisk.Installer.Fields

namespace Pertisk.Installer
open Lib PeerUrl Volume

variable {zones : Zones}

/-- The addresses of the static network. -/
def Form.addresses (f : Form zones) : List String := [f.address, f.gateway, f.dns]

/-- The passwords that are used, each with what confirms it. -/
def Form.passwords (f : Form zones) : List (String × String) :=
  (f.adminPassword, f.adminConfirm) ::
    if f.separateRoot then [(f.rootPassword, f.rootConfirm)] else []

def Form.root (f : Form zones) : String := if f.separateRoot then f.rootPassword else f.adminPassword

/-- The template has the ends of its sections, and no line of it is `reboot`. -/
def TemplateOk (template : String) : Prop :=
  ∃ payload, extractPayload template = .ok payload ∧
    "reboot".toList ∉ (rstrip payload).splitOn '\n'

/-- What the form asks for. -/
structure FormOk (m : Machine) (f : Form zones) : Prop where
  disk : ∃ disk, findDisk m f.diskId = some disk ∧ disk.kind = "disk" ∧ minDisk ≤ disk.size
  nic : findNic m f.nicId ≠ none
  hostname : hostPattern (jsTrim f.hostname.toList) = true
  addresses : f.mode = .static → ∀ t ∈ f.addresses, ipv4 t.toList = true
  number : f.mode = .static → prefixOk f.pfx.toList = true
  peer : PeerOk jsSpace f.peer.toList
  passwords : ∀ p ∈ f.passwords, passwordIssue p.1 = "" ∧ p.2 = p.1

/-- What the server asks for. -/
structure ServerOk (lib : Library) (m : Machine) (template : String) (f : Form zones) : Prop where
  disk : ∃ disk, findDisk m f.diskId = some disk ∧ disk.kind = "disk" ∧ minDisk ≤ disk.size
  nic : many nicChar (strip f.nicId.toList) = true
  hostname : hostPattern (strip f.hostname.toList) = true
  addresses : f.mode = .static → ∀ t ∈ f.addresses, ipv4Ok lib.decimals (strip t.toList) = true
  number : f.mode = .static → ServerPrefix lib.decimals f.pfx.toList
  peer : PeerOk isSpace f.peer.toList
  passwords : ∀ p ∈ f.passwords, ServerPassword p.1 ∧ p.2 = p.1
  crypt : lib.crypt.hash 0 f.adminPassword ≠ none ∧ lib.crypt.hash 1 f.root ≠ none
  template : TemplateOk template

/-! ### The form's side -/

section form
variable {m : Machine} {f : Form zones}

theorem diskIssues_iff (h : f.eraseConfirmed = true) : hasIssues (diskIssues m f) = false ↔
    ∃ disk, findDisk m f.diskId = some disk ∧ disk.kind = "disk" ∧ minDisk ≤ disk.size := by
  unfold diskIssues
  cases hdisk : findDisk m f.diskId with
  | none => exact iff_of_false Bool.true_eq_false.mp fun ⟨_, habs, _⟩ => nomatch habs
  | some disk =>
    dsimp only
    split_ifs with hkind hsize
    · exact iff_of_false (by decide) fun ⟨_, heq, hk, _⟩ => hkind (Option.some.inj heq ▸ hk)
    · exact iff_of_false (by decide) fun ⟨_, heq, _, hs⟩ =>
        absurd (Option.some.inj heq ▸ hs) (Int.not_le.mpr hsize)
    · exact iff_of_true rfl ⟨disk, rfl, not_not.mp hkind, Int.not_lt.mp hsize⟩

theorem hasIssues_iff {i : Issue} : hasIssues i = false ↔ i.formError = "" ∧ i.fields = [] := by
  simp [hasIssues]

theorem hostnameIssues_iff : hostnameIssues f = [] ↔
    hostPattern (jsTrim f.hostname.toList) = true := by
  unfold hostnameIssues
  dsimp only
  split_ifs with hnil hhost
  · exact iff_of_false not_false (by rw [hnil]; decide)
  · exact iff_of_true rfl hhost
  · exact iff_of_false not_false hhost

theorem staticIssues_iff : staticIssues f = [] ↔
    (∀ t ∈ f.addresses, ipv4 t.toList = true) ∧ prefixOk f.pfx.toList = true := by
  unfold staticIssues Form.addresses
  simp only [List.append_eq_nil_iff, ite_eq_left_iff, List.cons_ne_nil, imp_false, not_not,
    List.forall_mem_cons, List.not_mem_nil, false_imp_iff, implies_true, and_true]
  tauto

theorem peerIssues_iff : peerIssues f = [] ↔ PeerOk jsSpace f.peer.toList := by
  unfold peerIssues PeerOk
  rw [show trimMatches jsSpace f.peer.toList = jsTrim f.peer.toList from rfl]
  dsimp only
  split_ifs with hpeer
  · exact iff_of_false not_false (not_or.mpr hpeer)
  · exact iff_of_true rfl (by tauto)

theorem networkIssues_iff : hasIssues (networkIssues m f) = false ↔
    findNic m f.nicId ≠ none ∧ hostPattern (jsTrim f.hostname.toList) = true ∧
      (f.mode = .static → (∀ t ∈ f.addresses, ipv4 t.toList = true) ∧
        prefixOk f.pfx.toList = true) ∧ PeerOk jsSpace f.peer.toList := by
  rw [hasIssues_iff]
  refine and_congr ?_ ?_
  · unfold networkIssues
    cases findNic m f.nicId with
    | none =>
      have htext : "Select a network interface." ≠ "" := by decide
      exact iff_of_false htext fun h => h rfl
    | some n => exact iff_of_true rfl (Option.some_ne_none n)
  · unfold networkIssues
    rw [List.append_eq_nil_iff, List.append_eq_nil_iff, hostnameIssues_iff, peerIssues_iff,
      and_assoc]
    refine and_congr_right fun _ => and_congr_left fun _ => ?_
    split_ifs with hstatic
    · rw [staticIssues_iff]
      exact ⟨fun h _ => h, fun h => h hstatic⟩
    · exact iff_of_true rfl fun h => absurd h hstatic

theorem confirmIssues_iff {name confirm pw again : String} :
    confirmIssues name confirm pw again = [] ↔ passwordIssue pw = "" ∧ again = pw := by
  unfold confirmIssues
  split_ifs with hissue hagain
  · exact iff_of_false not_false fun h => hissue h.1
  · exact iff_of_false not_false fun h => hagain h.2
  · exact iff_of_true rfl ⟨not_not.mp hissue, not_not.mp hagain⟩

theorem accessIssues_iff : hasIssues (accessIssues f) = false ↔
    ∀ p ∈ f.passwords, passwordIssue p.1 = "" ∧ p.2 = p.1 := by
  rw [hasIssues_iff]
  unfold accessIssues Form.passwords
  rw [List.append_eq_nil_iff, confirmIssues_iff, List.forall_mem_cons]
  refine (and_iff_right rfl).trans (and_congr_right fun _ => ?_)
  split_ifs
  · rw [confirmIssues_iff, List.forall_mem_singleton]
  · exact iff_of_true rfl nofun

theorem firstInvalidStep_iff (h : f.eraseConfirmed = true) :
    firstInvalidStep m f = -1 ↔ FormOk m f := by
  have hnone : firstInvalidStep m f = -1 ↔
      ∀ s ∈ steps.dropLast, hasIssues (issues m f s) = false := by
    unfold firstInvalidStep
    cases hfind : steps.dropLast.findIdx? fun s => hasIssues (issues m f s) with
    | none => exact iff_of_true rfl (List.findIdx?_eq_none_iff.mp hfind)
    | some i =>
      refine iff_of_false (fun habs => ?_) fun hall => ?_
      · change (i : ℤ) = -1 at habs
        omega
      · rw [List.findIdx?_eq_none_iff.mpr hall] at hfind
        cases hfind
  have hsteps : steps.dropLast = [.welcome, .disk, .network, .access] := rfl
  rw [hnone, hsteps]
  simp only [List.forall_mem_cons, List.not_mem_nil, false_imp_iff, implies_true, and_true]
  constructor
  · rintro ⟨-, hdisk, hnet, haccess⟩
    obtain ⟨hnic, hhost, hstatic, hpeer⟩ := networkIssues_iff.mp hnet
    exact ⟨(diskIssues_iff h).mp hdisk, hnic, hhost, fun hs => (hstatic hs).1,
      fun hs => (hstatic hs).2, hpeer, accessIssues_iff.mp haccess⟩
  · intro hok
    exact ⟨rfl, (diskIssues_iff h).mpr hok.disk, networkIssues_iff.mpr ⟨hok.nic, hok.hostname,
      fun hs => ⟨hok.addresses hs, hok.number hs⟩, hok.peer⟩, accessIssues_iff.mpr hok.passwords⟩

end form

/-! ### The server's side -/

section server
variable {lib : Library} {m : Machine} {template firmware : String} {f : Form zones} {d : Decimals}
  {n : Names} {payload : List Char}

theorem splitOn_join (ls : List (List Char)) (hne : ls ≠ []) :
    (joinLines ls).splitOn '\n' = ls.flatMap (List.splitOn '\n') := by
  have hjoin : ∀ ls : List (List Char), ls ≠ [] →
      joinLines ls = joinLines (ls.flatMap (List.splitOn '\n')) := by
    intro ls hne
    induction ls with
    | nil => exact absurd rfl hne
    | cons l ls ih =>
      have hl : joinLines (l.splitOn '\n') = l := List.intercalate_splitOn '\n'
      by_cases hls : ls = []
      · rw [hls, List.flatMap_singleton, hl, joinLines, List.intercalate_singleton]
      · have htail : ls.flatMap (List.splitOn '\n') ≠ [] := by
          obtain ⟨k, ks, rfl⟩ := List.exists_cons_of_ne_nil hls
          exact List.append_ne_nil_of_left_ne_nil (List.splitOn_ne_nil _ _) _
        unfold joinLines at hl ih ⊢
        rw [List.flatMap_cons, intercalate_append (List.splitOn_ne_nil _ _) htail, hl, ← ih hls,
          List.intercalate_cons_of_ne_nil hls, List.append_assoc, List.singleton_append]
  have hfree : ∀ l ∈ ls.flatMap (List.splitOn '\n'), '\n' ∉ l := by
    intro l hl
    obtain ⟨k, -, hk⟩ := List.mem_flatMap.mp hl
    exact not_mem_splitOn hk
  have hne' : ls.flatMap (List.splitOn '\n') ≠ [] := by
    obtain ⟨k, ks, rfl⟩ := List.exists_cons_of_ne_nil hne
    exact List.append_ne_nil_of_left_ne_nil (List.splitOn_ne_nil _ _) _
  rw [hjoin ls hne]
  exact List.splitOn_intercalate '\n' hfree hne'

/-- Only the template's part can have the line that is looked for. -/
theorem reboot_mem_script {commands : List String} (h : ∀ l ∈ commands, '\n' ∉ l.toList)
    (hno : "reboot" ∉ commands) :
    "reboot".toList ∈ (script commands payload).splitOn '\n' ↔
      "reboot".toList ∈ payload.splitOn '\n' := by
  have hend : ∀ ls : List (List Char), ls ≠ [] → joinLines ls ++ ['\n'] = joinLines (ls ++ [[]]) := by
    intro ls hls
    rw [joinLines, joinLines, intercalate_append hls (List.cons_ne_nil _ _)]
    rfl
  have hcommands : "reboot".toList ∉ (commands.map String.toList).flatMap (List.splitOn '\n') := by
    intro hmem
    obtain ⟨l, hl, hmem⟩ := List.mem_flatMap.mp hmem
    obtain ⟨k, hk, rfl⟩ := List.mem_map.mp hl
    have hfree : ∀ l ∈ [k.toList], '\n' ∉ l := List.forall_mem_singleton.mpr (h k hk)
    have hsplit := List.splitOn_intercalate '\n' hfree (List.cons_ne_nil _ _)
    rw [List.intercalate_singleton] at hsplit
    rw [hsplit, List.mem_singleton] at hmem
    exact hno (String.toList_inj.mp hmem ▸ hk)
  have hpre : "reboot".toList ∉ (joinLines (rpmPre.map String.toList)).splitOn '\n' := by decide +kernel
  have hpost : "reboot".toList ∉ (joinLines (nochroot.map String.toList)).splitOn '\n' := by
    decide +kernel
  have hempty : "reboot".toList ∉ ([] : List Char).splitOn '\n' := by decide
  unfold script
  generalize joinLines (rpmPre.map String.toList) = pre at *
  generalize joinLines (nochroot.map String.toList) = post at *
  rw [hend _ (List.append_ne_nil_of_right_ne_nil _ (List.cons_ne_nil _ _)),
    splitOn_join _ (List.append_ne_nil_of_right_ne_nil _ (List.cons_ne_nil _ _))]
  simp only [List.flatMap_append, List.flatMap_cons, List.flatMap_nil, List.mem_append, hcommands,
    hpre, hpost, hempty, false_or, or_false, List.append_nil]

theorem textOr_str (s : String) : (Value.str s).textOr "" = s := by
  unfold Value.textOr Value.truthy
  by_cases hs : s = ""
  · simp [hs]
  · simp [hs, Value.text]

theorem textOr_of_ne {s default : String} (h : s ≠ "") : (Value.str s).textOr default = s := by
  unfold Value.textOr Value.truthy
  simp [h, Value.text]

theorem token_iff {value label : String} {pattern : List Char → Bool} :
    (∃ text, token value pattern label = .ok text) ↔ pattern (strip value.toList) = true := by
  constructor
  · rintro ⟨text, h⟩
    obtain ⟨rfl, h⟩ := token_ok.mp h
    rwa [String.toList_ofList] at h
  · intro h
    exact ⟨_, token_ok.mpr ⟨rfl, by rwa [String.toList_ofList]⟩⟩

/-- A value of a list goes through its own pattern. -/
theorem token_listed {value label default : String} {p : Char → Bool}
    (hp : ∀ c, p c = true → isSpace c = false) (h : many p value.toList = true) :
    token ((Value.str value).textOr default) (many p) label = .ok value := by
  obtain ⟨hne, hall⟩ := many_iff.mp h
  have hstrip : strip value.toList = value.toList := trim_self fun c hc => hp c (hall c hc)
  rw [textOr_of_ne fun heq => hne (String.toList_eq_nil_iff.mpr heq)]
  exact token_ok.mpr ⟨by rw [hstrip, String.ofList_toList], h⟩

theorem languages_ok : ∀ l ∈ languages, many langChar l.toList = true := by decide

theorem keyboards_ok : ∀ k ∈ keyboards, many keyboardChar k.toList = true := by decide

theorem names_iff : (∃ n, names f.answers = .ok n) ↔
    many nicChar (strip f.nicId.toList) = true ∧ hostPattern (strip f.hostname.toList) = true := by
  have hlang : token ((f.answers "lang").textOr "en_US.UTF-8") (many langChar) "language" =
      .ok f.lang := token_listed (fun c hc => not_isSpace (solid_langChar hc))
    (languages_ok _ f.lang_mem)
  have hkeyboard : token ((f.answers "keyboard").textOr "us") (many keyboardChar) "keyboard" =
      .ok f.keyboard := token_listed (fun c hc => not_isSpace (solid_keyboardChar hc))
    (keyboards_ok _ f.keyboard_mem)
  have hzone : token ((f.answers "timezone").textOr "Etc/UTC") (many zoneChar) "time zone" =
      .ok f.timezone := token_listed (fun c hc => not_isSpace (solid_zoneChar hc))
    (zones.plain _ f.timezone_mem)
  have hnic : (f.answers "nicId").textOr "" = f.nicId := textOr_str _
  have hhost : (f.answers "hostname").textOr "" = f.hostname := textOr_str _
  unfold names
  rw [hnic, hhost, hlang, hkeyboard, hzone]
  constructor
  · rintro ⟨n, h⟩
    obtain ⟨nic, hnic, h⟩ := bind_ok h
    obtain ⟨host, hhost, -⟩ := bind_ok h
    exact ⟨token_iff.mp ⟨nic, hnic⟩, token_iff.mp ⟨host, hhost⟩⟩
  · rintro ⟨hnic, hhost⟩
    obtain ⟨nic, hnic⟩ := token_iff.mpr hnic
    obtain ⟨host, hhost⟩ := token_iff.mpr hhost
    exact ⟨_, by rw [bind_of_ok hnic, bind_of_ok hhost]; rfl⟩

theorem confirm_iff {confirm pw : String} :
    (Value.str confirm ≠ .none ∧ Value.str confirm ≠ .str pw) ↔ confirm ≠ pw := by
  simp

theorem passwords_iff {r : String × String} : passwords f.answers = .ok r ↔
    r = (f.adminPassword, f.root) ∧ ∀ p ∈ f.passwords, ServerPassword p.1 ∧ p.2 = p.1 := by
  have hadmin : (f.answers "adminPassword").textOr "" = f.adminPassword := textOr_str _
  have hroot : (f.answers "rootPassword").textOr "" = f.rootPassword := textOr_str _
  have hconfirm : f.answers "adminConfirm" = .str f.adminConfirm := rfl
  have hagain : f.answers "rootConfirm" = .str f.rootConfirm := rfl
  have hseparate : f.answers "separateRoot" = .bool f.separateRoot := rfl
  unfold passwords Form.root Form.passwords
  rw [hadmin, hroot, hconfirm, hagain, hseparate, bind_ok_iff, List.forall_mem_cons]
  simp only [password_ok, confirm_iff, Value.truthy]
  constructor
  · rintro ⟨pw, ⟨rfl, hpw⟩, h⟩
    split at h
    · cases h
    · rename_i hsame
      split at h
      · rename_i hsep
        obtain ⟨root, hroot, h⟩ := bind_ok h
        obtain ⟨rfl, hroot'⟩ := password_ok.mp hroot
        split at h
        · cases h
        · rename_i hsame'
          cases h
          rw [if_pos hsep, if_pos hsep, List.forall_mem_singleton]
          exact ⟨rfl, ⟨hpw, not_not.mp hsame⟩, hroot', not_not.mp hsame'⟩
      · rename_i hsep
        cases h
        rw [if_neg hsep, if_neg hsep]
        exact ⟨rfl, ⟨hpw, not_not.mp hsame⟩, nofun⟩
  · rintro ⟨rfl, ⟨hpw, hsame⟩, hroot⟩
    refine ⟨f.adminPassword, ⟨rfl, hpw⟩, ?_⟩
    rw [if_neg (not_not.mpr hsame)]
    by_cases hsep : f.separateRoot = true
    · rw [if_pos hsep, List.forall_mem_singleton] at hroot
      rw [if_pos hsep, if_pos hsep, bind_of_ok (password_ok.mpr ⟨rfl, hroot.1⟩),
        if_neg (not_not.mpr hroot.2)]
      rfl
    · rw [if_neg hsep, if_neg hsep]
      rfl

theorem networkLine_iff : (∃ line, networkLine d f.answers n = .ok line) ↔ (f.mode = .static →
    (∀ t ∈ f.addresses, ipv4Ok d (strip t.toList) = true) ∧ ServerPrefix d f.pfx.toList) := by
  have hmode : networkMode f.answers = .str f.mode.text := by
    unfold networkMode
    rw [show f.answers "mode" = .str f.mode.text from rfl]
    cases f.mode <;> rfl
  have haddress : (trimmedText f.answers "address").toList = strip f.address.toList := by
    rw [trimmedText, show f.answers "address" = .str f.address from rfl, textOr_str,
      String.toList_ofList]
  have hgateway : (trimmedText f.answers "gateway").toList = strip f.gateway.toList := by
    rw [trimmedText, show f.answers "gateway" = .str f.gateway from rfl, textOr_str,
      String.toList_ofList]
  have hdns : (trimmedText f.answers "dns").toList = strip f.dns.toList := by
    rw [trimmedText, show f.answers "dns" = .str f.dns from rfl, textOr_str, String.toList_ofList]
  have hpfx : prefixOf d f.answers = (pyInt d (strip f.pfx.toList)).getD 0 := rfl
  unfold networkLine Form.addresses ServerPrefix
  rw [hmode, hpfx]
  dsimp only
  rw [haddress, hgateway, hdns]
  simp only [List.forall_mem_cons, List.not_mem_nil, false_imp_iff, implies_true, and_true]
  cases f.mode with
  | dhcp => exact iff_of_true ⟨_, rfl⟩ nofun
  | static =>
    rw [if_neg (by decide), if_pos (show Value.str Mode.static.text = .str "static" from rfl)]
    constructor
    · rintro ⟨line, h⟩ -
      split_ifs at h with h₁ h₂ h₃ h₄
      exact ⟨⟨h₁, h₂, h₃⟩, by omega⟩
    · intro h
      obtain ⟨⟨h₁, h₂, h₃⟩, h₄, h₅⟩ := h rfl
      rw [if_neg (not_not.mpr h₁), if_neg (not_not.mpr h₂), if_neg (not_not.mpr h₃),
        if_neg (by omega)]
      exact ⟨_, rfl⟩

theorem checkPeer_iff : checkPeer f.answers = .ok () ↔ PeerOk isSpace f.peer.toList := by
  unfold checkPeer PeerOk
  rw [show (f.answers "peer").textOr "" = f.peer from textOr_str _,
    show trimMatches isSpace f.peer.toList = strip f.peer.toList from rfl]
  dsimp only
  split_ifs with hpeer
  · exact iff_of_false (fun h => nomatch h) (not_or.mpr ⟨hpeer.1, hpeer.2⟩)
  · refine iff_of_true rfl ?_
    unfold urlPattern at hpeer
    tauto

theorem hashPassword_iff {c : Crypt} {call : ℕ} {pw : String} :
    (∃ text, hashPassword c call pw = .ok text) ↔ c.hash call pw ≠ none := by
  unfold hashPassword
  cases c.hash call pw with
  | none => exact iff_of_false (fun ⟨_, h⟩ => nomatch h) fun h => h rfl
  | some text => exact iff_of_true ⟨text, rfl⟩ (Option.some_ne_none text)

theorem reboot_notMem_fixed (d : Decimals) (a : Answers) (disk : Disk)
    (firmware rootHash adminHash : String) :
    ["reboot"] ∉ fixedArguments d a disk firmware rootHash adminHash := by
  unfold fixedArguments networkArguments
  split_ifs <;> simp

/-- None of the commands is the line that is looked for, and none has more than one line. -/
theorem commands_quiet {a : Answers} (disk : Disk) (firmware : String)
    {line rootHash adminHash : String} (hn : Named a n) (hnet : networkLine d a n = .ok line)
    (hroot : Solid rootHash) (hadmin : Solid adminHash) :
    (∀ l ∈ commandLines n line rootHash adminHash disk.id firmware, '\n' ∉ l.toList) ∧
      "reboot" ∉ commandLines n line rootHash adminHash disk.id firmware := by
  have hspelled : List.Forall₂ Spelled (commandLines n line rootHash adminHash disk.id firmware)
      (fixedArguments d a disk firmware rootHash adminHash) :=
    spelled_commandLines hn hnet hroot hadmin
  obtain ⟨hargs, hbreak⟩ := spelled_all hspelled
  constructor
  · intro l hl hmem
    exact absurd (hbreak l hl _ hmem) (by decide)
  · intro hmem
    refine reboot_notMem_fixed d a disk firmware rootHash adminHash ?_
    have hword : Spelled "reboot" ["reboot"] := by decide
    rw [← hargs, ← hword.arguments]
    exact List.mem_map_of_mem hmem

/-- The request is taken exactly when each of its parts is. -/
theorem accepts_iff : Accepts lib m template firmware f ↔ ServerOk lib m template f := by
  constructor
  · rintro ⟨disk, text, hfind, h⟩
    unfold buildKickstart at h
    obtain ⟨diskId, hdisk, h⟩ := bind_ok h
    obtain ⟨n, hn, h⟩ := bind_ok h
    obtain ⟨⟨admin, root⟩, hpass, h⟩ := bind_ok h
    obtain ⟨network, hline, h⟩ := bind_ok h
    obtain ⟨_, hpeer, h⟩ := bind_ok h
    obtain ⟨adminHash, hadmin, h⟩ := bind_ok h
    obtain ⟨rootHash, hroot, h⟩ := bind_ok h
    obtain ⟨payload, hpayload, hlast⟩ := bind_ok h
    obtain ⟨hkind, hsize, rfl⟩ := chosenDisk_ok hdisk
    obtain ⟨hpair, hpasswords⟩ := passwords_iff.mp hpass
    cases hpair
    have hnet := networkLine_iff.mp ⟨_, hline⟩
    obtain ⟨hnic, hhost⟩ := names_iff.mp ⟨n, hn⟩
    obtain ⟨hbreak, hno⟩ := commands_quiet disk firmware (names_ok hn) hline
      (hashPassword_ok hroot).2 (hashPassword_ok hadmin).2
    dsimp only at hlast
    split at hlast
    · cases hlast
    · rename_i hreboot
      rw [reboot_mem_script hbreak hno] at hreboot
      exact ⟨⟨disk, hfind, hkind, hsize⟩, hnic, hhost, fun hs => (hnet hs).1, fun hs => (hnet hs).2,
        checkPeer_iff.mp hpeer, hpasswords,
        ⟨hashPassword_iff.mp ⟨_, hadmin⟩, hashPassword_iff.mp ⟨_, hroot⟩⟩, payload, hpayload, hreboot⟩
  · rintro ⟨⟨disk, hfind, hkind, hsize⟩, hnic, hhost, haddresses, hnumber, hpeer, hpasswords,
      ⟨hadmin, hroot⟩, payload, hpayload, hreboot⟩
    have hdisk : chosenDisk disk = .ok disk.id := by
      have hsolid : ∀ c ∈ disk.id.toList, isSpace c = false := fun c hc =>
        not_isSpace (solid_of_isAlphanum (disk.plain.2 c hc))
      unfold chosenDisk
      rw [if_neg (not_not.mpr hkind), if_neg (Int.not_lt.mpr hsize)]
      exact token_ok.mpr ⟨by rw [strip, trim_self hsolid, String.ofList_toList], many_iff.mpr
        ⟨fun hnil => disk.plain.1 (String.toList_eq_nil_iff.mp hnil), disk.plain.2⟩⟩
    obtain ⟨n, hn⟩ := names_iff.mpr ⟨hnic, hhost⟩
    have hpass := passwords_iff.mpr ⟨rfl, hpasswords⟩
    obtain ⟨network, hline⟩ := (networkLine_iff (n := n)).mpr
      fun hs => ⟨haddresses hs, hnumber hs⟩
    obtain ⟨adminHash, hadmin⟩ := hashPassword_iff.mpr hadmin
    obtain ⟨rootHash, hroot⟩ := hashPassword_iff.mpr hroot
    obtain ⟨hbreak, hno⟩ := commands_quiet disk firmware (names_ok hn) hline
      (hashPassword_ok hroot).2 (hashPassword_ok hadmin).2
    rw [← reboot_mem_script hbreak hno] at hreboot
    refine ⟨disk, script (commandLines n network rootHash adminHash disk.id firmware)
      (rstrip payload), hfind, ?_⟩
    unfold buildKickstart
    rw [bind_of_ok hdisk, bind_of_ok hn, bind_of_ok hpass]
    dsimp only
    rw [bind_of_ok hline, bind_of_ok (checkPeer_iff.mpr hpeer), bind_of_ok hadmin, bind_of_ok hroot,
      bind_of_ok hpayload, if_neg hreboot]
    rfl

end server

/-! ### Where they agree -/

/-- What the form lets through and the server does not. -/
inductive FormOnly (lib : Library) (template : String) (f : Form zones) : Prop
  | hostname (h : ∃ c ∈ f.hostname.toList, formBlank c = true)
  | address (hs : f.mode = .static) (t : String) (ht : t ∈ f.addresses)
      (h : (∃ c ∈ t.toList, formBlank c = true) ∨
        ∃ part ∈ (jsTrim t.toList).splitOn '.', ¬ NoLeadingZero part)
  | number (hs : f.mode = .static) (h : ¬ PlainPrefix f.pfx.toList)
  | peer (h : OddPeer jsSpace isSpace (strip f.peer.toList))
  | password (p : String × String) (hp : p ∈ f.passwords)
      (h : p.1.length < 8 ∨ '\r' ∈ p.1.toList ∨ '\x00' ∈ p.1.toList)
  | crypt (h : lib.crypt.hash 0 f.adminPassword = none ∨ lib.crypt.hash 1 f.root = none)
  | template (h : ¬ TemplateOk template)

/-- What the server takes and the form holds back. -/
inductive ServerOnly (m : Machine) (f : Form zones) : Prop
  | nic (h : findNic m f.nicId = none)
  | hostname (h : ∃ c ∈ f.hostname.toList, serverBlank c = true)
  | address (hs : f.mode = .static) (t : String) (ht : t ∈ f.addresses)
      (h : ∃ c ∈ t.toList, serverBlank c = true)
  | number (hs : f.mode = .static) (h : ∃ c ∈ f.pfx.toList, numeral c = false)
  | peer (h : OddPeer isSpace jsSpace (jsTrim f.peer.toList))

section agreed
variable {lib : Library} {m : Machine} {template firmware : String} {f : Form zones}

theorem hostPattern_unblank (t : List Char) (h : hostPattern t = true) :
    ∀ c ∈ t, jsSpace c = false ∧ isSpace c = false := by
  intro c hc
  have hsolid : 33 ≤ c.toNat ∧ c.toNat ≤ 126 := by
    rcases (hostPattern_chars h).2 c hc with h | rfl
    · exact solid_of_isAlphanum h
    · decide
  exact ⟨not_jsSpace hsolid, not_isSpace hsolid⟩

theorem exists_blank {p : Char → Bool} {s : List Char} :
    ¬ (∀ c ∈ s, p c = false) ↔ ∃ c ∈ s, p c = true := by
  simp

theorem nic_listed (h : findNic m f.nicId ≠ none) : many nicChar (strip f.nicId.toList) = true := by
  obtain ⟨n, hn⟩ := Option.ne_none_iff_exists'.mp h
  have hid : n.id = f.nicId := by simpa using List.find?_some hn
  have hplain := n.plain
  rw [hid] at hplain
  have hsolid : ∀ c ∈ f.nicId.toList, isSpace c = false := fun c hc =>
    not_isSpace (solid_nicChar ((many_iff.mp hplain).2 c hc))
  rwa [strip, trim_self hsolid]

/-- Where the form has no issue, the server's refusals are these. -/
theorem form_only (h : FormOk m f) : ¬ ServerOk lib m template f ↔ FormOnly lib template f := by
  have hhost : hostPattern (strip f.hostname.toList) = true ↔
      ∀ c ∈ f.hostname.toList, formBlank c = false := by
    rw [← forall₂_congr fun c (_ : c ∈ f.hostname.toList) => jsSpace_imp]
    exact pattern_trim hostPattern_unblank h.hostname
  constructor
  · intro hno
    by_contra hnone
    refine hno ⟨h.disk, nic_listed h.nic, hhost.mpr ?_, fun hs t ht => ?_, fun hs => ?_, ?_,
      fun p hp => ?_, ?_, ?_⟩
    · by_contra hblank
      exact hnone (.hostname (exists_blank.mp hblank))
    · refine (address_form (h.addresses hs t ht)).mpr ⟨?_, fun part hpart => ?_⟩
      · by_contra hblank
        exact hnone (.address hs t ht (.inl (exists_blank.mp hblank)))
      · by_contra hzero
        exact hnone (.address hs t ht (.inr ⟨part, hpart, hzero⟩))
    · refine (prefix_form (h.number hs)).mpr ?_
      by_contra hplain
      exact hnone (.number hs hplain)
    · by_contra hpeer
      exact hnone (.peer ((peer_trim not_jsSpace not_isSpace h.peer).mp hpeer))
    · refine ⟨(password_form (h.passwords p hp).1).mpr ?_, (h.passwords p hp).2⟩
      refine ⟨?_, ?_, ?_⟩
      · by_contra hlen
        exact hnone (.password p hp (.inl (Nat.not_le.mp hlen)))
      · exact fun hmem => hnone (.password p hp (.inr (.inl hmem)))
      · exact fun hmem => hnone (.password p hp (.inr (.inr hmem)))
    · exact ⟨fun hnil => hnone (.crypt (.inl hnil)), fun hnil => hnone (.crypt (.inr hnil))⟩
    · by_contra htemplate
      exact hnone (.template htemplate)
  · intro hodd hok
    cases hodd with
    | hostname hblank => exact exists_blank.mpr hblank (hhost.mp hok.hostname)
    | address hs t ht hodd =>
      obtain ⟨hblank, hzero⟩ := (address_form (h.addresses hs t ht)).mp (hok.addresses hs t ht)
      rcases hodd with hodd | ⟨part, hpart, hodd⟩
      · exact exists_blank.mpr hodd hblank
      · exact hodd (hzero part hpart)
    | number hs hodd => exact hodd ((prefix_form (h.number hs)).mp (hok.number hs))
    | peer hodd => exact (peer_trim not_jsSpace not_isSpace h.peer).mpr hodd hok.peer
    | password p hp hodd =>
      have hpw := (hok.passwords p hp).1
      rcases hodd with hlen | hmem | hmem
      · exact Nat.not_le.mpr hlen hpw.length
      · exact hpw.chars.2.2.1 hmem
      · exact hpw.chars.2.2.2 hmem
    | crypt hodd => exact hodd.elim hok.crypt.1 hok.crypt.2
    | template hodd => exact hodd hok.template

/-- Where the server takes the answers, the form's issues are these. -/
theorem server_only (h : ServerOk lib m template f) : ¬ FormOk m f ↔ ServerOnly m f := by
  have hhost : hostPattern (jsTrim f.hostname.toList) = true ↔
      ∀ c ∈ f.hostname.toList, serverBlank c = false := by
    rw [← forall₂_congr fun c (_ : c ∈ f.hostname.toList) => isSpace_imp]
    exact pattern_trim (fun t ht c hc => (hostPattern_unblank t ht c hc).symm) h.hostname
  constructor
  · intro hno
    by_contra hnone
    refine hno ⟨h.disk, fun hnil => hnone (.nic hnil), hhost.mpr ?_, fun hs t ht => ?_,
      fun hs => ?_, ?_, fun p hp => ?_⟩
    · by_contra hblank
      exact hnone (.hostname (exists_blank.mp hblank))
    · refine (address_server (h.addresses hs t ht)).mpr ?_
      by_contra hblank
      exact hnone (.address hs t ht (exists_blank.mp hblank))
    · refine (prefix_server (h.number hs)).mpr fun c hc => ?_
      by_contra hnumeral
      exact hnone (.number hs ⟨c, hc, Bool.eq_false_iff.mpr hnumeral⟩)
    · by_contra hpeer
      exact hnone (.peer ((peer_trim not_isSpace not_jsSpace h.peer).mp hpeer))
    · exact ⟨password_server (h.passwords p hp).1, (h.passwords p hp).2⟩
  · intro hodd hok
    cases hodd with
    | nic hnil => exact hok.nic hnil
    | hostname hblank => exact exists_blank.mpr hblank (hhost.mp hok.hostname)
    | address hs t ht hodd =>
      exact exists_blank.mpr hodd ((address_server (h.addresses hs t ht)).mp (hok.addresses hs t ht))
    | number hs hodd =>
      obtain ⟨c, hc, hodd⟩ := hodd
      rw [(prefix_server (h.number hs)).mp (hok.number hs) c hc] at hodd
      cases hodd
    | peer hodd => exact (peer_trim not_isSpace not_jsSpace h.peer).mpr hodd hok.peer

end agreed

/-- The form and the server agree exactly when neither of them takes a whole request in which
something is written in a way that only it reads. -/
theorem form_agrees_iff (lib : Library) (m : Machine) (template firmware : String) (f : Form zones)
    (h : f.eraseConfirmed = true) :
    (firstInvalidStep m f = -1 ↔ Accepts lib m template firmware f) ↔
      ¬ (FormOk m f ∧ FormOnly lib template f) ∧
        ¬ (ServerOk lib m template f ∧ ServerOnly m f) := by
  rw [firstInvalidStep_iff h, accepts_iff]
  have hform : FormOk m f → (¬ ServerOk lib m template f ↔ FormOnly lib template f) := form_only
  have hserver : ServerOk lib m template f → (¬ FormOk m f ↔ ServerOnly m f) := server_only
  tauto

/-- A machine with one disk and one card. -/
def smallMachine : Machine where
  disks := [sda]
  nics := [⟨"eth0", by decide⟩]

def utc : Zones where
  list := ["Etc/UTC"]
  plain := by decide

/-- A static network whose last octet has a zero in front. -/
def zeroForm : Form utc where
  lang := "en_US.UTF-8"
  lang_mem := by decide
  keyboard := "us"
  keyboard_mem := by decide
  timezone := "Etc/UTC"
  timezone_mem := by decide
  diskId := "sda"
  eraseConfirmed := true
  nicId := "eth0"
  mode := .static
  address := "10.1.1.042"
  pfx := "24"
  gateway := "10.1.1.1"
  dns := "1.1.1.1"
  hostname := "node1"
  peer := ""
  adminPassword := "password"
  adminConfirm := "password"
  separateRoot := false
  rootPassword := ""
  rootConfirm := ""

theorem form_agrees_iff_zero :
    (firstInvalidStep smallMachine zeroForm = -1 ↔
      Accepts ⟨asciiDecimals, fixedCrypt⟩ smallMachine "" "uefi" zeroForm) ↔
      ¬ (FormOk smallMachine zeroForm ∧ FormOnly ⟨asciiDecimals, fixedCrypt⟩ "" zeroForm) ∧
        ¬ (ServerOk ⟨asciiDecimals, fixedCrypt⟩ smallMachine "" zeroForm ∧
          ServerOnly smallMachine zeroForm) :=
  form_agrees_iff ⟨asciiDecimals, fixedCrypt⟩ smallMachine "" "uefi" zeroForm rfl

theorem zero_let_through : firstInvalidStep smallMachine zeroForm = -1 ∧
    ¬ Accepts ⟨asciiDecimals, fixedCrypt⟩ smallMachine "" "uefi" zeroForm := by
  constructor
  · decide +kernel
  · intro h
    have hok := accepts_iff.mp h
    have haddress := hok.addresses rfl "10.1.1.042" List.mem_cons_self
    exact absurd haddress (by decide +kernel)

end Pertisk.Installer
