import Pertisk.Lib.Ranked
import Pertisk.Lib.Serde
import Pertisk.Lib.Text
import Pertisk.Vmm.Replies

namespace Pertisk.DiskBoot
open PeerUrl Lib

/-- A file or a directory that a listing shows, with its text where it can be read. -/
structure DirEntry where
  name : List Char
  isFile : Bool
  text : Option (List Char)

/-- What listing a directory gives. -/
abbrev Dir := Option (List DirEntry)

structure BlsEntry where
  linux : List Char
  initrd : List Char
  options : List Char
  version : List Char
  deriving DecidableEq

def textLines (text : List Char) : List (List Char) := (Vmm.lines 0 text).map Prod.snd

/-- The fields of an entry that have been read. -/
structure BlsFields where
  linux : Option (List Char) := none
  initrd : Option (List Char) := none
  options : List Char := []
  version : List Char := []

def blsLine (fields : BlsFields) (line : List Char) : BlsFields :=
  let line := trim line
  match stripPrefix line "linux " with
  | some rest => { fields with linux := some (trim rest) }
  | none =>
    match stripPrefix line "initrd " with
    | some rest => { fields with initrd := some (trim rest) }
    | none =>
      match stripPrefix line "options " with
      | some rest => { fields with options := trim rest }
      | none =>
        match stripPrefix line "version " with
        | some rest => { fields with version := trim rest }
        | none => fields

def parseBls (file : DirEntry) : Option BlsEntry := do
  let text ← file.text
  let fields := (textLines text).foldl blsLine {}
  let linux ← fields.linux
  let initrd ← fields.initrd
  return { linux, initrd, options := fields.options, version := fields.version }

/-- `Path::extension`: a name that only begins with its dot has none. -/
def extension (name : List Char) : Option (List Char) :=
  match rsplitOnce name '.' with
  | some (stem, ext) => if stem.isEmpty then none else some ext
  | none => none

/-- The order of texts, character by character. -/
def textLe (a b : List Char) : Bool := lexLe (a.map Char.toNat) (b.map Char.toNat)

/-- The entries of the boot loader's directory. -/
def blsEntries (dir : Dir) : List BlsEntry :=
  ((dir.getD []).filter (fun file => extension file.name == some "conf".toList)).filterMap parseBls

def pickBlsEntry (dir : Dir) : Option BlsEntry :=
  match dir with
  | none => none
  | some files =>
    let entries := (blsEntries dir).mergeSort (fun a b => textLe b.version a.version)
    (entries.find? (fun e => !contains e.version "rescue")).or (files.filterMap parseBls).head?

/-- The names of the files that begin with `start`. -/
def prefixed (dir : Dir) (start : String) : List (List Char) :=
  ((dir.getD []).filter (fun file => file.isFile && startsWith file.name start)).map DirEntry.name

def newestPrefixed (dir : Dir) (start : String) : Option (List Char) :=
  ((prefixed dir start).mergeSort textLe).getLast?

def isFileIn (dir : Dir) (name : List Char) : Bool :=
  (dir.getD []).any (fun file => file.isFile && file.name == name)

def existingFile (dir : Dir) (names : List (List Char)) : Option (List Char) :=
  names.find? (isFileIn dir)

/-- The path below the root of a name in the directory at `rel`. -/
def pathUnder (rel name : List Char) : List Char :=
  (rel ++ name).map (fun c => if c = '\\' then '/' else c)

def words (s : List Char) : List (List Char) :=
  (s.splitOnP isWhiteSpace).filter (!·.isEmpty)

/-- What a line says after the kernel that it loads. -/
def linuxOptions (line : List Char) : Option (List Char) := do
  let line := trim line
  let rest ← ((stripPrefix line "linux ").or (stripPrefix line "linux\t")).or
    (stripPrefix line "linuxefi ")
  let options := [' '].intercalate ((words rest).drop 1)
  if options.isEmpty then none else some options

/-- The options of the last line in a configuration that has some. -/
def bootOptions (text : List Char) : Option (List Char) :=
  (textLines text).reverse.findSome? linuxOptions

/-- The configurations in the order of the search; one that cannot be read ends it. -/
def grubLinuxOptions : List (Option (List Char)) → Option (List Char)
  | [] => none
  | none :: _ => none
  | some text :: rest =>
    match bootOptions text with
    | some options => some options
    | none => grubLinuxOptions rest

/-- What the search for a kernel sees of a file system: the directory that it looks in, at `rel`, the
entries of the boot loader, and `boot/grub/grub.cfg`, `grub/grub.cfg` and `boot/grub2/grub.cfg`. -/
structure Image where
  rel : List Char
  dir : Dir
  entries : Dir
  bootGrub : Option (List Char)
  grub : Option (List Char)
  bootGrub2 : Option (List Char)

def Image.configs (i : Image) : List (Option (List Char)) := [i.bootGrub, i.grub, i.bootGrub2]

/-- What stands behind `vmlinuz` in the name of a kernel. -/
def suffix (name : List Char) : List Char := (stripPrefix name "vmlinuz").getD []

def namedInitrd (dir : Dir) (before suffix after : List Char) : Option (List Char) :=
  if suffix.isEmpty then none
  else existingFile dir [before ++ suffix ++ after]

def kernelInDir (i : Image) : Option BlsEntry := do
  let linux ← (existingFile i.dir ["vmlinuz".toList]).or (newestPrefixed i.dir "vmlinuz-")
  let suffix := suffix linux
  let initrd ← (((existingFile i.dir ["initrd.img".toList, "initrd.img.old".toList]).or
    (namedInitrd i.dir "initrd.img".toList suffix [])).or
    (namedInitrd i.dir "initramfs".toList suffix ".img".toList)).or
    ((newestPrefixed i.dir "initrd.img-").or (newestPrefixed i.dir "initramfs-"))
  return {
    version := suffix.dropWhile (· == '-')
    linux := pathUnder i.rel linux
    initrd := pathUnder i.rel initrd
    options := (grubLinuxOptions i.configs).getD []
  }

/-- The numbers of a version, between its dots and dashes. -/
def numbers (version : List Char) : Option (List ℕ) :=
  (version.splitOnP (fun c => c == '.' || c == '-')).mapM decimal

/-- By its numbers, `u` is not a newer version than `v`. -/
def NotNewer (u v : List Char) : Prop :=
  ∀ m n, numbers u = some m → numbers v = some n → lexLe m n = true

def kernelVersion (name : List Char) : List Char := (stripPrefix name "vmlinuz-").getD []

/-- The names that an initrd of the kernel's version has. -/
def sameVersion (name : List Char) : List (List Char) :=
  ["initrd.img".toList ++ suffix name, "initramfs".toList ++ suffix name ++ ".img".toList]

namespace Image

/-- The versions are dotted or dashed numbers. -/
structure Dotted (i : Image) : Prop where
  kernels : ∀ name ∈ prefixed i.dir "vmlinuz-", (numbers (kernelVersion name)).isSome = true
  entries : ∀ e ∈ blsEntries i.entries, (numbers e.version).isSome = true

def NewestKernel (i : Image) : Prop :=
  ∀ other ∈ prefixed i.dir "vmlinuz-", ∃ name ∈ prefixed i.dir "vmlinuz-",
    newestPrefixed i.dir "vmlinuz-" = some name ∧
      NotNewer (kernelVersion other) (kernelVersion name)

def NewestEntry (i : Image) : Prop :=
  ∀ other ∈ blsEntries i.entries, ∃ e ∈ blsEntries i.entries,
    pickBlsEntry i.entries = some e ∧ NotNewer other.version e.version

/-- The kernel that is chosen by its version gets an initrd of the same one where there is any. -/
def Paired (i : Image) : Prop :=
  isFileIn i.dir "vmlinuz".toList = false → ∀ name, newestPrefixed i.dir "vmlinuz-" = some name →
    ∀ initrd ∈ sameVersion name, isFileIn i.dir initrd = true →
      ∃ e, kernelInDir i = some e ∧ e.linux = pathUnder i.rel name ∧
        ∃ paired ∈ sameVersion name, isFileIn i.dir paired = true ∧
          e.initrd = pathUnder i.rel paired

/-- The options are those of the first configuration that has some. -/
def FirstOptions (i : Image) : Prop :=
  grubLinuxOptions i.configs = i.configs.findSome? (·.bind bootOptions)

end Image

/-- A version that no other is newer than is also the last one as a text. -/
def LastIsNewest (versions : List (List Char)) : Prop :=
  versions = [] ∨ ∃ v ∈ versions, ∀ u ∈ versions, textLe u v = true ∧ NotNewer u v

/-- No initrd without a version hides the one of the kernel that is last as a text. -/
def Image.Unhidden (i : Image) : Prop :=
  isFileIn i.dir "vmlinuz".toList = true ∨
    (isFileIn i.dir "initrd.img".toList = false ∧ isFileIn i.dir "initrd.img.old".toList = false) ∨
    ∀ name ∈ prefixed i.dir "vmlinuz-", (∀ other ∈ prefixed i.dir "vmlinuz-",
      textLe other name = true) → ∀ initrd ∈ sameVersion name, isFileIn i.dir initrd = false

/-- No configuration is missing before the first one that has options. -/
def NoneMissing (configs : List (Option (List Char))) : Prop :=
  ∀ before text after, configs = before ++ some text :: after → (bootOptions text).isSome = true →
    (∀ c ∈ before, c.bind bootOptions = none) → none ∉ before

/-! ### The order of texts -/

theorem textLe_trans (a b c : List Char) (hab : textLe a b = true) (hbc : textLe b c = true) :
    textLe a c = true := lexLe_trans hab hbc

theorem textLe_total (a b : List Char) : (textLe a b || textLe b a) = true := lexLe_total _ _

theorem textLe_antisymm {a b : List Char} (hab : textLe a b = true) (hba : textLe b a = true) :
    a = b :=
  List.map_injective_iff.mpr (fun _ _ h => Char.toNat_inj.mp h) (lexLe_antisymm hab hba)

theorem textLe_append (p a b : List Char) : textLe (p ++ a) (p ++ b) = textLe a b := by
  induction p with
  | nil => rfl
  | cons c p ih =>
    rw [Bool.eq_iff_iff] at ih ⊢
    rw [← ih]
    exact lexLe_cons.trans ⟨fun h => (h.resolve_left (lt_irrefl _)).2, fun h => .inr ⟨rfl, h⟩⟩

/-! ### The newest kernel -/

variable {i : Image} {dir : Dir} {start : String} {name : List Char}

theorem startsWith_of_mem_prefixed (h : name ∈ prefixed dir start) :
    startsWith name start = true := by
  obtain ⟨file, hfile, rfl⟩ := List.mem_map.mp h
  have := (List.mem_filter.mp hfile).2
  rw [Bool.and_eq_true] at this
  exact this.2

theorem name_eq (h : name ∈ prefixed dir "vmlinuz-") :
    name = "vmlinuz-".toList ++ kernelVersion name := by
  have hstart := startsWith_of_mem_prefixed h
  obtain ⟨rest, hrest⟩ := List.isPrefixOf_iff_prefix.mp hstart
  have hversion : kernelVersion name = name.drop "vmlinuz-".toList.length := by
    unfold kernelVersion stripPrefix
    rw [if_pos hstart]
    rfl
  rw [hversion, ← hrest, List.drop_left]

theorem newestPrefixed_last (h : newestPrefixed dir start = some name) :
    name ∈ prefixed dir start ∧ ∀ other ∈ prefixed dir start, textLe other name = true :=
  last_mergeSort textLe_trans textLe_total h

theorem newestPrefixed_isSome (h : name ∈ prefixed dir start) :
    ∃ newest, newestPrefixed dir start = some newest := by
  have hmem : name ∈ (prefixed dir start).mergeSort textLe := List.mem_mergeSort.mpr h
  exact ⟨_, List.getLast?_eq_some_getLast (List.ne_nil_of_mem hmem)⟩

theorem newestKernel_iff :
    i.NewestKernel ↔ LastIsNewest ((prefixed i.dir "vmlinuz-").map kernelVersion) := by
  constructor
  · intro hall
    by_cases hnil : prefixed i.dir "vmlinuz-" = []
    · exact .inl (by rw [hnil]; rfl)
    · obtain ⟨first, hfirst⟩ := List.exists_mem_of_ne_nil _ hnil
      obtain ⟨name, hname, hnewest, -⟩ := hall first hfirst
      refine .inr ⟨_, List.mem_map_of_mem hname, fun u hu => ?_⟩
      obtain ⟨other, hother, rfl⟩ := List.mem_map.mp hu
      obtain ⟨name', -, hnewest', hnot⟩ := hall other hother
      obtain rfl := Option.some.inj (hnewest.symm.trans hnewest')
      have hle := (newestPrefixed_last hnewest).2 other hother
      rw [name_eq hother, name_eq hname, textLe_append] at hle
      exact ⟨hle, hnot⟩
  · rintro (hnil | ⟨v, hv, hall⟩) other hother
    · rw [List.map_eq_nil_iff] at hnil
      rw [hnil] at hother
      cases hother
    · obtain ⟨last, hlast, rfl⟩ := List.mem_map.mp hv
      obtain ⟨name, hnewest⟩ := newestPrefixed_isSome hother
      obtain ⟨hname, hle⟩ := newestPrefixed_last hnewest
      have hback := hle last hlast
      rw [name_eq hlast, name_eq hname, textLe_append] at hback
      have hsame := textLe_antisymm (hall _ (List.mem_map_of_mem hname)).1 hback
      refine ⟨name, hname, hnewest, ?_⟩
      rw [hsame]
      exact (hall _ (List.mem_map_of_mem hother)).2

/-! ### The newest entry -/

theorem mem_splitOnP {p : Char → Bool} {s : List Char} {c : Char} (hc : c ∈ s) (hp : p c = false) :
    ∃ part ∈ s.splitOnP p, c ∈ part := by
  induction s with
  | nil => cases hc
  | cons d s ih =>
    rw [List.splitOnP_cons_eq_if_modifyHead]
    cases hd : p d with
    | true =>
      have hne : c ≠ d := by
        rintro rfl
        rw [hp] at hd
        cases hd
      obtain ⟨part, hpart, hmem⟩ := ih ((List.mem_cons.mp hc).resolve_left hne)
      exact ⟨part, List.mem_cons_of_mem _ hpart, hmem⟩
    | false =>
      rw [if_neg Bool.false_ne_true]
      cases hs : s.splitOnP p with
      | nil => exact absurd hs (List.splitOnP_ne_nil p s)
      | cons first rest =>
        rw [List.modifyHead_cons]
        rcases List.mem_cons.mp hc with rfl | hc
        · exact ⟨_, List.mem_cons_self, List.mem_cons_self⟩
        · obtain ⟨part, hpart, hmem⟩ := ih hc
          rw [hs] at hpart
          rcases List.mem_cons.mp hpart with rfl | hpart
          · exact ⟨_, List.mem_cons_self, List.mem_cons_of_mem d hmem⟩
          · exact ⟨part, List.mem_cons_of_mem _ hpart, hmem⟩

/-- A version of numbers has no letters. -/
theorem isDigit_of_numbers {v : List Char} (h : (numbers v).isSome = true) {c : Char} (hc : c ∈ v)
    (hsep : (c == '.' || c == '-') = false) : c.isDigit = true := by
  obtain ⟨part, hpart, hmem⟩ := mem_splitOnP (p := fun c => c == '.' || c == '-') hc hsep
  obtain ⟨m, hm⟩ := Option.isSome_iff_exists.mp h
  obtain ⟨n, hn⟩ : ∃ n, decimal part = some n := by
    cases hn : decimal part with
    | some n => exact ⟨n, rfl⟩
    | none =>
      have hnone : numbers v = none := Codec.mapM_none hpart hn
      rw [hm] at hnone
      cases hnone
  exact List.all_eq_true.mp (decimal_eq_some.mp hn).2.1 c hmem

theorem not_rescue {v : List Char} (h : (numbers v).isSome = true) : contains v "rescue" = false := by
  rw [contains, List.any_eq_false]
  intro tail htail hprefix
  have hr : 'r' ∈ v := by
    have hmem : 'r' ∈ tail := (List.isPrefixOf_iff_prefix.mp hprefix).subset (by decide)
    exact ((List.mem_tails _ _).mp htail).subset hmem
  have := isDigit_of_numbers h hr (by decide)
  cases this

theorem pickBlsEntry_first (hdotted : i.Dotted) {other : BlsEntry}
    (h : other ∈ blsEntries i.entries) : ∃ e ∈ blsEntries i.entries,
      pickBlsEntry i.entries = some e ∧
        ∀ other ∈ blsEntries i.entries, textLe other.version e.version = true := by
  let le := fun a b : BlsEntry => textLe b.version a.version
  have htrans : ∀ a b c : BlsEntry, le a b = true → le b c = true → le a c = true :=
    fun a b c hab hbc => textLe_trans _ _ _ hbc hab
  have htotal : ∀ a b : BlsEntry, (le a b || le b a) = true :=
    fun a b => textLe_total b.version a.version
  have hmem : other ∈ (blsEntries i.entries).mergeSort le := List.mem_mergeSort.mpr h
  cases hsorted : (blsEntries i.entries).mergeSort le with
  | nil =>
    rw [hsorted] at hmem
    cases hmem
  | cons e rest =>
    have hhead : ((blsEntries i.entries).mergeSort le).head? = some e := by
      rw [hsorted]
      rfl
    obtain ⟨he, hall⟩ := head_mergeSort htrans htotal hhead
    refine ⟨e, he, ?_, hall⟩
    have hfind : (((blsEntries i.entries).mergeSort le).find?
        (fun e => !contains e.version "rescue")) = some e := by
      rw [hsorted, List.find?_cons, not_rescue (hdotted.entries e he)]
      rfl
    unfold pickBlsEntry
    cases hdir : i.entries with
    | none =>
      rw [hdir] at h
      cases h
    | some files =>
      dsimp only
      rw [hdir] at hfind
      rw [hfind]
      rfl

theorem newestEntry_iff (hdotted : i.Dotted) :
    i.NewestEntry ↔ LastIsNewest ((blsEntries i.entries).map BlsEntry.version) := by
  constructor
  · intro hall
    by_cases hnil : blsEntries i.entries = []
    · exact .inl (by rw [hnil]; rfl)
    · obtain ⟨first, hfirst⟩ := List.exists_mem_of_ne_nil _ hnil
      obtain ⟨e, he, hpick, hle⟩ := pickBlsEntry_first hdotted hfirst
      refine .inr ⟨_, List.mem_map_of_mem he, fun u hu => ?_⟩
      obtain ⟨other, hother, rfl⟩ := List.mem_map.mp hu
      obtain ⟨e', -, hpick', hnot⟩ := hall other hother
      obtain rfl := Option.some.inj (hpick.symm.trans hpick')
      exact ⟨hle other hother, hnot⟩
  · rintro (hnil | ⟨v, hv, hall⟩) other hother
    · rw [List.map_eq_nil_iff] at hnil
      rw [hnil] at hother
      cases hother
    · obtain ⟨last, hlast, rfl⟩ := List.mem_map.mp hv
      obtain ⟨e, he, hpick, hle⟩ := pickBlsEntry_first hdotted hother
      have hsame := textLe_antisymm (hall _ (List.mem_map_of_mem he)).1 (hle last hlast)
      refine ⟨e, he, hpick, ?_⟩
      rw [hsame]
      exact (hall _ (List.mem_map_of_mem hother)).2

/-! ### The options -/

theorem grubLinuxOptions_iff (configs : List (Option (List Char))) :
    grubLinuxOptions configs = configs.findSome? (·.bind bootOptions) ↔ NoneMissing configs := by
  induction configs with
  | nil =>
    refine iff_of_true rfl fun before text after h => ?_
    cases before <;> cases h
  | cons config rest ih =>
    cases config with
    | none =>
      change none = rest.findSome? (·.bind bootOptions) ↔ _
      constructor
      · intro hnone before text after hconfigs hsome hbefore
        cases before with
        | nil => cases hconfigs
        | cons c before =>
          obtain ⟨rfl, hrest⟩ := List.cons.inj hconfigs
          have := List.findSome?_eq_none_iff.mp hnone.symm (some text) (by rw [hrest]; simp)
          rw [Option.bind_some] at this
          rw [this] at hsome
          cases hsome
      · intro hmissing
        cases hfound : rest.findSome? (·.bind bootOptions) with
        | none => rfl
        | some options =>
          obtain ⟨before, c, after, hrest, hc, hbefore⟩ := List.findSome?_eq_some_iff.mp hfound
          cases c with
          | none => cases hc
          | some text =>
            rw [Option.bind_some] at hc
            refine absurd List.mem_cons_self
              (hmissing (none :: before) text after (congrArg _ hrest) (by rw [hc]; rfl) ?_)
            intro c hmem
            rcases List.mem_cons.mp hmem with rfl | hmem
            · rfl
            · exact hbefore c hmem
    | some text =>
      rw [grubLinuxOptions, List.findSome?_cons, Option.bind_some]
      cases hoptions : bootOptions text with
      | some options =>
        refine iff_of_true rfl fun before text' after hconfigs _ hbefore => ?_
        cases before with
        | nil => nofun
        | cons c before =>
          obtain ⟨rfl, -⟩ := List.cons.inj hconfigs
          have := hbefore _ List.mem_cons_self
          rw [Option.bind_some, hoptions] at this
          cases this
      | none =>
        refine ih.trans ⟨fun hmissing before text' after hconfigs hsome hbefore => ?_,
          fun hmissing before text' after hconfigs hsome hbefore => ?_⟩
        · cases before with
          | nil => nofun
          | cons c before =>
            obtain ⟨rfl, hrest⟩ := List.cons.inj hconfigs
            have := hmissing before text' after hrest hsome
              fun c hc => hbefore c (List.mem_cons_of_mem _ hc)
            intro hmem
            rcases List.mem_cons.mp hmem with habs | hmem
            · cases habs
            · exact this hmem
        · have := hmissing (some text :: before) text' after (congrArg _ hconfigs) hsome ?_
          · exact fun hmem => this (List.mem_cons_of_mem _ hmem)
          · intro c hc
            rcases List.mem_cons.mp hc with rfl | hc
            · exact hoptions
            · exact hbefore c hc

/-! ### The initrd -/

theorem suffix_eq (h : name ∈ prefixed dir "vmlinuz-") :
    suffix name = '-' :: kernelVersion name := by
  have hname := name_eq h
  have hsplit : "vmlinuz-".toList ++ kernelVersion name =
      "vmlinuz".toList ++ '-' :: kernelVersion name := rfl
  rw [hsplit] at hname
  have hstart : startsWith name "vmlinuz" = true :=
    List.isPrefixOf_iff_prefix.mpr ⟨_, hname.symm⟩
  unfold suffix stripPrefix
  rw [if_pos hstart, Option.getD_some]
  conv_lhs => rw [hname]
  exact List.drop_left

theorem namedInitrd_eq (h : name ∈ prefixed dir "vmlinuz-") (before after : List Char) :
    namedInitrd dir before (suffix name) after =
      if isFileIn dir (before ++ suffix name ++ after) = true
      then some (before ++ suffix name ++ after) else none := by
  unfold namedInitrd existingFile
  rw [suffix_eq h, List.isEmpty_cons, if_neg Bool.false_ne_true, List.find?_singleton]

/-- An initrd without a version is not at the path of one that has the kernel's. -/
theorem pathUnder_ne {rel plain paired : List Char} (h : name ∈ prefixed dir "vmlinuz-")
    (hplain : plain ∈ ["initrd.img".toList, "initrd.img.old".toList])
    (hpaired : paired ∈ sameVersion name) : pathUnder rel plain ≠ pathUnder rel paired := by
  intro hsame
  unfold pathUnder at hsame
  rw [List.map_append, List.map_append, List.append_cancel_left_eq] at hsame
  have htenth := congrArg (fun l => (l[5]?, l[10]?)) hsame
  simp only [sameVersion, suffix_eq h, List.mem_cons, List.not_mem_nil, or_false] at hpaired hplain
  rcases hplain with rfl | rfl <;> rcases hpaired with rfl | rfl <;> simp at htenth

/-- The initrd of the kernel that is chosen by its version. -/
def chosenInitrd (i : Image) (name : List Char) : Option (List Char) :=
  (((existingFile i.dir ["initrd.img".toList, "initrd.img.old".toList]).or
    (namedInitrd i.dir "initrd.img".toList (suffix name) [])).or
    (namedInitrd i.dir "initramfs".toList (suffix name) ".img".toList)).or
    ((newestPrefixed i.dir "initrd.img-").or (newestPrefixed i.dir "initramfs-"))

theorem kernelInDir_newest (hplain : isFileIn i.dir "vmlinuz".toList = false)
    (hnewest : newestPrefixed i.dir "vmlinuz-" = some name) :
    kernelInDir i = (chosenInitrd i name).map fun initrd => {
      version := (suffix name).dropWhile (· == '-')
      linux := pathUnder i.rel name
      initrd := pathUnder i.rel initrd
      options := (grubLinuxOptions i.configs).getD [] } := by
  have hlinux : (existingFile i.dir ["vmlinuz".toList]).or (newestPrefixed i.dir "vmlinuz-") =
      some name := by
    rw [existingFile, List.find?_singleton, hplain, hnewest]
    rfl
  unfold kernelInDir
  rw [hlinux]
  change (chosenInitrd i name).bind _ = _
  cases chosenInitrd i name with
  | none => rfl
  | some initrd => rfl

theorem chosenInitrd_paired (h : name ∈ prefixed i.dir "vmlinuz-")
    (hfree : isFileIn i.dir "initrd.img".toList = false ∧
      isFileIn i.dir "initrd.img.old".toList = false)
    {initrd : List Char} (hinitrd : initrd ∈ sameVersion name)
    (hfile : isFileIn i.dir initrd = true) :
    ∃ paired ∈ sameVersion name, isFileIn i.dir paired = true ∧
      chosenInitrd i name = some paired := by
  have hnone : existingFile i.dir ["initrd.img".toList, "initrd.img.old".toList] = none := by
    rw [existingFile, List.find?_cons, hfree.1, List.find?_singleton, hfree.2]
    rfl
  unfold chosenInitrd
  rw [hnone, namedInitrd_eq h, namedInitrd_eq h, List.append_nil]
  by_cases hfirst : isFileIn i.dir ("initrd.img".toList ++ suffix name) = true
  · rw [if_pos hfirst]
    exact ⟨_, List.mem_cons_self, hfirst, rfl⟩
  · rw [if_neg hfirst]
    rcases List.mem_cons.mp hinitrd with rfl | hinitrd
    · exact absurd hfile hfirst
    · rw [List.mem_singleton.mp hinitrd] at hfile
      rw [if_pos hfile]
      exact ⟨_, List.mem_cons_of_mem _ List.mem_cons_self, hfile, rfl⟩

theorem chosenInitrd_plain (hthere : ¬ (isFileIn i.dir "initrd.img".toList = false ∧
    isFileIn i.dir "initrd.img.old".toList = false)) :
    ∃ plain ∈ ["initrd.img".toList, "initrd.img.old".toList],
      chosenInitrd i name = some plain := by
  cases hfound : existingFile i.dir ["initrd.img".toList, "initrd.img.old".toList] with
  | none =>
    have hall := List.find?_eq_none.mp hfound
    have hfirst := hall _ List.mem_cons_self
    have hsecond := hall _ (List.mem_cons_of_mem _ List.mem_cons_self)
    exact absurd ⟨Bool.not_eq_true _ ▸ hfirst, Bool.not_eq_true _ ▸ hsecond⟩ hthere
  | some plain =>
    refine ⟨plain, List.mem_of_find?_eq_some hfound, ?_⟩
    unfold chosenInitrd
    rw [hfound]
    rfl

theorem paired_iff : i.Paired ↔ i.Unhidden := by
  constructor
  · intro hpaired
    by_cases hplain : isFileIn i.dir "vmlinuz".toList = true
    · exact .inl hplain
    by_cases hfree : isFileIn i.dir "initrd.img".toList = false ∧
        isFileIn i.dir "initrd.img.old".toList = false
    · exact .inr (.inl hfree)
    refine .inr (.inr fun name hname hlast initrd hinitrd => ?_)
    by_contra hfile
    rw [Bool.not_eq_false] at hfile
    rw [Bool.not_eq_true] at hplain
    obtain ⟨newest, hnewest⟩ := newestPrefixed_isSome hname
    obtain ⟨hmem, hle⟩ := newestPrefixed_last hnewest
    obtain rfl := textLe_antisymm (hle name hname) (hlast newest hmem)
    obtain ⟨e, he, -, paired, hpair, -, hsame⟩ := hpaired hplain name hnewest initrd hinitrd hfile
    have hthere : ∃ plain ∈ ["initrd.img".toList, "initrd.img.old".toList],
        chosenInitrd i name = some plain := chosenInitrd_plain hfree
    obtain ⟨plain, hin, hchosen⟩ := hthere
    rw [kernelInDir_newest hplain hnewest, hchosen] at he
    obtain rfl := Option.some.inj he
    exact pathUnder_ne hname hin hpair hsame
  · intro hunhidden hplain name hnewest initrd hinitrd hfile
    obtain ⟨hmem, hle⟩ := newestPrefixed_last hnewest
    rcases hunhidden with habs | hfree | hnone
    · rw [hplain] at habs
      cases habs
    · obtain ⟨paired, hpair, hthere, hchosen⟩ := chosenInitrd_paired hmem hfree hinitrd hfile
      rw [kernelInDir_newest hplain hnewest, hchosen]
      exact ⟨_, rfl, rfl, paired, hpair, hthere, rfl⟩
    · rw [hnone name hmem hle initrd hinitrd] at hfile
      cases hfile

/-- The newest kernel and entry are chosen, with the initrd of the same version and the options of
the first configuration that has some, exactly when texts and numbers agree on the last version, no
other initrd hides that one, and no configuration is missing before. -/
theorem boot_iff (hdotted : i.Dotted) :
    (i.NewestKernel ∧ i.NewestEntry ∧ i.Paired ∧ i.FirstOptions) ↔
      LastIsNewest ((prefixed i.dir "vmlinuz-").map kernelVersion) ∧
        LastIsNewest ((blsEntries i.entries).map BlsEntry.version) ∧ i.Unhidden ∧
        NoneMissing i.configs := by
  rw [newestKernel_iff, newestEntry_iff hdotted, paired_iff, Image.FirstOptions,
    grubLinuxOptions_iff]

def bootFile (name : String) : DirEntry := ⟨name.toList, true, none⟩

/-- Two kernels of one series, the older with the shorter number. -/
def twoKernels : Image where
  rel := "boot/".toList
  dir := some [bootFile "vmlinuz-6.8.0-9", bootFile "vmlinuz-6.8.0-31",
    bootFile "initrd.img-6.8.0-9", bootFile "initrd.img-6.8.0-31"]
  entries := none
  bootGrub := none
  grub := none
  bootGrub2 := some "linux /vmlinuz-6.8.0-31 root=/dev/vda1 ro".toList

theorem twoKernels_dotted : twoKernels.Dotted where
  kernels := by decide +kernel
  entries := nofun

theorem boot_iff_twoKernels :
    (twoKernels.NewestKernel ∧ twoKernels.NewestEntry ∧ twoKernels.Paired ∧
        twoKernels.FirstOptions) ↔
      LastIsNewest ((prefixed twoKernels.dir "vmlinuz-").map kernelVersion) ∧
        LastIsNewest ((blsEntries twoKernels.entries).map BlsEntry.version) ∧
        twoKernels.Unhidden ∧ NoneMissing twoKernels.configs :=
  boot_iff twoKernels_dotted

/-- The older kernel boots, and without the options of the only configuration. -/
theorem older_kernel : twoKernels.Dotted ∧ ¬ twoKernels.NewestKernel ∧
    ¬ twoKernels.FirstOptions := by
  refine ⟨twoKernels_dotted, fun hnewest => ?_, ?_⟩
  · obtain ⟨name, hmem, hname, hnot⟩ := hnewest "vmlinuz-6.8.0-31".toList (by decide +kernel)
    have hlast := (newestPrefixed_last hname).2 "vmlinuz-6.8.0-9".toList (by decide +kernel)
    have hkernels : prefixed twoKernels.dir "vmlinuz-" =
        ["vmlinuz-6.8.0-9".toList, "vmlinuz-6.8.0-31".toList] := by decide +kernel
    rw [hkernels, List.mem_cons, List.mem_singleton] at hmem
    rcases hmem with rfl | rfl
    · have hle := hnot [6, 8, 0, 31] [6, 8, 0, 9] (by decide +kernel) (by decide +kernel)
      exact absurd hle (by decide)
    · exact absurd hlast (by decide +kernel)
  · unfold Image.FirstOptions
    decide +kernel

end Pertisk.DiskBoot
