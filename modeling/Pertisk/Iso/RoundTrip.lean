import Pertisk.Iso.Layout

namespace Pertisk.Iso
open Lib

variable {files : List TreeFile} {image sector data : List UInt8} {dir : List Char} {kind : UInt8}
  {root lba i : ℕ} {b : UInt8}

/-! ### The volume descriptors -/

theorem readAt_of_length {len : ℕ} (h : (slice image (lba * 2048) len).length = len) :
    readAt image lba len = some (slice image (lba * 2048) len) := if_pos h

/-- The root directory that a descriptor names. -/
theorem parseRootRecord_of (h : DescriptorOf kind root sector) (hpos : 0 < root)
    (hlt : root < 2 ^ 32) : parseRootRecord sector = .ok (some (root, 2048)) := by
  have hlen := h.length
  have hrecord := dirRecord_of root 2048 2 [0]
  have hinner (o n : ℕ) (hn : o + n ≤ 34) :
      slice (slice sector 156 (sector.length - 156)) o n = slice (dirRecord root 2048 2 [0]) o n := by
    rw [slice_slice (by omega), ← h.root, slice_slice hn]
  have hbyte : (slice sector 156 (sector.length - 156))[0]? = some 34 := by
    refine getElem?_of_slice ?_
    rw [hinner 0 1 (by decide), hrecord.first, length_rootRecord]
    rfl
  have hsub : (slice sector 156 (sector.length - 156)).length = sector.length - 156 :=
    length_slice (by omega)
  unfold parseRootRecord
  rw [if_neg (by omega), bind_of_ok (range_ok (by omega) (Nat.le_refl _)),
    bind_of_ok (index_of_getElem? hbyte), if_neg (by decide),
    bind_of_ok (range_ok (by decide) (by omega)), bind_of_ok (range_ok (by decide) (by omega))]
  simp only [Nat.reduceSub]
  rw [hinner 2 4 (by decide), hinner 10 4 (by decide), hrecord.extent, hrecord.dataLen,
    u32FromLe_le32 hlt, u32FromLe_le32 (by decide)]
  dsimp only
  rw [if_neg (by omega)]
  rfl

theorem isJoliet_of (hlen : sector.length = 2048) (h : Marked sector) : isJoliet sector = .ok true := by
  obtain ⟨ha, hb, hc⟩ := h
  unfold isJoliet
  rw [if_pos (by omega), bind_of_ok (index_of_getElem? ha), bind_of_ok (index_of_getElem? hb),
    bind_of_ok (index_of_getElem? hc)]
  rfl

theorem parseVolumeId_ok (h : sector.length = 2048) : ∃ id, parseVolumeId sector = .ok id := by
  unfold parseVolumeId
  rw [if_neg (by omega), bind_of_ok (range_ok (by decide) (by omega))]
  exact ⟨_, rfl⟩

/-- A sector that is a descriptor's is looked at by its kind. -/
theorem readRoots_cons {lbas : List ℕ} {found : Roots} (hlen : sector.length = 2048)
    (hsector : slice image (lba * 2048) 2048 = sector) (hid : slice sector 1 5 = cd001)
    (hkind : sector[0]? = some kind) : readRoots image (lba :: lbas) found =
      if kind = 255 then .ok found
      else if kind = 1 then do
        let iso ← parseRootRecord sector
        let volumeId ← parseVolumeId sector
        readRoots image lbas { found with iso := iso, volumeId := volumeId }
      else if kind = 2 then do
        if ← isJoliet sector then
          let joliet ← parseRootRecord sector
          readRoots image lbas { found with joliet := joliet }
        else readRoots image lbas found
      else readRoots image lbas found := by
  have hread : readAt image lba 2048 = some sector := by
    rw [readAt_of_length (by rw [hsector, hlen]), hsector]
  rw [readRoots, hread]
  dsimp only
  rw [if_neg (by omega), bind_of_ok (range_ok (by decide) (by omega))]
  simp only [Nat.reduceSub]
  rw [if_neg (not_not.mpr hid), bind_of_ok (index_of_getElem? hkind)]
  rfl

/-- Both root directories are found. -/
theorem roots_of (h : Fits files) (him : ImageOf files image) : ∃ found,
    roots image = .ok (some found) ∧
      found.joliet = some ((lbaOf (treeDirs files) []).2, 2048) := by
  have hlt := h.dirs_lt
  have hidx : (treeDirs files).idxOf [] < (treeDirs files).length :=
    List.idxOf_lt_length_iff.mpr (root_mem h.parts)
  have hiso := parseRootRecord_of him.pvd (by unfold lbaOf; omega) (by unfold lbaOf; omega)
  have hjoliet := parseRootRecord_of him.svd (by unfold lbaOf; omega) (by unfold lbaOf; omega)
  obtain ⟨id, hid⟩ := parseVolumeId_ok him.pvd.length
  have hlast : (slice image (18 * 2048) 2048).length = 2048 := by
    rw [him.last, List.length_append, List.length_replicate]
    rfl
  have hread : readRoots image (List.range' 16 16) {} = .ok {
      iso := some ((lbaOf (treeDirs files) []).1, 2048)
      joliet := some ((lbaOf (treeDirs files) []).2, 2048), volumeId := id } := by
    show readRoots image (16 :: 17 :: 18 :: List.range' 19 13) {} = _
    rw [readRoots_cons him.pvd.length rfl him.pvd.id him.pvd.kind, if_neg (by decide), if_pos rfl,
      bind_of_ok hiso, bind_of_ok hid,
      readRoots_cons him.svd.length rfl him.svd.id him.svd.kind, if_neg (by decide),
      if_neg (by decide), if_pos rfl, bind_of_ok (isJoliet_of him.svd.length him.joliet), if_pos rfl,
      bind_of_ok hjoliet, readRoots_cons hlast rfl (by rw [him.last]; rfl) (by rw [him.last]; rfl),
      if_pos rfl]
  unfold roots
  rw [bind_of_ok hread]
  exact ⟨_, rfl, rfl⟩

/-! ### The directories -/

/-- What a directory of the tree has. -/
def Tree.entries (t : Tree) (dir : List Char) : List DirEnt :=
  (t.childDirs dir).map (fun child =>
    { name := basenameOf child, lba := (lbaOf t.dirs child).2, size := 2048, isDir := true }) ++
  (t.leaves dir).map (fun f =>
    { name := basenameOf f.1.path, lba := f.2, size := f.1.data.length, isDir := false })

theorem Fits.leaf (h : Fits files) {f : TreeFile × ℕ} (hf : f ∈ files.zip (treeOf files).extents) :
    f.2 < 2 ^ 32 ∧ f.1.data.length < 2 ^ 32 := by
  obtain ⟨-, -, hlaid⟩ := h.layout
  have hwithin := (hlaid.of_mem (List.mem_map.mpr ⟨f, hf, rfl⟩)).2
  have hroom := length_le_room f.1.data
  have htotal := h.total
  dsimp only at hwithin
  constructor <;> omega

/-- The last part of a path is its file's name. -/
theorem Fits.split (h : Fits files) {f : TreeFile} (hf : f ∈ files) : ∃ pre name,
    f.path.splitOn '/' = pre ++ [name] ∧ Named name ∧ parentOf f.path = join pre ∧
      basenameOf f.path = name := by
  obtain ⟨pre, name, hsplit⟩ : ∃ pre name, f.path.splitOn '/' = pre ++ [name] :=
    ⟨_, _, (List.dropLast_append_getLast (List.splitOn_ne_nil '/' f.path)).symm⟩
  have hparts := h.parts f hf
  have hpath := join_splitOn f.path
  rw [hsplit] at hparts hpath
  refine ⟨pre, name, hsplit, h.named f hf name (by rw [hsplit]; simp), ?_, ?_⟩
  · rw [← hpath, parentOf_join hparts]
  · rw [← hpath, basenameOf_join hparts]

theorem Fits.child_named (h : Fits files) {child : List Char} (hchild : child ∈ treeDirs files)
    (hne : child ≠ []) : Named (basenameOf child) := by
  obtain ⟨f, hf, pre, name, rest, hsplit, rfl⟩ := exists_part h.parts hchild hne
  have hparts := h.parts f hf
  rw [hsplit, ← List.singleton_append, ← List.append_assoc] at hparts
  rw [basenameOf_join hparts.left]
  exact h.named f hf name (by rw [hsplit]; simp)

/-- A record that names a child is read as it is written. -/
theorem Named.record {name : List Char} (hname : Named name) {extent dataLen : ℕ} (flags : UInt8)
    (hextent : extent < 2 ^ 32) (hdataLen : dataLen < 2 ^ 32) :
    Formed (dirRecord extent dataLen flags (ucs2 name)) ∧
      Iso.entries (dirRecord extent dataLen flags (ucs2 name)) true =
        [{ name := name, lba := extent, size := dataLen
           isDir := decide (flags.toNat / 2 % 2 ≠ 0) }] := by
  have hrecord := dirRecord_of extent dataLen flags (ucs2 name)
  have hunits := length_ucs2 name
  have hlen : (ucs2 name).length ≤ 221 := by
    have := hname.length
    omega
  have hself : ¬ (ucs2 name = [0] ∨ ucs2 name = [1]) := by
    rintro (heq | heq)
    · rw [heq, List.length_singleton] at hunits
      omega
    · rw [heq, List.length_singleton] at hunits
      omega
  have hdecode := decodeJoliet_ucs2 hname.version hname.dot
  refine ⟨hrecord.formed hlen, ?_⟩
  rw [hrecord.entries_child hlen hself hextent hdataLen (by rw [hdecode]; exact hname.nonempty),
    hdecode]

theorem Fits.leaf_record (h : Fits files) {f : TreeFile × ℕ}
    (hf : f ∈ (treeOf files).leaves dir) : Formed (leafRecord true f) ∧
      Iso.entries (leafRecord true f) true =
        [{ name := basenameOf f.1.path, lba := f.2, size := f.1.data.length, isDir := false }] := by
  have hzip := List.mem_of_mem_filter hf
  obtain ⟨-, name, -, hname, -, hbase⟩ := h.split (List.of_mem_zip hzip).1
  obtain ⟨hext, hlen⟩ := h.leaf hzip
  unfold leafRecord
  dsimp only
  rw [hbase, Nat.mod_eq_of_lt hlen, if_pos rfl]
  exact hname.record 0 hext hlen

theorem Fits.subdir_record (h : Fits files) {child : List Char}
    (hchild : child ∈ (treeOf files).childDirs dir) :
    Formed (subdirRecord (treeDirs files) true child) ∧
      Iso.entries (subdirRecord (treeDirs files) true child) true =
        [{ name := basenameOf child, lba := (lbaOf (treeDirs files) child).2, size := 2048
           isDir := true }] := by
  obtain ⟨hmem, hkeep⟩ := List.mem_filter.mp hchild
  have hne : child ≠ [] := by
    rintro rfl
    cases hkeep
  have hidx : (treeDirs files).idxOf child < (treeDirs files).length :=
    List.idxOf_lt_length_iff.mpr hmem
  have hlt := h.dirs_lt
  exact (h.child_named hmem hne).record 2
    (show 24 + 2 * (treeDirs files).idxOf child < 2 ^ 32 by omega) (by decide)

/-- The Joliet records of a directory are read as its entries. -/
theorem Fits.records_entries (h : Fits files) (dir : List Char) :
    (∀ r ∈ (treeOf files).records dir true, Formed r) ∧
      ((treeOf files).records dir true).flatMap (fun r => Iso.entries r true) =
        (treeOf files).entries dir := by
  have hself (extent : ℕ) (name : List UInt8) (hname : name = [0] ∨ name = [1]) :
      Formed (dirRecord extent 2048 2 name) ∧
        Iso.entries (dirRecord extent 2048 2 name) true = [] := by
    have hrecord := dirRecord_of extent 2048 2 name
    have hlen : name.length ≤ 221 := by
      rcases hname with rfl | rfl
      · decide
      · decide
    exact ⟨hrecord.formed hlen, hrecord.entries_self hname⟩
  obtain ⟨hself, hparent⟩ := And.intro
    (hself (pick true (lbaOf (treeDirs files) dir)) [0] (.inl rfl))
    (hself (pick true (lbaOf (treeDirs files) (if dir.isEmpty then dir else parentOf dir))) [1]
      (.inr rfl))
  unfold Tree.records Tree.entries
  refine ⟨List.forall_mem_cons.mpr ⟨hself.1, List.forall_mem_cons.mpr ⟨hparent.1, ?_⟩⟩, ?_⟩
  · intro r hr
    rcases List.mem_append.mp hr with hr | hr
    · obtain ⟨child, hchild, rfl⟩ := List.mem_map.mp hr
      exact (h.subdir_record hchild).1
    · obtain ⟨f, hf, rfl⟩ := List.mem_map.mp hr
      exact (h.leaf_record hf).1
  · have hdirs := List.flatMap_congr (fun child hchild => (@Fits.subdir_record files dir h child hchild).2)
    have hfiles := List.flatMap_congr (fun f hf => (@Fits.leaf_record files dir h f hf).2)
    have htree : (treeOf files).dirs = treeDirs files := rfl
    rw [htree, List.flatMap_cons, hself.2, List.flatMap_cons, hparent.2, List.nil_append,
      List.nil_append, List.flatMap_append, List.flatMap_map, List.flatMap_map, hdirs, hfiles,
      ← List.map_eq_flatMap, ← List.map_eq_flatMap]

/-- A directory of the image is read as it was written. -/
theorem readDir_of (h : Fits files) (him : ImageOf files image) (hdir : dir ∈ treeDirs files) :
    ∃ data, readAt image (lbaOf (treeDirs files) dir).2 2048 = some data ∧
      parseDir (data.length + 1) data true = .ok ((treeOf files).entries dir) := by
  have hrecords := h.length_records hdir true
  have hslice := him.dir dir hdir
  have hlen : (slice image ((lbaOf (treeDirs files) dir).2 * 2048) 2048).length = 2048 := by
    rw [hslice, List.length_append, List.length_replicate]
    omega
  refine ⟨_, readAt_of_length hlen, ?_⟩
  obtain ⟨hformed, hentries⟩ := h.records_entries dir
  rw [hlen, hslice, ← hentries]
  exact parseDir_records hformed hrecords

/-- Of entries whose names differ the one that is looked for is found. -/
theorem find_entry {ents : List DirEnt} {ent : DirEnt} (hent : ent ∈ ents)
    (hdistinct : ents.Pairwise (fun a b => eqIgnoreAsciiCase a.name b.name = false)) :
    ents.find? (fun e => eqIgnoreAsciiCase e.name ent.name) = some ent := by
  have hself : eqIgnoreAsciiCase ent.name ent.name = true := decide_eq_true rfl
  induction ents with
  | nil => cases hent
  | cons e ents ih =>
    obtain ⟨hfirst, hrest⟩ := List.pairwise_cons.mp hdistinct
    rcases List.mem_cons.mp hent with rfl | hent
    · rw [List.find?_cons, hself]
    · rw [List.find?_cons, hfirst ent hent]
      exact ih hent hrest

theorem Fits.entries_distinct (h : Fits files) (hdir : dir ∈ treeDirs files) :
    ((treeOf files).entries dir).Pairwise (fun a b => eqIgnoreAsciiCase a.name b.name = false) := by
  have hnames : ((treeOf files).entries dir).map DirEnt.name = (treeOf files).childNames dir := by
    unfold Tree.entries Tree.childNames
    rw [List.map_append, List.map_map, List.map_map]
    rfl
  have hdistinct := h.distinct dir hdir
  rw [← hnames] at hdistinct
  exact List.pairwise_map.mp hdistinct

/-- From each directory on the way the rest of a path leads to its file. -/
theorem walk_of (h : Fits files) (him : ImageOf files image) {f : TreeFile × ℕ}
    (hf : f ∈ files.zip (treeOf files).extents) {pre rest : List (List Char)}
    (hsplit : f.1.path.splitOn '/' = pre ++ rest) (hrest : rest ≠ []) (isDir : Bool) :
    walk image true (lbaOf (treeDirs files) (join pre)).2 2048 isDir rest =
      .ok (some (f.2, f.1.data.length, false)) := by
  have hmem := (List.of_mem_zip hf).1
  induction rest generalizing pre isDir with
  | nil => exact absurd rfl hrest
  | cons part rest ih =>
    have hdir := prefix_mem h.parts hmem hsplit hrest
    obtain ⟨data, hread, hparse⟩ := readDir_of h him hdir
    have hparts : Parts (pre ++ [part]) := by
      have hall := h.parts f.1 hmem
      rw [hsplit, ← List.singleton_append, ← List.append_assoc] at hall
      exact hall.left
    -- the next part names an entry, of the file or of a directory on the way
    have hentry {ent : DirEnt} (hin : ent ∈ (treeOf files).entries (join pre))
        (hname : ent.name = part) (hkind : rest ≠ [] → ent.isDir = true) :
        walk image true (lbaOf (treeDirs files) (join pre)).2 2048 isDir (part :: rest) =
          walk image true ent.lba ent.size ent.isDir rest := by
      have hfind := find_entry hin (h.entries_distinct hdir)
      rw [hname] at hfind
      rw [walk, hread]
      dsimp only
      rw [bind_of_ok hparse, hfind]
      dsimp only
      rw [if_neg]
      rintro ⟨hmore, hleaf⟩
      rw [hkind hmore] at hleaf
      cases hleaf
    cases rest with
    | nil =>
      have hpath := join_splitOn f.1.path
      rw [hsplit] at hpath
      have hleaf : f ∈ (treeOf files).leaves (join pre) := by
        refine List.mem_filter.mpr ⟨hf, beq_iff_eq.mpr ?_⟩
        rw [← hpath, parentOf_join hparts]
      rw [hentry (List.mem_append_right _ (List.mem_map.mpr ⟨f, hleaf, rfl⟩))
        (by rw [← hpath, basenameOf_join hparts]) (fun hne => absurd rfl hne)]
      rfl
    | cons next rest =>
      have hmore : f.1.path.splitOn '/' = (pre ++ [part]) ++ next :: rest := by
        rw [hsplit, List.append_assoc]
        rfl
      have hchild : join (pre ++ [part]) ∈ (treeOf files).childDirs (join pre) := by
        refine List.mem_filter.mpr
          ⟨prefix_mem h.parts hmem hmore (List.cons_ne_nil _ _), ?_⟩
        rw [parentOf_join hparts, List.isEmpty_eq_false_iff.mpr (join_ne_nil hparts), beq_self_eq_true]
        rfl
      rw [hentry (List.mem_append_left _ (List.mem_map.mpr ⟨_, hchild, rfl⟩))
        (basenameOf_join hparts) (fun _ => rfl)]
      exact ih hmore (List.cons_ne_nil _ _) true

/-- Each file of a tree that fits is found in its image, and has the bytes that were given. -/
theorem tree_read_back (h : Fits files) (volumeId : List Char) (dest : String) :
    ∃ image found, labeledTreeIso volumeId files = some image ∧ roots image = .ok (some found) ∧
      ∀ f ∈ files, ∃ lba,
        lookup image found (f.path.splitOn '/') = .ok (some (lba, f.data.length, false)) ∧
          copyFile image lba f.data.length dest = .ok f.data := by
  obtain ⟨image, himage, him⟩ := labeledTreeIso_image h volumeId
  obtain ⟨found, hfound, hjoliet⟩ := roots_of h him
  refine ⟨image, found, himage, hfound, fun f hf => ?_⟩
  obtain ⟨lba, hzip⟩ : ∃ lba, (f, lba) ∈ files.zip (treeOf files).extents := by
    obtain ⟨k, hk, rfl⟩ := List.getElem_of_mem hf
    have hlen : k < (treeOf files).extents.length := h.layout.1.symm ▸ hk
    exact ⟨(treeOf files).extents[k], List.mem_iff_getElem.mpr ⟨k, by
      rw [List.length_zip]; omega, List.getElem_zip⟩⟩
  refine ⟨lba, ?_, ?_⟩
  · have hwalk : walk image true (lbaOf (treeDirs files) []).2 2048 true (f.path.splitOn '/') =
        .ok (some (lba, f.data.length, false)) :=
      walk_of h him hzip (List.nil_append _).symm (List.splitOn_ne_nil '/' f.path) true
    unfold lookup
    rw [hjoliet]
    dsimp only
    rw [bind_of_ok hwalk]
    rfl
  · have hbytes := him.file _ hzip
    dsimp only at hbytes
    unfold copyFile
    dsimp only
    rw [hbytes, if_neg (not_not.mpr rfl)]

def casper : List TreeFile :=
  [⟨"casper/vmlinuz".toList, [1, 2, 3]⟩, ⟨"casper/initrd".toList, []⟩]

theorem casper_fits : Fits casper where
  named := by
    have hall : ∀ f ∈ casper, ∀ name ∈ f.path.splitOn '/', name ≠ [] ∧ ';' ∉ name ∧
        name.getLast? ≠ some '.' ∧ (Utf16.encode name).length ≤ 100 := by decide +kernel
    intro f hf name hname
    obtain ⟨hne, hversion, hdot, hlen⟩ := hall f hf name hname
    exact ⟨hne, hversion, hdot, hlen⟩
  distinct := by decide +kernel
  dirs := by decide +kernel
  tables := by decide +kernel
  total := by decide +kernel

theorem casper_read_back :
    ∃ image found, labeledTreeIso "TESTISO".toList casper = some image ∧
      roots image = .ok (some found) ∧ ∀ f ∈ casper, ∃ lba,
        lookup image found (f.path.splitOn '/') = .ok (some (lba, f.data.length, false)) ∧
          copyFile image lba f.data.length "vmlinuz" = .ok f.data :=
  tree_read_back casper_fits "TESTISO".toList "vmlinuz"

end Pertisk.Iso
