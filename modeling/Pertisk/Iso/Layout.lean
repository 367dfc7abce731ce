import Pertisk.Iso.Records
import Pertisk.Iso.Paths

namespace Pertisk.Iso
open Lib

variable {dirs : List (List Char)} {files : List TreeFile} {dir child : List Char} {joliet be : Bool}
  {next : ℕ}

/-- A name that is read as it is written. -/
structure Named (name : List Char) : Prop where
  nonempty : name ≠ []
  version : ';' ∉ name
  dot : name.getLast? ≠ some '.'
  length : (Utf16.encode name).length ≤ 100

def Tree.childDirs (t : Tree) (dir : List Char) : List (List Char) :=
  t.dirs.filter (fun child => !child.isEmpty && parentOf child == dir)

def Tree.leaves (t : Tree) (dir : List Char) : List (TreeFile × ℕ) :=
  (t.files.zip t.extents).filter (fun f => parentOf f.1.path == dir)

/-- The names in a directory. -/
def Tree.childNames (t : Tree) (dir : List Char) : List (List Char) :=
  (t.childDirs dir).map basenameOf ++ (t.leaves dir).map (fun f => basenameOf f.1.path)

/-- The sectors that a file has, however large it is. -/
def fileSectors (data : List UInt8) : ℕ := max ((data.length + 2047) / 2048) 1

def imageSectors (files : List TreeFile) : ℕ :=
  23 + 2 * (treeDirs files).length + (files.map (fun f => fileSectors f.data)).sum

/-- The trees whose files can be found again: names differ by more than the case of their letters, a
sector holds each directory and each path table, and the image is smaller than 4 GiB. -/
structure Fits (files : List TreeFile) : Prop where
  named : ∀ f ∈ files, ∀ name ∈ f.path.splitOn '/', Named name
  distinct : ∀ dir ∈ treeDirs files,
    ((treeOf files).childNames dir).Pairwise (fun a b => eqIgnoreAsciiCase a b = false)
  dirs : ∀ dir ∈ treeDirs files, ∀ joliet, ∀ bytes ∈ (treeOf files).dirBytes dir joliet,
    bytes.length ≤ 2048
  tables : ∀ joliet be, ∀ bytes ∈ pathTable (treeDirs files) joliet be, bytes.length ≤ 2048
  total : imageSectors files * 2048 < 2 ^ 32

/-! ### Where things are -/

def lbaOf (dirs : List (List Char)) (dir : List Char) : ℕ × ℕ :=
  (23 + 2 * dirs.idxOf dir, 24 + 2 * dirs.idxOf dir)

theorem dirLba_eq (hdir : dir ∈ dirs) (hlt : 24 + 2 * dirs.length < 2 ^ 32) :
    dirLba dirs dir = some (lbaOf dirs dir) := by
  have hidx : dirs.idxOf dir < dirs.length := List.idxOf_lt_length_iff.mpr hdir
  have hsome : dirs.idxOf? dir = some (dirs.idxOf dir) := by
    rw [List.idxOf_eq_getD_idxOf?]
    obtain ⟨i, hi⟩ := Option.isSome_iff_exists.mp (List.isSome_idxOf?.mpr hdir)
    rw [hi]
    rfl
  unfold dirLba lbaOf
  rw [hsome, Option.map_some, Nat.mod_eq_of_lt (by omega), Nat.mod_eq_of_lt (by omega)]

/-- The bytes that a run of sectors has room for. -/
def room (bytes : List UInt8) : ℕ := fileSectors bytes * 2048

theorem length_le_room (bytes : List UInt8) : bytes.length ≤ room bytes := by
  unfold room fileSectors
  omega

theorem room_sector {bytes : List UInt8} (h : bytes.length ≤ 2048) : room bytes = 2048 := by
  unfold room fileSectors
  omega

theorem sectorsOf_eq {data : List UInt8} (h : fileSectors data < 2 ^ 32) :
    sectorsOf data = fileSectors data := by
  unfold fileSectors at h ⊢
  unfold sectorsOf
  rw [Nat.mod_eq_of_lt (by omega)]

/-- The files follow each other, and the first sector after them is that of their number. -/
theorem layoutFiles_laid
    (hlt : next + (files.map (fun f => fileSectors f.data)).sum < 2 ^ 32) :
    (layoutFiles next files).1.length = files.length ∧
      (layoutFiles next files).2 = next + (files.map (fun f => fileSectors f.data)).sum ∧
      Laid room (next * 2048)
        ((files.zip (layoutFiles next files).1).map (fun f => (f.2 * 2048, f.1.data)))
        ((next + (files.map (fun f => fileSectors f.data)).sum) * 2048) := by
  induction files generalizing next with
  | nil => exact ⟨rfl, rfl, Nat.le_refl _⟩
  | cons f files ih =>
    rw [List.map_cons, List.sum_cons] at hlt ⊢
    have hsectors : sectorsOf f.data = fileSectors f.data := sectorsOf_eq (by omega)
    have hnext : (next + sectorsOf f.data) % 2 ^ 32 = next + fileSectors f.data := by
      rw [hsectors, Nat.mod_eq_of_lt (by omega)]
    obtain ⟨hlen, hlast, hlaid⟩ := @ih (next + fileSectors f.data) (by omega)
    unfold layoutFiles
    dsimp only
    rw [hnext]
    refine ⟨?_, ?_, ?_, ?_⟩
    · rw [List.length_cons, hlen, List.length_cons]
    · rw [hlast, Nat.add_assoc]
    · exact Nat.le_refl _
    · have hroom : next * 2048 + room f.data = (next + fileSectors f.data) * 2048 := by
        unfold room
        rw [Nat.add_mul]
      show Laid room (next * 2048 + room f.data) _ _
      rw [hroom, ← Nat.add_assoc]
      exact hlaid

/-! ### The bytes of the directories and of the tables -/

theorem mapM_some {α β : Type} {f : α → Option β} {g : α → β} {l : List α}
    (h : ∀ a ∈ l, f a = some (g a)) : l.mapM f = some (l.map g) := by
  induction l with
  | nil => rfl
  | cons a l ih =>
    rw [List.mapM_cons, h a List.mem_cons_self, ih (fun b hb => h b (List.mem_cons_of_mem a hb))]
    rfl

theorem foldlM_some {α β : Type} {f : β → α → Option β} {l : List α}
    (h : ∀ b, ∀ a ∈ l, ∃ c, f b a = some c) (b : β) : ∃ c, l.foldlM f b = some c := by
  induction l generalizing b with
  | nil => exact ⟨b, rfl⟩
  | cons a l ih =>
    obtain ⟨c, hc⟩ := h b a List.mem_cons_self
    rw [List.foldlM_cons, hc]
    exact ih (fun b a ha => h b a (List.mem_cons_of_mem _ ha)) c

def subdirRecord (dirs : List (List Char)) (joliet : Bool) (child : List Char) : List UInt8 :=
  dirRecord (pick joliet (lbaOf dirs child)) 2048 2
    (if joliet then ucs2 (basenameOf child) else isoDirIdent (basenameOf child))

/-- The records of a directory. -/
def Tree.records (t : Tree) (dir : List Char) (joliet : Bool) : List (List UInt8) :=
  dirRecord (pick joliet (lbaOf t.dirs dir)) 2048 2 [0] ::
    dirRecord (pick joliet (lbaOf t.dirs (if dir.isEmpty then dir else parentOf dir))) 2048 2 [1] ::
      ((t.childDirs dir).map (subdirRecord t.dirs joliet) ++ (t.leaves dir).map (leafRecord joliet))

theorem dirBytes_eq {t : Tree} (hdir : dir ∈ t.dirs)
    (hparent : (if dir.isEmpty then dir else parentOf dir) ∈ t.dirs)
    (hlt : 24 + 2 * t.dirs.length < 2 ^ 32) (joliet : Bool) :
    t.dirBytes dir joliet = some (t.records dir joliet).flatten := by
  have hchildren : (t.childDirs dir).mapM (t.childRecord joliet) =
      some ((t.childDirs dir).map (subdirRecord t.dirs joliet)) := by
    refine mapM_some (fun child hchild => ?_)
    unfold Tree.childRecord
    rw [dirLba_eq (List.mem_of_mem_filter hchild) hlt]
    rfl
  unfold Tree.childDirs at hchildren
  unfold Tree.dirBytes
  rw [dirLba_eq hdir hlt, dirLba_eq hparent hlt, hchildren]
  unfold Tree.records Tree.childDirs Tree.leaves
  rw [List.flatten_cons, List.flatten_cons, List.flatten_append]
  simp only [← List.append_assoc]
  rfl

theorem pathTable_some (hlt : 24 + 2 * dirs.length < 2 ^ 32) (joliet be : Bool) :
    ∃ bytes, pathTable dirs joliet be = some bytes := by
  refine foldlM_some (fun buf dir hdir => ?_) []
  rw [dirLba_eq hdir hlt]
  exact ⟨_, rfl⟩

/-! ### The image -/

def dirWrites (dirs : List (List Char)) (bytes : List Char → Bool → List UInt8) (dir : List Char) :
    List (ℕ × List UInt8) :=
  [((lbaOf dirs dir).1 * 2048, bytes dir false), ((lbaOf dirs dir).2 * 2048, bytes dir true)]

/-- Each directory has the next two sectors. -/
theorem laid_dirs {bytes : List Char → Bool → List UInt8} (hnodup : dirs.Nodup)
    (hbytes : ∀ dir ∈ dirs, ∀ joliet, (bytes dir joliet).length ≤ 2048) :
    Laid room (23 * 2048) (dirs.map (dirWrites dirs bytes)).flatten
      ((23 + 2 * dirs.length) * 2048) := by
  have hsuffix (pre suf : List (List Char)) (hdirs : dirs = pre ++ suf) :
      Laid room ((23 + 2 * pre.length) * 2048) (suf.map (dirWrites dirs bytes)).flatten
        ((23 + 2 * dirs.length) * 2048) := by
    induction suf generalizing pre with
    | nil =>
      rw [List.append_nil] at hdirs
      rw [hdirs]
      exact Nat.le_refl _
    | cons dir suf ih =>
      have hidx : dirs.idxOf dir = pre.length := by
        have hnotin : dir ∉ pre := by
          rw [hdirs] at hnodup
          exact fun hin => (List.nodup_append.mp hnodup).2.2 dir hin dir List.mem_cons_self rfl
        rw [hdirs, List.idxOf_append_of_notMem hnotin, List.idxOf_cons_self, Nat.add_zero]
      have hmem : dir ∈ dirs := by
        rw [hdirs]
        exact List.mem_append_right _ List.mem_cons_self
      have hrest := ih (pre ++ [dir]) (by rw [hdirs, List.append_assoc]; rfl)
      rw [List.length_append, List.length_singleton] at hrest
      rw [List.map_cons, List.flatten_cons]
      unfold dirWrites lbaOf
      rw [hidx]
      show _ ≤ _ ∧ _ ≤ _ ∧ Laid room _ _ _
      dsimp only
      rw [room_sector (hbytes dir hmem false), room_sector (hbytes dir hmem true)]
      refine ⟨Nat.le_refl _, by omega, ?_⟩
      have hend : (24 + 2 * pre.length) * 2048 + 2048 = (23 + 2 * (pre.length + 1)) * 2048 := by
        omega
      rw [hend]
      exact hrest
  exact hsuffix [] dirs rfl

/-- What is read of the image of a tree. -/
structure ImageOf (files : List TreeFile) (image : List UInt8) : Prop where
  pvd : DescriptorOf 1 (lbaOf (treeDirs files) []).1 (slice image (16 * 2048) 2048)
  svd : DescriptorOf 2 (lbaOf (treeDirs files) []).2 (slice image (17 * 2048) 2048)
  joliet : Marked (slice image (17 * 2048) 2048)
  last : slice image (18 * 2048) 2048 =
    [255, 0x43, 0x44, 0x30, 0x30, 0x31, 1] ++ List.replicate 2041 0
  dir : ∀ dir ∈ treeDirs files, slice image ((lbaOf (treeDirs files) dir).2 * 2048) 2048 =
    ((treeOf files).records dir true).flatten ++
      List.replicate (2048 - ((treeOf files).records dir true).flatten.length) 0
  file : ∀ f ∈ files.zip (treeOf files).extents, slice image (f.2 * 2048) f.1.data.length = f.1.data

variable {volumeId : List Char}

theorem Fits.parts (h : Fits files) : ∀ f ∈ files, Parts (f.path.splitOn '/') := by
  intro f hf name hname
  exact ⟨(h.named f hf name hname).nonempty, not_mem_splitOn hname⟩

theorem Fits.lt (h : Fits files) : imageSectors files < 2 ^ 21 := by
  have := h.total
  omega

theorem Fits.dirs_lt (h : Fits files) : 24 + 2 * (treeDirs files).length < 2 ^ 32 := by
  have := h.lt
  unfold imageSectors at this
  omega

theorem Fits.dirBytes (h : Fits files) (hdir : dir ∈ treeDirs files) (joliet : Bool) :
    (treeOf files).dirBytes dir joliet = some ((treeOf files).records dir joliet).flatten :=
  dirBytes_eq (t := treeOf files) hdir (parent_mem h.parts hdir) h.dirs_lt joliet

theorem Fits.length_records (h : Fits files) (hdir : dir ∈ treeDirs files) (joliet : Bool) :
    ((treeOf files).records dir joliet).flatten.length ≤ 2048 :=
  h.dirs dir hdir joliet _ (h.dirBytes hdir joliet)

/-- Where the files are in a tree that fits. -/
theorem Fits.layout (h : Fits files) : (treeOf files).extents.length = files.length ∧
    volumeSectors files = imageSectors files ∧
    Laid room ((23 + 2 * (treeDirs files).length) * 2048)
      ((files.zip (treeOf files).extents).map (fun f => (f.2 * 2048, f.1.data)))
      (imageSectors files * 2048) := by
  have hlt := h.lt
  unfold imageSectors at hlt
  have hnext : (23 + 2 * (treeDirs files).length) % 2 ^ 32 = 23 + 2 * (treeDirs files).length :=
    Nat.mod_eq_of_lt (by omega)
  have hlayout := @layoutFiles_laid files (23 + 2 * (treeDirs files).length) (by omega)
  unfold volumeSectors treeOf imageSectors
  dsimp only
  rw [hnext]
  exact hlayout

/-- The descriptors and the tables have a sector each. -/
theorem laid_head {pvd svd ptIsoLe ptIsoBe ptJolLe ptJolBe : List UInt8} (hpvd : pvd.length ≤ 2048)
    (hsvd : svd.length ≤ 2048) (hIsoLe : ptIsoLe.length ≤ 2048) (hIsoBe : ptIsoBe.length ≤ 2048)
    (hJolLe : ptJolLe.length ≤ 2048) (hJolBe : ptJolBe.length ≤ 2048) :
    Laid room (16 * 2048) [(16 * 2048, pvd), (17 * 2048, svd),
      (18 * 2048, [255, 0x43, 0x44, 0x30, 0x30, 0x31, 1]), (19 * 2048, ptIsoLe),
      (20 * 2048, ptIsoBe), (21 * 2048, ptJolLe), (22 * 2048, ptJolBe)] (23 * 2048) := by
  have hlast : room [255, 0x43, 0x44, 0x30, 0x30, 0x31, 1] = 2048 := room_sector (by decide)
  simp only [Laid, room_sector hpvd, room_sector hsvd, hlast, room_sector hIsoLe,
    room_sector hIsoBe, room_sector hJolLe, room_sector hJolBe]
  omega

/-- A tree that fits is written without a fault. -/
theorem labeledTreeIso_image (h : Fits files) (volumeId : List Char) :
    ∃ image, labeledTreeIso volumeId files = some image ∧ ImageOf files image := by
  obtain ⟨-, hsectors, hfiles⟩ := h.layout
  have hroot : dirLba (treeOf files).dirs [] = some (lbaOf (treeDirs files) []) :=
    dirLba_eq (root_mem h.parts) h.dirs_lt
  have htable (joliet be : Bool) : ∃ bytes, pathTable (treeOf files).dirs joliet be = some bytes ∧
      bytes.length ≤ 2048 := by
    obtain ⟨bytes, hbytes⟩ := pathTable_some h.dirs_lt joliet be
    exact ⟨bytes, hbytes, h.tables joliet be bytes hbytes⟩
  obtain ⟨ptIsoLe, hptIsoLe, hIsoLe⟩ := htable false false
  obtain ⟨ptIsoBe, hptIsoBe, hIsoBe⟩ := htable false true
  obtain ⟨ptJolLe, hptJolLe, hJolLe⟩ := htable true false
  obtain ⟨ptJolBe, hptJolBe, hJolBe⟩ := htable true true
  have hdirWrites : (treeOf files).dirs.mapM (treeOf files).dirCopies =
      some ((treeDirs files).map (dirWrites (treeDirs files)
        (fun dir joliet => ((treeOf files).records dir joliet).flatten))) := by
    refine mapM_some (fun dir hdir => ?_)
    unfold Tree.dirCopies
    rw [dirLba_eq hdir h.dirs_lt, h.dirBytes hdir, h.dirBytes hdir]
    rfl
  unfold labeledTreeIso
  simp only [hroot, hptIsoLe, hptIsoBe, hptJolLe, hptJolBe, hdirWrites, hsectors,
    Option.bind_eq_bind, Option.bind_some]
  have hzeros (n : ℕ) : (List.replicate n (0 : UInt8)).length = n := List.length_replicate
  have hpvdOf := writePvd_of (hzeros 2048) {
    id := volumeId, sectors := imageSectors files, root := (lbaOf (treeDirs files) []).1,
    ptLe := 19, ptBe := 20, ptSize := ptIsoLe.length % 2 ^ 32 }
  obtain ⟨hsvdOf, hmarked⟩ := writeSvd_of (hzeros 2048) {
    id := volumeId, sectors := imageSectors files, root := (lbaOf (treeDirs files) []).2,
    ptLe := 21, ptBe := 22,
    ptSize := max (ptIsoLe.length % 2 ^ 32) (ptJolLe.length % 2 ^ 32) }
  set pvd := writePvd (List.replicate 2048 0) {
    id := volumeId, sectors := imageSectors files, root := (lbaOf (treeDirs files) []).1,
    ptLe := 19, ptBe := 20, ptSize := ptIsoLe.length % 2 ^ 32 }
  set svd := writeSvd (List.replicate 2048 0) {
    id := volumeId, sectors := imageSectors files, root := (lbaOf (treeDirs files) []).2,
    ptLe := 21, ptBe := 22,
    ptSize := max (ptIsoLe.length % 2 ^ 32) (ptJolLe.length % 2 ^ 32) }
  set fixed : List (ℕ × List UInt8) := [(16 * 2048, pvd), (17 * 2048, svd),
    (18 * 2048, [255, 0x43, 0x44, 0x30, 0x30, 0x31, 1]), (19 * 2048, ptIsoLe),
    (20 * 2048, ptIsoBe), (21 * 2048, ptJolLe), (22 * 2048, ptJolBe)] with hfixed
  have hhead : Laid room (16 * 2048) fixed (23 * 2048) :=
    laid_head hpvdOf.length.le hsvdOf.length.le hIsoLe hIsoBe hJolLe hJolBe
  have hdirs := laid_dirs (nodup_treeDirs files) (fun dir hdir joliet => h.length_records hdir joliet)
  have hall := (hhead.append hdirs).append hfiles
  set ws := fixed ++ ((treeDirs files).map (dirWrites (treeDirs files)
    (fun dir joliet => ((treeOf files).records dir joliet).flatten))).flatten ++
      (files.zip (treeOf files).extents).map (fun f => (f.2 * 2048, f.1.data)) with hws
  have hend : imageSectors files * 2048 ≤
      (List.replicate (imageSectors files * 2048) (0 : UInt8)).length := (hzeros _).ge
  refine ⟨_, putAll_laid length_le_room hall hend, ?_⟩
  obtain ⟨-, -, hin⟩ := splices_laid length_le_room hall hend
  set image := splices (List.replicate (imageSectors files * 2048) (0 : UInt8)) ws
  -- behind what was written the sectors are still empty
  have hread : ∀ w ∈ ws, slice image w.1 (room w.2) =
      w.2 ++ List.replicate (room w.2 - w.2.length) 0 := by
    intro w hw
    have hmem := (hall.of_mem hw).2
    have hfits := length_le_room w.2
    rw [hzeros] at hend
    rw [hin w hw, slice_replicate (by omega)]
  have hsector (off : ℕ) (bytes : List UInt8) (hw : (off, bytes) ∈ ws) (hle : bytes.length ≤ 2048) :
      slice image off 2048 = bytes ++ List.replicate (2048 - bytes.length) 0 := by
    have hbytes := hread (off, bytes) hw
    rwa [room_sector hle] at hbytes
  have hfixed : ∀ w ∈ fixed, w ∈ ws := fun w hw =>
    List.mem_append_left _ (List.mem_append_left _ hw)
  have hpvdSector : slice image (16 * 2048) 2048 = pvd := by
    rw [hsector _ pvd (hfixed _ (by simp [fixed])) hpvdOf.length.le, hpvdOf.length]
    exact List.append_nil pvd
  have hsvdSector : slice image (17 * 2048) 2048 = svd := by
    rw [hsector _ svd (hfixed _ (by simp [fixed])) hsvdOf.length.le, hsvdOf.length]
    exact List.append_nil svd
  refine ⟨?_, ?_, ?_, ?_, fun dir hdir => ?_, fun f hf => ?_⟩
  · rw [hpvdSector]
    exact hpvdOf
  · rw [hsvdSector]
    exact hsvdOf
  · rw [hsvdSector]
    exact hmarked
  · exact hsector _ _ (hfixed _ (by simp [fixed])) (by decide)
  · refine hsector _ _ (List.mem_append_left _ (List.mem_append_right _ ?_))
      (h.length_records hdir true)
    exact List.mem_flatten.mpr ⟨_, List.mem_map.mpr ⟨dir, hdir, rfl⟩, by simp [dirWrites]⟩
  · have hfile := hread (f.2 * 2048, f.1.data)
      (List.mem_append_right _ (List.mem_map.mpr ⟨f, hf, rfl⟩))
    have hinner := @slice_slice _ image (f.2 * 2048) (room f.1.data) 0 f.1.data.length
      (by rw [Nat.zero_add]; exact length_le_room f.1.data)
    rw [hfile, Nat.add_zero] at hinner
    rw [← hinner]
    unfold slice
    rw [List.drop_zero, List.take_left]

end Pertisk.Iso
