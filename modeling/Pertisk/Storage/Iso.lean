import Pertisk.Storage.Peer

namespace Pertisk.Storage
open Lib

variable {β : Type} [Contents β]

/-- Ask a peer for something that can change it even when it answers with an error. -/
def callMut (env : Env) (s : Host β) (dest : NodeId) (request : Request) (d : Host β)
    (handler : Host β → Host β × Except DaemonError Unit) : Host β × Except DaemonError Unit :=
  match s.node.cluster.memberUrl dest with
  | none => (d, .error (.peer s!"unknown node {uuidText dest}"))
  | some _ =>
    match env.fault dest request with
    | some text => (d, .error (.peer text))
    | none =>
      match handler d with
      | (d, .error err) => (d, .error (.peer (env.httpText err)))
      | (d, .ok ()) => (d, .ok ())

/-- The loop of `ensure_isos_on_node` over the guest's disks. -/
def ensureIsos (env : Env) (s : Host β) (dest : NodeId) :
    List DiskSpec → Host β → Host β × Except DaemonError Unit
  | [], d => (d, .ok ())
  | disk :: disks, d =>
    if disk.cdrom = false then ensureIsos env s dest disks d
    else
      match disk.isoName with
      | none => ensureIsos env s dest disks d
      | some name =>
        match s.getIso name with
        | .error err => (d, .error (.storage err))
        | .ok iso =>
          match iso.contents with
          | none => (d, .error (.peer s!"iso {name} is not a local file"))
          | some bytes =>
            match call env s dest (.isoStat name) (.ok (d.isoStat name)) with
            | .error err => (d, .error err)
            | .ok (found, size) =>
              if found && size == iso.record.sizeBytes then ensureIsos env s dest disks d
              else
                match callMut env s dest (.isoPut name) d (·.peerIsoPut name bytes) with
                | (d, .error err) =>
                  (d, .error (.peer s!"copy iso {name} to {uuidText dest}: {err.text}"))
                | (d, .ok ()) => ensureIsos env s dest disks d

/-- Copy library ISOs the guest still has attached, so a CD-ROM opens on the destination. -/
def ensureIsosOnNode (env : Env) (w : Fleet β) (self : NodeId) (spec : VmSpec) (dest : NodeId) :
    Fleet β × Except DaemonError Unit :=
  if dest = self then (w, .ok ())
  else
    let (d, result) := ensureIsos env (w self) dest spec.disks (w dest)
    (Function.update w dest d, result)

/-- A CD-ROM of the guest has this library ISO in it. -/
def Attached (disks : List DiskSpec) (name : String) : Prop :=
  ∃ disk ∈ disks, disk.cdrom = true ∧ disk.isoName = some name

/-- The copy of an ISO from one host state to the next: a record of the same size stays, and
anything else gives way to the bytes sent. -/
def Landed (d d' : Host β) (name : String) (bytes : β) : Prop :=
  (∃ old, d.isos.get name = some old ∧ old.record.sizeBytes = len bytes ∧
      d'.isos.get name = some old) ∨
    ((∀ old, d.isos.get name = some old → old.record.sizeBytes ≠ len bytes) ∧
      ∃ new, d'.isos.get name = some new ∧ new.contents = some bytes)

theorem isoName_ok {name n : String} (h : Host.isoName name = .ok n)
    (hslash : '/' ∉ name.toList) : n = name := by
  unfold Host.isoName at h
  dsimp only at h
  split at h
  · cases h
  · rename_i hguard
    cases h
    simp only [Bool.or_eq_true, not_or] at hguard
    have hempty := hguard.1.1.1
    unfold Host.fileName at hempty ⊢
    rw [List.splitOn_eq_singleton hslash] at hempty ⊢
    by_cases hkeep : name.toList ≠ [] ∧ name.toList ≠ ['.']
    · by_cases hdots : name.toList = ['.', '.']
      · simp [hdots] at hempty
      · simp [hkeep.1, hkeep.2, hdots]
    · have hdrop : ([name.toList].filter (fun c => c ≠ [] && c ≠ ['.'])) = [] := by
        simp only [List.filter_cons, List.filter_nil]
        rw [if_neg]
        simpa using hkeep
      rw [hdrop] at hempty
      simp at hempty

namespace Host

variable {h h' : Host β} {name : String} {bytes : β}

theorem importIso_ok (hi : h.importIso bytes name = .ok h') (hslash : '/' ∉ name.toList) :
    (∃ new, h'.isos.get name = some new ∧ new.contents = some bytes) ∧
      ∀ n, n ≠ name → h'.isos.get n = h.isos.get n := by
  unfold importIso at hi
  cases hn : isoName name with
  | error err => simp [hn] at hi
  | ok n =>
    obtain rfl := isoName_ok hn hslash
    simp only [hn] at hi
    split at hi
    · cases hi
    · cases hi
      refine ⟨⟨_, Table.get_insert_self _ _, rfl⟩, ?_⟩
      intro m hm
      exact Table.get_insert_ne _ (Ne.symm hm)

theorem peerIsoPut_ok (hp : h.peerIsoPut name bytes = (h', .ok ())) :
    Landed h h' name bytes ∧ ∀ n, n ≠ name → h'.isos.get n = h.isos.get n := by
  unfold peerIsoPut at hp
  split at hp
  · cases hp
  · rename_i hguard
    have hslash : '/' ∉ name.toList := by
      intro hmem
      simp [hmem] at hguard
    unfold acceptIsoFile at hp
    cases hold : h.isos.get name with
    | none =>
      simp only [hold] at hp
      cases hi : h.importIso bytes name with
      | error err => simp [hi] at hp
      | ok t =>
        simp only [hi, Prod.mk.injEq, and_true] at hp
        subst hp
        obtain ⟨hnew, hrest⟩ := importIso_ok hi hslash
        exact ⟨.inr ⟨by simp [hold], hnew⟩, hrest⟩
    | some old =>
      by_cases hsize : old.record.sizeBytes = len bytes
      · simp only [hold, hsize, if_true, Prod.mk.injEq, and_true] at hp
        subst hp
        exact ⟨.inl ⟨old, hold, hsize, hold⟩, fun _ _ => rfl⟩
      · simp only [hold, hsize, if_false] at hp
        cases hi : (h.deleteIso name).importIso bytes name with
        | error err => simp [hi] at hp
        | ok t =>
          simp only [hi, Prod.mk.injEq, and_true] at hp
          subst hp
          obtain ⟨hnew, hrest⟩ := importIso_ok hi hslash
          refine ⟨.inr ⟨?_, hnew⟩, ?_⟩
          · intro old' hold'
            obtain rfl : old = old' := Option.some.inj (hold.symm.trans hold')
            exact hsize
          · intro n hn
            rw [hrest n hn]
            simp [deleteIso, Table.get_erase, hn]

end Host

variable {env : Env} {s d d₁ d' : Host β} {self dest : NodeId}

theorem callMut_ok {request : Request} {handler : Host β → Host β × Except DaemonError Unit}
    (h : callMut env s dest request d handler = (d', .ok ())) : handler d = (d', .ok ()) := by
  unfold callMut at h
  split at h
  · cases h
  · split at h
    · cases h
    · split at h
      · cases h
      · rename_i heq
        rw [heq, h]

theorem Landed.of_stat {name : String} {iso : StoredIso β} {bytes : β}
    (hb : iso.contents = some bytes)
    (hstat : ((d.isoStat name).1 && (d.isoStat name).2 == iso.record.sizeBytes) = true) :
    Landed d d name bytes := by
  unfold Host.isoStat at hstat
  cases hold : d.isos.get name with
  | none => simp [hold] at hstat
  | some old =>
    cases hc : old.contents with
    | none => simp [hold, hc] at hstat
    | some file =>
      have hsize : old.record.sizeBytes = iso.record.sizeBytes := by simpa [hold, hc] using hstat
      exact .inl ⟨old, hold, hsize.trans (iso.size bytes hb), hold⟩

theorem Landed.trans {name : String} {bytes : β} (h : Landed d d₁ name bytes)
    (h' : Landed d₁ d' name bytes) : Landed d d' name bytes := by
  rcases h with ⟨old, hold, hsize, hkept⟩ | ⟨hne, new, hnew, hbytes⟩
  · rcases h' with ⟨mid, hmid, _, hlast⟩ | ⟨hne, _⟩
    · obtain rfl : old = mid := Option.some.inj (hkept.symm.trans hmid)
      exact .inl ⟨old, hold, hsize, hlast⟩
    · exact absurd hsize (hne old hkept)
  · rcases h' with ⟨mid, hmid, _, hlast⟩ | ⟨_, hlast⟩
    · obtain rfl : new = mid := Option.some.inj (hnew.symm.trans hmid)
      exact .inr ⟨hne, new, hlast, hbytes⟩
    · exact .inr ⟨hne, hlast⟩

/-- Every ISO attached to one of the disks is landed, and no other one changes. -/
structure IsosLanded (s d d' : Host β) (disks : List DiskSpec) : Prop where
  landed : ∀ name, Attached disks name → ∃ iso bytes, s.isos.get name = some iso ∧
    iso.contents = some bytes ∧ Landed d d' name bytes
  kept : ∀ name, ¬ Attached disks name → d'.isos.get name = d.isos.get name

theorem IsosLanded.skip {disk : DiskSpec} {disks : List DiskSpec} (h : IsosLanded s d d' disks)
    (hno : ∀ name, ¬ (disk.cdrom = true ∧ disk.isoName = some name)) :
    IsosLanded s d d' (disk :: disks) := by
  have hiff : ∀ name, Attached (disk :: disks) name ↔ Attached disks name := by
    intro name
    simp [Attached, hno name]
  exact ⟨fun name ha => h.landed name ((hiff name).mp ha),
    fun name ha => h.kept name (fun hd => ha ((hiff name).mpr hd))⟩

/-- One ISO landed, and then the rest; an ISO attached twice is landed twice. -/
theorem IsosLanded.cons {disk : DiskSpec} {disks : List DiskSpec} {name : String}
    {iso : StoredIso β} {bytes : β} (h : IsosLanded s d₁ d' disks) (hcd : disk.cdrom = true)
    (hname : disk.isoName = some name) (hiso : s.isos.get name = some iso)
    (hbytes : iso.contents = some bytes) (hstep : Landed d d₁ name bytes)
    (hother : ∀ n, n ≠ name → d₁.isos.get n = d.isos.get n) :
    IsosLanded s d d' (disk :: disks) := by
  refine ⟨?_, ?_⟩
  · intro n hn
    by_cases hne : n = name
    · subst hne
      by_cases ha : Attached disks n
      · obtain ⟨iso', bytes', hiso', hbytes', hlast⟩ := h.landed n ha
        obtain rfl : iso = iso' := Option.some.inj (hiso.symm.trans hiso')
        obtain rfl : bytes = bytes' := Option.some.inj (hbytes.symm.trans hbytes')
        exact ⟨iso, bytes, hiso, hbytes, hstep.trans hlast⟩
      · refine ⟨iso, bytes, hiso, hbytes, ?_⟩
        unfold Landed at hstep ⊢
        rwa [h.kept n ha]
    · have ha : Attached disks n := by
        obtain ⟨e, he, hc, hi⟩ := hn
        rcases List.mem_cons.mp he with rfl | he
        · exact absurd (Option.some.inj (hi.symm.trans hname)) hne
        · exact ⟨e, he, hc, hi⟩
      obtain ⟨iso', bytes', hiso', hbytes', hlast⟩ := h.landed n ha
      refine ⟨iso', bytes', hiso', hbytes', ?_⟩
      unfold Landed at hlast ⊢
      rwa [hother n hne] at hlast
  · intro n hn
    have hne : n ≠ name := by
      rintro rfl
      exact hn ⟨disk, List.mem_cons_self, hcd, hname⟩
    have ha : ¬ Attached disks n := fun ⟨e, he, hei⟩ =>
      hn ⟨e, List.mem_cons_of_mem _ he, hei⟩
    rw [h.kept n ha, hother n hne]

theorem ensureIsos_ok {disks : List DiskSpec}
    (h : ensureIsos env s dest disks d = (d', .ok ())) : IsosLanded s d d' disks := by
  induction disks generalizing d with
  | nil =>
    cases h
    exact ⟨fun name ⟨disk, hm, _⟩ => by simp at hm, fun _ _ => rfl⟩
  | cons disk disks ih =>
    unfold ensureIsos at h
    by_cases hcd : disk.cdrom = false
    · rw [if_pos hcd] at h
      exact (ih h).skip (fun name hc => by simp [hcd] at hc)
    · rw [if_neg hcd] at h
      have hcd' : disk.cdrom = true := by simpa using hcd
      cases hname : disk.isoName with
      | none =>
        simp only [hname] at h
        exact (ih h).skip (fun name hc => by simp [hname] at hc)
      | some name =>
        simp only [hname] at h
        unfold Host.getIso at h
        cases hiso : s.isos.get name with
        | none => simp [hiso] at h
        | some iso =>
          cases hbytes : iso.contents with
          | none => simp [hiso, hbytes] at h
          | some bytes =>
            simp only [hiso, hbytes] at h
            split at h
            · cases h
            · rename_i found size hcall
              obtain ⟨-, hstat⟩ := call_ok hcall
              have hpair : d.isoStat name = (found, size) := Except.ok.inj hstat
              split at h
              · rename_i hsame
                have hland : Landed d d name bytes :=
                  .of_stat hbytes (by rw [hpair]; exact hsame)
                exact (ih h).cons hcd' hname hiso hbytes hland (fun _ _ => rfl)
              · split at h
                · cases h
                · rename_i d₁ hput
                  obtain ⟨hland, hother⟩ := Host.peerIsoPut_ok (callMut_ok hput)
                  exact (ih h).cons hcd' hname hiso hbytes hland hother

/-- The copy has the bytes sent unless a record of that size with other bytes stood there. -/
theorem Landed.isoFile_iff {name : String} {bytes : β} (h : Landed d d' name bytes) :
    d'.isoFile name = some bytes ↔
      ∀ old, d.isos.get name = some old → old.record.sizeBytes = len bytes →
        old.contents = some bytes := by
  rcases h with ⟨old, hold, hsize, hkept⟩ | ⟨hne, new, hnew, hbytes⟩
  · simp only [Host.isoFile, hkept, hold, Option.bind_some, Option.some.injEq]
    constructor
    · rintro hc _ rfl _
      exact hc
    · intro hc
      exact hc old rfl hsize
  · simp only [Host.isoFile, hnew, Option.bind_some, hbytes, true_iff]
    intro old hold hsize
    exact absurd hsize (hne old hold)

end Pertisk.Storage
