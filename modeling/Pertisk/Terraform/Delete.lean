import Pertisk.Terraform.Lookups

namespace Pertisk.Terraform
open Lib PeerUrl
open Provider (Unicode parseUint)
open Store (UuidCrate)

/-- A request that stops or removes what it names. -/
inductive Request
  | stop (id : String)
  | delete (id : String)
  deriving DecidableEq, Repr

def Request.id : Request → String
  | .stop id => id
  | .delete id => id

/-- An error that leaves the guest gone is none. -/
def ignoreGone (api : Api) (id : String) : Except Failure Unit → Option Failure
  | .ok () => none
  | .error e =>
    if isNotFound e then none
    else
      match api.getVM id with
      | .ok _ => some e
      | .error gone => if isNotFound gone then none else some e

section delete
variable (u : Unicode) (api : Api) (deleteVM : String → Except Failure Unit) (id name : String)

/-- The guest under the stored name, else the stored id. -/
def byName : String :=
  match findVM u api name with
  | .ok found => found.id.text
  | .error _ => id

def deleteTarget : String :=
  match api.getVM id with
  | .ok vm => if name ≠ "" ∧ vm.spec.name ≠ name then byName u api id name else id
  | .error e => if isNotFound e ∧ name ≠ "" then byName u api id name else id

/-- `Delete`: the requests that it sends, and its error. -/
def delete : List Request × Option Failure :=
  let id := deleteTarget u api id name
  ([.stop id, .delete id], ignoreGone api id (deleteVM id))

end delete

section own
variable {c : UuidCrate}

/-- The daemon reads the text as this guest's id. -/
def Names (c : UuidCrate) (id : String) (vm : VmRecord) : Prop :=
  (Store.parse c id).toOption = some vm.id

instance (c : UuidCrate) (id : String) (vm : VmRecord) : Decidable (Names c id vm) :=
  inferInstanceAs (Decidable (_ = _))

/-- The guests that `Delete` stops or deletes. -/
def Removes (u : Unicode) (inv : Inventory c) (api : Api) (deleteVM : String → Except Failure Unit)
    (id name : String) (vm : VmRecord) : Prop :=
  vm ∈ inv.vms ∧ ∃ r ∈ (delete u api deleteVM id name).1, Names c r.id vm

/-- The API answers as the daemon does, or fails. -/
structure Answers (inv : Inventory c) (api : Api) : Prop where
  getVM : ∀ key, api.getVM key = inv.api.getVM key ∨ ∃ e, api.getVM key = .error e
  listVMs : api.listVMs = inv.api.listVMs ∨ ∃ e, api.listVMs = .error e

/-- The stored state tells what to remove: the look-up by id is answered; there is a stored name,
which spells no other guest's id; and where a guest of another name has the stored id by now, one
guest has the name and the look-up by name is answered too. -/
structure Telling (inv : Inventory c) (api : Api) (id name : String) : Prop where
  answered : api.getVM id = inv.api.getVM id
  named : name ≠ ""
  noId : ∀ vm ∈ inv.vms, (parseUint (trim name.toList)).isSome = true → Names c name vm →
    vm.spec.name = name
  found : ∀ vm ∈ inv.vms, Names c id vm → vm.spec.name ≠ name →
    (∃ own, Only (·.spec.name) inv.vms name own) ∧ api.getVM name = inv.api.getVM name ∧
      api.listVMs = inv.api.listVMs

variable {u : Unicode} {inv : Inventory c} {api : Api} {id name : String} {vm found : VmRecord}
  {deleteVM : String → Except Failure Unit}

theorem getVM_ok : inv.api.getVM id = .ok vm ↔ vm ∈ inv.vms ∧ Names c id vm :=
  showFrom_ok inv.vmIds

/-- Where no guest has an id that can be read, the answer is that there is none. -/
theorem getVM_error {e : Failure} (h : inv.api.getVM id = .error e) :
    ∀ vm ∈ inv.vms, ¬ Names c id vm := by
  intro vm hvm hnames
  rw [getVM_ok.mpr ⟨hvm, hnames⟩] at h
  cases h

theorem names_unique {other : VmRecord} (hvm : vm ∈ inv.vms) (hother : other ∈ inv.vms)
    (h : Names c id vm) (h' : Names c id other) : vm = other :=
  List.inj_on_of_nodup_map inv.vmIds hvm hother (Option.some.inj (h.symm.trans h'))

/-- An id that is read back from its text is the id. -/
theorem names_text (hfound : found ∈ inv.vms) (hvm : vm ∈ inv.vms)
    (h : Names c found.id.text vm) : vm = found := by
  have hgiven := inv.given found hfound
  have hread := toOption_some h
  refine List.inj_on_of_nodup_map inv.vmIds hvm hfound ?_
  by_cases hshort : Store.Short found.id
  · obtain ⟨n, hn, hid⟩ := hshort
    have hlen : (toString n).length ≤ 2 := (Store.text_length_le (by decide)).mpr hn
    rw [hid, VmId.text, Store.parse_uuid (fun hd => by omega), c.parse_short (by omega)] at hread
    cases hread
  · rw [(Store.parse_text_iff hgiven).mpr hshort] at hread
    exact (Except.ok.inj hread).symm

/-- What is found under a name bears it, or was asked for by its id. -/
theorem findVM_ok (hapi : Answers inv api) (h : findVM u api name = .ok found) :
    found ∈ inv.vms ∧ (found.spec.name = name ∨
      (parseUint (trim name.toList)).isSome = true ∧ Names c name found) := by
  have hnamed : (do
      findNamed u "guest" name (fun vm : VmRecord => vm.spec.name) (← api.listVMs)) = .ok found →
      found ∈ inv.vms ∧ found.spec.name = name := by
    intro h
    rcases hapi.listVMs with hlist | ⟨e, hlist⟩
    · rw [hlist] at h
      have honly := (toOption_findNamed inv.vmIds.of_map).mp (congrArg Except.toOption h)
      exact ⟨honly.mem, honly.named⟩
    · rw [hlist] at h
      cases h
  unfold findVM getOr at h
  split at h
  · rename_i hasked
    split at h
    · rename_i hget
      cases h
      rcases hapi.getVM name with hsame | ⟨e, hfail⟩
      · obtain ⟨hmem, hnames⟩ := getVM_ok.mp (hsame ▸ hget)
        exact ⟨hmem, .inr ⟨hasked, hnames⟩⟩
      · rw [hfail] at hget
        cases hget
    · split at h
      · exact ⟨(hnamed h).1, .inl (hnamed h).2⟩
      · cases h
  · exact ⟨(hnamed h).1, .inl (hnamed h).2⟩

/-- The one guest of a name is found, unless the name is another guest's id. -/
theorem exists_findVM {own : VmRecord} (hown : Only (·.spec.name) inv.vms name own)
    (hget : api.getVM name = inv.api.getVM name) (hlist : api.listVMs = inv.api.listVMs) :
    ∃ found, findVM u api name = .ok found := by
  have hnamed : (do
      findNamed u "guest" name (fun vm : VmRecord => vm.spec.name) (← api.listVMs)) = .ok own := by
    rw [hlist]
    exact toOption_some ((toOption_findNamed inv.vmIds.of_map).mpr hown)
  unfold findVM getOr
  rw [hget, hnamed]
  split
  · split
    · exact ⟨_, rfl⟩
    · rename_i hmiss
      rw [if_pos (isLookupMiss_showFrom hmiss)]
      exact ⟨own, rfl⟩
  · exact ⟨own, rfl⟩

theorem removes_iff : Removes u inv api deleteVM id name vm ↔
    vm ∈ inv.vms ∧ Names c (deleteTarget u api id name) vm := by
  unfold Removes delete
  simp [Request.id]

/-- `Delete` removes the guest that bears the stored name: the one of the stored id where that one
bears the name, else the one that the name finds. -/
theorem delete_by_name (u : Unicode) (inv : Inventory c) (api : Api)
    (deleteVM : String → Except Failure Unit) (id name : String) (vm : VmRecord)
    (hapi : Answers inv api) (h : Telling inv api id name)
    (hr : Removes u inv api deleteVM id name vm) :
    vm.spec.name = name ∧
      (Names c id vm ∨ ∀ other ∈ inv.vms, Names c id other → other.spec.name ≠ name) := by
  obtain ⟨hvm, htarget⟩ := removes_iff.mp hr
  have hbyName : ∀ found, findVM u api name = .ok found →
      Names c found.id.text vm → vm.spec.name = name := by
    intro found hfind hnames
    obtain ⟨hmem, hcase⟩ := findVM_ok hapi hfind
    rw [names_text hmem hvm hnames]
    rcases hcase with hname | ⟨hasked, hid⟩
    · exact hname
    · exact h.noId found hmem hasked hid
  unfold deleteTarget at htarget
  rw [h.answered] at htarget
  cases hget : inv.api.getVM id with
  | ok first =>
    obtain ⟨hfirst, hid⟩ := getVM_ok.mp hget
    rw [hget] at htarget
    dsimp only at htarget
    split at htarget
    · rename_i hother
      obtain ⟨⟨own, hown⟩, hname, hlist⟩ := h.found first hfirst hid hother.2
      obtain ⟨found, hfind⟩ := exists_findVM (u := u) hown hname hlist
      unfold byName at htarget
      rw [hfind] at htarget
      refine ⟨hbyName found hfind htarget, .inr fun other hmem hnames => ?_⟩
      rw [names_unique hmem hfirst hnames hid]
      exact hother.2
    · rename_i hsame
      have hname : first.spec.name = name := by_contra fun hne => hsame ⟨h.named, hne⟩
      rw [names_unique hvm hfirst htarget hid]
      exact ⟨hname, .inl hid⟩
  | error e =>
    have hnone := getVM_error hget
    rw [hget] at htarget
    dsimp only at htarget
    split at htarget
    · unfold byName at htarget
      split at htarget
      · rename_i found hfind
        exact ⟨hbyName found hfind htarget,
          .inr fun other hmem hnames => absurd hnames (hnone other hmem)⟩
      · exact absurd htarget (hnone vm hvm)
    · exact absurd htarget (hnone vm hvm)

end own

def dbGuest : VmRecord where
  id := .numeric 100
  spec := { name := "db" }
  state := .running

def webGuest : VmRecord where
  id := .numeric 101
  spec := { name := "web" }
  state := .running

theorem reused_given : ∀ vm ∈ [dbGuest, webGuest], Store.Given Store.hyphenatedCrate vm.id := by
  simp only [List.forall_mem_cons]
  exact ⟨⟨"100", by decide⟩, ⟨"101", by decide⟩, fun _ h => absurd h List.not_mem_nil⟩

/-- The id that "web" had is another guest's by now. -/
def reused : Inventory Store.hyphenatedCrate where
  vms := [dbGuest, webGuest]
  networks := []
  volumes := []
  given := reused_given
  vmIds := by decide
  networkIds := List.nodup_nil
  volumeIds := List.nodup_nil
  networkBytes := noNetwork_bytes
  volumeBytes := noVolume_bytes

theorem reused_answers : Answers reused reused.api := ⟨fun _ => .inl rfl, .inl rfl⟩

theorem delete_by_name_reused : webGuest.spec.name = "web" ∧
    (Names Store.hyphenatedCrate "100" webGuest ∨ ∀ other ∈ reused.vms,
      Names Store.hyphenatedCrate "100" other → other.spec.name ≠ "web") :=
  delete_by_name Provider.go reused reused.api (fun _ => .ok ()) "100" "web" webGuest reused_answers
    { answered := rfl
      named := by decide
      noId := fun vm _ hasked => absurd hasked (by decide)
      found := fun _ _ _ _ => ⟨⟨webGuest, List.mem_cons_of_mem _ List.mem_cons_self, rfl, by
        simp [reused, dbGuest, webGuest]⟩, rfl, rfl⟩ }
    (removes_iff.mpr ⟨List.mem_cons_of_mem _ List.mem_cons_self, by decide⟩)

/-- The guest that is removed has another id than the stored one. -/
theorem removes_other_id : ¬ ∀ (u : Unicode) (c : UuidCrate) (inv : Inventory c) (api : Api)
    (deleteVM : String → Except Failure Unit) (id name : String) (vm : VmRecord), Answers inv api →
    Removes u inv api deleteVM id name vm → Names c id vm ∧ vm.spec.name = name := by
  intro h
  have hown := h Provider.go Store.hyphenatedCrate reused reused.api (fun _ => .ok ()) "100" "web"
    webGuest reused_answers
    (removes_iff.mpr ⟨List.mem_cons_of_mem _ List.mem_cons_self, by decide⟩)
  exact absurd hown.1 (by decide)

end Pertisk.Terraform
