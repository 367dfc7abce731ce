import Pertisk.Migrate.Live

namespace Pertisk.Migrate
open Lib

namespace Live

variable {s t : Live} {n m : NodeId} {r vm : VmRecord} {strict : Prop} {P : VmRecord → Prop}

def Named (n : NodeId) (r : VmRecord) : Prop := r.nodeId = some n

/-- The record as the destination writes it. -/
def Moved (dest : NodeId) (r : VmRecord) : Prop := r.nodeId = some dest ∧ r.state = .running

/-- Every record of the guest meets `P`, be it stored, on its way or read by a reconcile pass. -/
structure Records (s : Live) (P : VmRecord → Prop) : Prop where
  stored : ∀ n, ∃ r, s.record n = some r ∧ P r
  sent : ∀ p ∈ s.net, ∃ r, (Table.ofList p.2.vms : Table VmRecord VmRecord.id).get s.id = some r ∧ P r
  listed : ∀ n r, s.listed n = some r → P r

/-- How far the guest itself has come. -/
inductive Point
  | before
  | landed
  | resumed
  | settled
  | broken

def Prepared (s : Live) : Prop := ∃ r, s.incoming s.call.dest = some r ∧ r.id = s.id

/-- What holds on the nodes at each point. -/
def At (s : Live) : Point → Prop
  | .before => s.Records (Named s.call.src) ∧ s.qemu s.call.src = some .running ∧
      (s.qemu s.call.dest = none ∨ s.qemu s.call.dest = some .inmigrate ∧ s.Prepared) ∧
      s.request = false ∧ s.resuming = none ∧ s.reply = none
  | .landed => s.Records (Named s.call.src) ∧ s.isRunning s.call.src = false ∧
      s.qemu s.call.dest = some .paused ∧ s.Prepared ∧ s.resuming = none ∧ s.reply = none
  | .resumed => s.Records (Named s.call.src) ∧ s.isRunning s.call.src = false ∧
      s.qemu s.call.dest = some .running ∧ s.request = false ∧
      (∃ r, s.resuming = some r ∧ r.id = s.id) ∧ s.reply = none
  | .settled => s.Records (fun r => Named s.call.src r ∨ Moved s.call.dest r) ∧
      s.isRunning s.call.src = false ∧ s.qemu s.call.dest = some .running ∧
      s.request = false ∧ s.resuming = none ∧ (∃ r, s.reply = some (.ok r) ∧ r.id = s.id) ∧
      ∃ r, s.record s.call.dest = some r ∧ Moved s.call.dest r
  | .broken => s.Records (Named s.call.src) ∧ s.isRunning s.call.src = false ∧
      s.qemu s.call.dest = none ∧ s.request = false ∧ s.resuming = none ∧
      ∀ r, s.reply ≠ some (.ok r)

/-- Where the guest can be at each stage of the call. -/
def Fits (strict : Prop) (s : Live) (p : Point) : Prop :=
  match s.stage with
  | .listening => p = .before ∧ s.qemu s.call.dest = none ∧ s.moving = false
  | .mirroring => p = .before ∧ s.qemu s.call.dest = some .inmigrate ∧ s.moving = false
  | .migrating => s.call.caller = s.call.src ∧ s.request = false ∧
      (p = .before ∧ s.qemu s.call.dest = some .inmigrate ∨ p = .landed)
  | .finishing => s.call.caller = s.call.src ∧
      (p = .landed ∧ s.request = true ∨ p = .resumed ∨ p = .settled ∨
        p = .broken ∧ ¬ strict)
  | .dropping started => s.call.caller = s.call.src ∧ p = .settled ∧ started.id = s.id
  | .returned (.ok _) => p = .settled ∧ ∃ r, s.record s.call.src = some r ∧ Moved s.call.dest r
  | .returned (.error _) => strict → p = .before ∨
      p = .settled ∧ ∀ n, ∃ r, s.record n = some r ∧ Moved s.call.dest r

structure Inv (strict : Prop) (s : Live) : Prop where
  apart : s.call.dest ≠ s.call.src
  others : ∀ n, n ≠ s.call.src → n ≠ s.call.dest → s.qemu n = none
  quiet : s.destroyed = false ∧ s.restarted = false
  point : ∃ p, s.At p ∧ s.Fits strict p

/-- A running guest whose hand-over is about to begin. -/
structure Start (s : Live) : Prop where
  apart : s.call.dest ≠ s.call.src
  named : s.call.record.nodeId = some s.call.src
  stored : ∀ n, s.record n = some s.call.record
  running : ∀ n, s.qemu n = if n = s.call.src then some .running else none
  stage : s.stage = .listening
  idle : s.moving = false ∧ s.request = false ∧ s.resuming = none ∧ s.reply = none
  silent : s.net = [] ∧ ∀ n, s.listed n = none
  quiet : s.destroyed = false ∧ s.restarted = false

/-- The guest that `autostart` would start on the node. -/
def autostarts (s : Live) (n : NodeId) : Bool :=
  (s.record n).any (fun r => !r.template && r.nodeId == some n &&
    (r.spec.autostart || s.restoreOnBoot n) && !s.autostarted n && r.state != .running)

/-- A node that knows of the move takes in no inventory from before it. -/
def KeepsMove (s : Live) (m : NodeId) (snap : ClusterSnapshot) : Prop :=
  (s.node m).cluster.generation < snap.generation →
    (s.record m).bind VmRecord.nodeId = some s.call.dest →
    ((Table.ofList snap.vms : Table VmRecord VmRecord.id).get s.id).bind VmRecord.nodeId =
      some s.call.dest

/-- The background tasks leave the guest alone. -/
def Careful (s : Live) : LiveAction → Prop
  | .reconcile n => ∀ vm, s.listed n = some vm → s.isRunning n = true → vm.nodeId = some n
  | .autostart n => s.autostarts n = false
  | .deliver i => ∀ m snap, s.net[i]? = some (m, snap) → s.KeepsMove m snap
  | _ => True

/-- The call does not fail once the guest's state has landed. -/
def Mindful (s : Live) : LiveAction → Prop
  | .land => (s.stage matches .migrating) = true
  | .fail _ _ => s.qemu s.call.dest ≠ some .paused
  | .resume goesOn => goesOn = true
  | .giveUp _ => ∀ n, (s.record n).bind VmRecord.nodeId = some s.call.dest
  | _ => True

theorem Records.mono {Q : VmRecord → Prop} (h : s.Records P) (hPQ : ∀ r, P r → Q r) :
    s.Records Q where
  stored n := (h.stored n).imp (fun r hr => ⟨hr.1, hPQ r hr.2⟩)
  sent p hp := (h.sent p hp).imp (fun r hr => ⟨hr.1, hPQ r hr.2⟩)
  listed n r hr := hPQ r (h.listed n r hr)

theorem record_setNode (node : Node) (m : NodeId) :
    (s.setNode n node).record m = if m = n then node.store.get s.id else s.record m := by
  unfold record setNode
  by_cases h : m = n
  · subst h
    simp [id]
  · simp [h, id]

theorem record_upsertVm (hid : r.id = s.id) (m : NodeId) :
    (s.upsertVm n r).record m = if m = n then some r else s.record m := by
  unfold upsertVm
  rw [record_setNode]
  have hget : ((s.node n).upsertVm r).bump.store.get s.id = some r := by
    rw [← hid]
    exact Table.get_insert_self ..
  rw [hget]

theorem Records.upsertVm (h : s.Records P) (hid : r.id = s.id) (hP : P r) :
    (s.upsertVm n r).Records P where
  stored m := by
    rw [record_upsertVm hid]
    split
    · exact ⟨r, rfl, hP⟩
    · exact h.stored m
  sent := h.sent
  listed := h.listed

/-- What holds everywhere in every phase: each record names the source, or the destination with the
guest running there, and then it does run there. -/
theorem Inv.records (h : s.Inv strict) :
    s.Records (Named s.call.src) ∨
      s.Records (fun r => Named s.call.src r ∨ Moved s.call.dest r) ∧
        s.qemu s.call.dest = some .running := by
  obtain ⟨p, hat, -⟩ := h.point
  cases p with
  | before => exact .inl hat.1
  | landed => exact .inl hat.1
  | resumed => exact .inl hat.1
  | settled => exact .inr ⟨hat.1, hat.2.2.1⟩
  | broken => exact .inl hat.1

/-- A step beside the call: at most a QEMU that the source no longer runs is cleared away. -/
structure Aside (s t : Live) : Prop where
  call : t.call = s.call
  stage : t.stage = s.stage
  hands : t.moving = s.moving ∧ t.request = s.request ∧ t.resuming = s.resuming ∧ t.reply = s.reply
  incoming : t.incoming = s.incoming
  quiet : t.destroyed = s.destroyed ∧ t.restarted = s.restarted
  qemu : t.qemu = s.qemu ∨
    s.isRunning s.call.src = false ∧ t.qemu = Function.update s.qemu s.call.src none
  records : ∀ P : VmRecord → Prop, (∀ r, Named s.call.src r → P r) → s.Records P → t.Records P
  kept : ∀ n r, s.record n = some r → Moved s.call.dest r →
    ∃ r', t.record n = some r' ∧ Moved s.call.dest r'

namespace Aside

theorem qemu_of_ne (h : Aside s t) (hne : n ≠ s.call.src) : t.qemu n = s.qemu n := by
  rcases h.qemu with hq | ⟨-, hq⟩
  · rw [hq]
  · rw [hq, Function.update_of_ne hne]

theorem qemu_running (h : Aside s t) (hr : s.qemu s.call.src = some .running) :
    t.qemu s.call.src = some .running := by
  rcases h.qemu with hq | ⟨hoff, -⟩
  · rw [hq, hr]
  · simp [isRunning, hr, guestQmpRunning] at hoff

theorem off (h : Aside s t) (hoff : s.isRunning s.call.src = false) :
    t.isRunning s.call.src = false := by
  unfold isRunning at hoff ⊢
  rcases h.qemu with hq | ⟨-, hq⟩
  · rwa [hq]
  · rw [hq, Function.update_self]
    rfl

theorem prepared (h : Aside s t) (hp : s.Prepared) : t.Prepared := by
  unfold Prepared id at *
  rwa [h.incoming, h.call]

theorem at_point (h : Aside s t) (hne : s.call.dest ≠ s.call.src) {p : Point} (hat : s.At p) :
    t.At p := by
  have hdest := h.qemu_of_ne hne
  have hnamed := h.records _ (fun _ hr => hr)
  obtain ⟨-, hrequest, hresuming, hreply⟩ := h.hands
  cases p with
  | before =>
    obtain ⟨hrec, hsrc, hd, h1, h2, h3⟩ := hat
    simp only [At, h.call, hdest, hrequest, hresuming, hreply]
    exact ⟨hnamed hrec, h.qemu_running hsrc, hd.imp_right (And.imp_right h.prepared), h1, h2, h3⟩
  | landed =>
    obtain ⟨hrec, hsrc, hd, hp, h2, h3⟩ := hat
    simp only [At, h.call, hdest, hresuming, hreply]
    exact ⟨hnamed hrec, h.off hsrc, hd, h.prepared hp, h2, h3⟩
  | resumed =>
    obtain ⟨hrec, hsrc, hd, h1, h2, h3⟩ := hat
    simp only [At, h.call, hdest, hrequest, hresuming, hreply, id]
    exact ⟨hnamed hrec, h.off hsrc, hd, h1, h2, h3⟩
  | settled =>
    obtain ⟨hrec, hsrc, hd, h1, h2, h3, r, hr, hmoved⟩ := hat
    simp only [At, h.call, hdest, hrequest, hresuming, hreply, id]
    exact ⟨h.records _ (fun _ hr => .inl hr) hrec, h.off hsrc, hd, h1, h2, h3,
      h.kept _ r hr hmoved⟩
  | broken =>
    obtain ⟨hrec, hsrc, hd, h1, h2, h3⟩ := hat
    simp only [At, h.call, hdest, hrequest, hresuming, hreply]
    exact ⟨hnamed hrec, h.off hsrc, hd, h1, h2, h3⟩

theorem fits (h : Aside s t) (hne : s.call.dest ≠ s.call.src) {p : Point}
    (hfits : s.Fits strict p) : t.Fits strict p := by
  have hdest := h.qemu_of_ne hne
  obtain ⟨hmoving, hrequest, -, -⟩ := h.hands
  unfold Fits at hfits ⊢
  rw [h.stage]
  cases hstage : s.stage with
  | listening => simpa only [hstage, h.call, hdest, hmoving] using hfits
  | mirroring => simpa only [hstage, h.call, hdest, hmoving] using hfits
  | migrating => simpa only [hstage, h.call, hdest, hrequest] using hfits
  | finishing => simpa only [hstage, h.call, hrequest] using hfits
  | dropping started => simpa only [hstage, h.call, id] using hfits
  | returned result =>
    rw [hstage] at hfits
    cases result with
    | error text =>
      intro hstrict
      refine (hfits hstrict).imp_right (And.imp_right (fun hall n => ?_))
      obtain ⟨r, hr, hmoved⟩ := hall n
      rw [h.call]
      exact h.kept n r hr hmoved
    | ok started =>
      obtain ⟨hp, r, hr, hmoved⟩ := hfits
      rw [h.call]
      exact ⟨hp, h.kept _ r hr hmoved⟩

theorem inv (h : Aside s t) (hinv : s.Inv strict) : t.Inv strict where
  apart := by
    rw [h.call]
    exact hinv.apart
  others n hsrc hdest := by
    rw [h.call] at hsrc hdest
    rw [h.qemu_of_ne hsrc]
    exact hinv.others n hsrc hdest
  quiet := by
    rw [h.quiet.1, h.quiet.2]
    exact hinv.quiet
  point := by
    obtain ⟨p, hat, hfits⟩ := hinv.point
    exact ⟨p, h.at_point hinv.apart hat, h.fits hinv.apart hfits⟩

theorem refl (s : Live) : Aside s s where
  call := rfl
  stage := rfl
  hands := ⟨rfl, rfl, rfl, rfl⟩
  incoming := rfl
  quiet := ⟨rfl, rfl⟩
  qemu := .inl rfl
  records _ _ h := h
  kept _ r hr hm := ⟨r, hr, hm⟩

end Aside

/-- Only the messages and what the passes have read change. -/
theorem aside_of_records {net : List (NodeId × ClusterSnapshot)} {now : Nat}
    {listed : NodeId → Option VmRecord} {autostarted restoreOnBoot : NodeId → Bool}
    (hrec : ∀ P, s.Records P → Records { s with net, listed } P) :
    Aside s { s with net, now, listed, autostarted, restoreOnBoot } where
  call := rfl
  stage := rfl
  hands := ⟨rfl, rfl, rfl, rfl⟩
  incoming := rfl
  quiet := ⟨rfl, rfl⟩
  qemu := .inl rfl
  records P _ h := ⟨(hrec P h).stored, (hrec P h).sent, (hrec P h).listed⟩
  kept _ r hr hm := ⟨r, hr, hm⟩

theorem push_aside (n m : NodeId) :
    Aside s { s with net := s.net ++ [(m, (s.node n).snapshot)] } := by
  refine aside_of_records (fun P h => ⟨h.stored, fun p hp => ?_, h.listed⟩)
  rcases List.mem_append.mp hp with hp | hp
  · exact h.sent p hp
  · obtain rfl := List.mem_singleton.mp hp
    obtain ⟨r, hr, hP⟩ := h.stored n
    refine ⟨r, ?_, hP⟩
    simp only [Node.snapshot, Table.ofList_rows]
    exact hr

theorem lose_aside (i : Nat) : Aside s { s with net := s.net.eraseIdx i } :=
  aside_of_records (fun _ h =>
    ⟨h.stored, fun p hp => h.sent p (List.mem_of_mem_eraseIdx hp), h.listed⟩)

theorem list_aside (n : NodeId) :
    Aside s { s with listed := Function.update s.listed n (s.record n) } := by
  refine aside_of_records (fun P h => ⟨h.stored, h.sent, fun m r hr => ?_⟩)
  by_cases hm : m = n
  · subst hm
    obtain ⟨r', hr', hP⟩ := h.stored m
    simp only [Function.update_self] at hr
    obtain rfl := Option.some.inj (hr'.symm.trans hr)
    exact hP
  · exact h.listed m r (by simpa [hm] using hr)

theorem unlist_aside (n : NodeId) (restoreOnBoot : NodeId → Bool) :
    Aside s { s with listed := Function.update s.listed n none, restoreOnBoot } := by
  refine aside_of_records (fun P h => ⟨h.stored, h.sent, fun m r hr => ?_⟩)
  by_cases hm : m = n
  · subst hm
    simp at hr
  · exact h.listed m r (by simpa [hm] using hr)

theorem deliver_aside (hinv : s.Inv strict) {i : Nat} {snap : ClusterSnapshot}
    (hget : s.net[i]? = some (m, snap)) (hkeeps : s.KeepsMove m snap) :
    Aside s (setNode { s with net := s.net.eraseIdx i } m ((s.node m).applySnapshot s.now snap)) := by
  have hmem : (m, snap) ∈ s.net := List.mem_of_getElem? hget
  have hrecord : ∀ n, (setNode { s with net := s.net.eraseIdx i } m
      ((s.node m).applySnapshot s.now snap)).record n =
      if n = m then ((s.node m).applySnapshot s.now snap).store.get s.id else s.record n :=
    fun n => record_setNode _ n
  refine
    { call := rfl
      stage := rfl
      hands := ⟨rfl, rfl, rfl, rfl⟩
      incoming := rfl
      quiet := ⟨rfl, rfl⟩
      qemu := .inl rfl
      records := fun P _ h => ⟨fun n => ?_, fun p hp => h.sent p (List.mem_of_mem_eraseIdx hp),
        h.listed⟩
      kept := fun n r hr hmoved => ?_ }
  · rw [hrecord]
    split
    · rcases (s.node m).applySnapshot_cases s.now snap with ⟨-, -, hstore, -⟩ | ⟨-, -, hstore, -⟩
      · rw [hstore]
        exact h.sent _ hmem
      · rw [hstore]
        exact h.stored m
    · exact h.stored n
  · rw [hrecord]
    split
    · rename_i hn
      subst hn
      rcases (s.node n).applySnapshot_cases s.now snap with ⟨hlt, -, hstore, -⟩ | ⟨-, -, hstore, -⟩
      · rw [hstore]
        have hdest := hkeeps hlt (by rw [hr]; exact hmoved.1)
        obtain ⟨r', hr', hname⟩ := Option.bind_eq_some_iff.mp hdest
        refine ⟨r', hr', ?_⟩
        rcases hinv.records with hrec | ⟨hrec, -⟩
        · obtain ⟨q, hq, hsrc⟩ := hrec.sent _ hmem
          obtain rfl := Option.some.inj (hq.symm.trans hr')
          exact absurd (Option.some.inj (hname.symm.trans hsrc)) hinv.apart
        · obtain ⟨q, hq, hsrc | hmoved'⟩ := hrec.sent _ hmem
          · obtain rfl := Option.some.inj (hq.symm.trans hr')
            exact absurd (Option.some.inj (hname.symm.trans hsrc)) hinv.apart
          · obtain rfl := Option.some.inj (hq.symm.trans hr')
            exact hmoved'
      · rw [hstore]
        exact ⟨r, hr, hmoved⟩
    · exact ⟨r, hr, hmoved⟩

/-- A guest that is marked stopped is one that has left the source. -/
theorem onGuestExited_aside (hinv : s.Inv strict) (hoff : s.isRunning n = false) :
    Aside s (s.onGuestExited n) := by
  unfold onGuestExited
  cases hr : s.record n with
  | none => exact .refl s
  | some r =>
    dsimp only
    split
    · rename_i hmine
      have hsrc : n = s.call.src := by
        rcases hinv.records with hrec | ⟨hrec, hdest⟩
        · obtain ⟨q, hq, hname⟩ := hrec.stored n
          obtain rfl := Option.some.inj (hq.symm.trans hr)
          exact Option.some.inj (hmine.2.symm.trans hname)
        · obtain ⟨q, hq, hname | hmoved⟩ := hrec.stored n
          · obtain rfl := Option.some.inj (hq.symm.trans hr)
            exact Option.some.inj (hmine.2.symm.trans hname)
          · obtain rfl := Option.some.inj (hq.symm.trans hr)
            obtain rfl : n = s.call.dest := Option.some.inj (hmine.2.symm.trans hmoved.1)
            simp [isRunning, hdest, guestQmpRunning] at hoff
      subst hsrc
      have hid : r.stopped.id = s.id := (Table.key_of_get hr : r.id = s.id)
      refine
        { call := rfl
          stage := rfl
          hands := ⟨rfl, rfl, rfl, rfl⟩
          incoming := rfl
          quiet := ⟨?_, rfl⟩
          qemu := .inr ⟨hoff, rfl⟩
          records := fun P hP h => ?_
          kept := fun m q hq hmoved => ?_ }
      · simp [beq_eq_false_iff_ne.mpr hinv.apart.symm]
      · have hup := h.upsertVm (n := s.call.src) hid (hP _ hmine.2)
        exact ⟨hup.stored, hup.sent, hup.listed⟩
      · have hrecord := record_upsertVm (s := s) (n := s.call.src) hid m
        refine ⟨q, hrecord.trans ?_, hmoved⟩
        rw [if_neg, hq]
        rintro rfl
        obtain rfl := Option.some.inj (hr.symm.trans hq)
        exact hinv.apart (Option.some.inj (hmoved.1.symm.trans hmine.2))
    · exact .refl s

theorem Aside.trans {u : Live} (h : Aside s t) (g : Aside t u) : Aside s u where
  call := g.call.trans h.call
  stage := g.stage.trans h.stage
  hands := ⟨g.hands.1.trans h.hands.1, g.hands.2.1.trans h.hands.2.1,
    g.hands.2.2.1.trans h.hands.2.2.1, g.hands.2.2.2.trans h.hands.2.2.2⟩
  incoming := g.incoming.trans h.incoming
  quiet := ⟨g.quiet.1.trans h.quiet.1, g.quiet.2.trans h.quiet.2⟩
  qemu := by
    have hg := g.qemu
    rw [h.call] at hg
    rcases h.qemu with hq | ⟨hoff, hq⟩
    · rcases hg with hg | ⟨hoff, hg⟩
      · exact .inl (hg.trans hq)
      · refine .inr ⟨?_, hg.trans (by rw [hq])⟩
        rwa [isRunning, hq] at hoff
    · refine .inr ⟨hoff, ?_⟩
      rcases hg with hg | ⟨-, hg⟩
      · exact hg.trans hq
      · rw [hg, hq, Function.update_idem]
  records P hP hrec := g.records P (by rwa [h.call]) (h.records P hP hrec)
  kept n r hr hm := by
    obtain ⟨r', hr', hm'⟩ := h.kept n r hr hm
    have hk := g.kept n r' hr'
    rw [h.call] at hk
    exact hk hm'

theorem reconcile_aside (hinv : s.Inv strict)
    (hcareful : s.isRunning n = true → vm.nodeId = some n) : Aside s (s.reconcile n vm) := by
  have hun := unlist_aside (s := s) n
  unfold reconcile
  dsimp only
  split
  · rename_i hfound
    simp only [Bool.and_eq_true, Bool.not_eq_true', beq_eq_false_iff_ne] at hfound
    exact absurd (hcareful hfound.1) hfound.2
  · split
    · rename_i hgone
      have hoff : s.isRunning n = false := by
        simp only [Bool.and_eq_true, Bool.not_eq_true'] at hgone
        exact hgone.2
      split
      · exact (hun _).trans (onGuestExited_aside ((hun _).inv hinv) hoff)
      · exact (hun _).trans (onGuestExited_aside ((hun _).inv hinv) hoff)
    · exact hun _

theorem autostart_aside (hcareful : s.autostarts n = false) : Aside s (s.autostart n) := by
  unfold autostart
  cases hr : s.record n with
  | none => exact .refl s
  | some r =>
    dsimp only
    split
    · rename_i hmine
      have hrunning : r.state = .running := by
        simp only [autostarts, hr, Option.any_some, hmine, Bool.true_and, bne_eq_false_iff_eq]
          at hcareful
        exact hcareful
      rw [if_pos hrunning]
      exact aside_of_records (fun _ h => h)
    · exact .refl s

end Live

end Pertisk.Migrate
