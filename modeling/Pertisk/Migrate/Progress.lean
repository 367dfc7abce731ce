import Pertisk.Migrate.Handover

namespace Pertisk.Migrate
open Lib

namespace Live

variable {s t : Live} {r : VmRecord} {strict : Prop}

theorem Inv.next (h : s.Inv strict) (hcall : t.call = s.call)
    (hothers : ∀ n, n ≠ s.call.src → n ≠ s.call.dest → t.qemu n = s.qemu n)
    (hquiet : t.destroyed = s.destroyed ∧ t.restarted = s.restarted) {p : Point} (hat : t.At p)
    (hfits : t.Fits strict p) : t.Inv strict where
  apart := by
    rw [hcall]
    exact h.apart
  others n hsrc hdest := by
    rw [hcall] at hsrc hdest
    rw [hothers n hsrc hdest]
    exact h.others n hsrc hdest
  quiet := by
    rw [hquiet.1, hquiet.2]
    exact h.quiet
  point := ⟨p, hat, hfits⟩

theorem applyIncoming_before (hne : s.call.dest ≠ s.call.src) {stage : Stage} (h : s.At .before) :
    At { s.applyIncoming with stage } .before := by
  obtain ⟨hrec, hsrc, -, h1, h2, h3⟩ := h
  refine ⟨⟨hrec.stored, hrec.sent, hrec.listed⟩, ?_, .inr ⟨Function.update_self .., ?_⟩, h1, h2, h3⟩
  · exact (Function.update_of_ne hne.symm ..).trans hsrc
  · exact ⟨_, Function.update_self .., rfl⟩

theorem inv_listen (hinv : s.Inv strict) (hstage : s.stage = .listening) :
    Inv strict { s.applyIncoming with stage := .mirroring } := by
  obtain ⟨p, hat, hfits⟩ := hinv.point
  simp only [Fits, hstage] at hfits
  obtain ⟨rfl, -, hmoving⟩ := hfits
  refine hinv.next rfl (fun n _ hd => Function.update_of_ne hd ..) ⟨rfl, rfl⟩
    (applyIncoming_before hinv.apart hat) ⟨rfl, Function.update_self .., hmoving⟩

theorem inv_listenLost (hinv : s.Inv strict) (hstage : s.stage = .listening) (text : String) :
    Inv strict { s.applyIncoming with stage := .returned (.error text) } := by
  obtain ⟨p, hat, hfits⟩ := hinv.point
  simp only [Fits, hstage] at hfits
  obtain ⟨rfl, -, -⟩ := hfits
  exact hinv.next rfl (fun n _ hd => Function.update_of_ne hd ..) ⟨rfl, rfl⟩
    (applyIncoming_before hinv.apart hat) (fun _ => .inl rfl)

theorem At.stage {p : Point} (h : s.At p) (stage : Stage) (moving : Bool) :
    At { s with stage, moving } p := by
  cases p <;> obtain ⟨hrec, h⟩ := h <;> exact ⟨⟨hrec.stored, hrec.sent, hrec.listed⟩, h⟩

theorem inv_failUnheard (hinv : s.Inv strict) {text : String}
    (hstage : s.stage = .listening ∨ s.stage = .mirroring ∨ s.stage = .migrating)
    (hmindful : strict → s.qemu s.call.dest ≠ some .paused) (moving : Bool) :
    Inv strict { s with stage := .returned (.error text), moving } := by
  obtain ⟨p, hat, hfits⟩ := hinv.point
  refine hinv.next rfl (fun _ _ _ => rfl) ⟨rfl, rfl⟩ (hat.stage _ _) (fun hstrict => .inl ?_)
  unfold Fits at hfits
  rcases hstage with hstage | hstage | hstage <;> simp only [hstage] at hfits
  · exact hfits.1
  · exact hfits.1
  · rcases hfits.2.2 with ⟨hp, -⟩ | rfl
    · exact hp
    · exact absurd hat.2.2.1 (hmindful hstrict)

/-- The destination hears that the call has failed, and clears away what it has of the guest. -/
theorem inv_failHeard (hinv : s.Inv strict) {text : String}
    (hstage : s.stage = .mirroring ∨ s.stage = .migrating)
    (hmindful : strict → s.qemu s.call.dest ≠ some .paused) :
    Inv strict { s.abortIncoming s.call.dest with
      stage := .returned (.error text), moving := false } := by
  obtain ⟨p, hat, hfits⟩ := hinv.point
  have habort : s.Prepared → s.abortIncoming s.call.dest =
      (s.setIncoming s.call.dest none).setQemu s.call.dest none := by
    rintro ⟨r, hr, -⟩
    simp [abortIncoming, hr]
  have hmirrored : p = .before ∧ s.qemu s.call.dest = some .inmigrate ∨
      p = .landed ∧ s.request = false := by
    unfold Fits at hfits
    rcases hstage with hstage | hstage <;> simp only [hstage] at hfits
    · exact .inl ⟨hfits.1, hfits.2.1⟩
    · exact hfits.2.2.imp_right (⟨·, hfits.2.1⟩)
  rcases hmirrored with ⟨rfl, hdest⟩ | ⟨rfl, hrequest⟩
  · obtain ⟨hrec, hsrc, hd, h1, h2, h3⟩ := hat
    have hprepared : s.Prepared := by
      rcases hd with hd | hd
      · rw [hd] at hdest
        cases hdest
      · exact hd.2
    rw [habort hprepared]
    refine hinv.next rfl (fun n _ hd => Function.update_of_ne hd ..) ⟨rfl, rfl⟩ (p := .before)
      ⟨⟨hrec.stored, hrec.sent, hrec.listed⟩, ?_, .inl (Function.update_self ..), h1, h2, h3⟩
      (fun _ => .inl rfl)
    exact (Function.update_of_ne hinv.apart.symm ..).trans hsrc
  · obtain ⟨hrec, hsrc, hd, hprepared, h2, h3⟩ := hat
    rw [habort hprepared]
    refine hinv.next rfl (fun n _ hd => Function.update_of_ne hd ..) ⟨rfl, rfl⟩ (p := .broken)
      ⟨⟨hrec.stored, hrec.sent, hrec.listed⟩, ?_, Function.update_self .., hrequest, h2, ?_⟩
      (fun hstrict => absurd hd (hmindful hstrict))
    · unfold isRunning at hsrc ⊢
      exact (congrArg _ (Function.update_of_ne hinv.apart.symm ..)).trans hsrc
    · simp [setQemu, setIncoming, h3]

theorem inv_migrate (hinv : s.Inv strict) (hstage : s.stage = .mirroring)
    (hcaller : s.call.caller = s.call.src) :
    Inv strict { s with stage := .migrating, moving := true } := by
  obtain ⟨p, hat, hfits⟩ := hinv.point
  simp only [Fits, hstage] at hfits
  obtain ⟨rfl, hdest, -⟩ := hfits
  exact hinv.next rfl (fun _ _ _ => rfl) ⟨rfl, rfl⟩ (hat.stage _ _)
    ⟨hcaller, hat.2.2.2.1, .inl ⟨rfl, hdest⟩⟩

/-- The guest stops on the source the moment its state has landed. -/
theorem inv_land (hinv : s.Inv strict) (hmoving : s.moving = true)
    (hsrc : s.qemu s.call.src = some .running) (hdest : s.qemu s.call.dest = some .inmigrate)
    (hmindful : strict → (s.stage matches .migrating) = true) :
    Inv strict { (s.setQemu s.call.src (some .postmigrate)).setQemu s.call.dest (some .paused) with
      moving := false } := by
  obtain ⟨p, hat, hfits⟩ := hinv.point
  have hrun : s.isRunning s.call.src = true := by
    simp [isRunning, hsrc, guestQmpRunning]
  have hp : p = .before := by
    cases p with
    | before => rfl
    | landed => exact absurd hrun (by simp [hat.2.1])
    | resumed => exact absurd hrun (by simp [hat.2.1])
    | settled => exact absurd hrun (by simp [hat.2.1])
    | broken => exact absurd hrun (by simp [hat.2.1])
  subst hp
  obtain ⟨hrec, -, hd, h1, h2, h3⟩ := hat
  have hprepared : s.Prepared := by
    rcases hd with hd | hd
    · rw [hd] at hdest
      cases hdest
    · exact hd.2
  refine hinv.next rfl (fun n hs hd => ?_) ⟨rfl, rfl⟩ (p := .landed)
    ⟨⟨hrec.stored, hrec.sent, hrec.listed⟩, ?_, Function.update_self .., hprepared, h2, h3⟩ ?_
  · exact (Function.update_of_ne hd ..).trans (Function.update_of_ne hs ..)
  · have hpost : Function.update (Function.update s.qemu s.call.src (some .postmigrate))
        s.call.dest (some .paused) s.call.src = some .postmigrate := by
      rw [Function.update_of_ne hinv.apart.symm, Function.update_self]
    simp [isRunning, setQemu, hpost, guestQmpRunning]
  · unfold Fits at hfits ⊢
    simp only [setQemu]
    cases hstage : s.stage with
    | listening => simp_all
    | mirroring => simp_all
    | migrating =>
      simp only [hstage] at hfits
      exact ⟨hfits.1, hfits.2.1, .inr trivial⟩
    | finishing => simp [hstage] at hfits
    | dropping started => simp [hstage] at hfits
    | returned result =>
      cases result with
      | ok started => simp [hstage] at hfits
      | error text =>
        intro hstrict
        simp [hstage] at hmindful
        exact absurd hstrict hmindful

theorem inv_migrated (hinv : s.Inv strict) (hstage : s.stage = .migrating)
    (hsrc : s.qemu s.call.src = some .postmigrate) :
    Inv strict { s with stage := .finishing, request := true } := by
  obtain ⟨p, hat, hfits⟩ := hinv.point
  simp only [Fits, hstage] at hfits
  obtain ⟨hcaller, -, ⟨rfl, -⟩ | rfl⟩ := hfits
  · rw [hat.2.1] at hsrc
    cases hsrc
  · obtain ⟨hrec, hat⟩ := hat
    exact hinv.next rfl (fun _ _ _ => rfl) ⟨rfl, rfl⟩ (p := .landed)
      ⟨⟨hrec.stored, hrec.sent, hrec.listed⟩, hat⟩ ⟨hcaller, .inl ⟨rfl, rfl⟩⟩

/-- From where the state has landed the guest goes on at the destination, or is lost. -/
theorem inv_resume (hinv : s.Inv strict) (hrequest : s.request = true) {goesOn : Bool}
    (hmindful : strict → goesOn = true) :
    Inv strict ({ s with request := false }.resume s.call.dest goesOn) := by
  obtain ⟨p, hat, hfits⟩ := hinv.point
  have hp : p = .landed := by
    cases p with
    | before => exact absurd hrequest (by simp [hat.2.2.2.1])
    | landed => rfl
    | resumed => exact absurd hrequest (by simp [hat.2.2.2.1])
    | settled => exact absurd hrequest (by simp [hat.2.2.2.1])
    | broken => exact absurd hrequest (by simp [hat.2.2.2.1])
  subst hp
  obtain ⟨hrec, hsrc, hd, ⟨r, hr, hid⟩, h2, h3⟩ := hat
  have hoff : ∀ status, (Function.update s.qemu s.call.dest status s.call.src).any guestQmpRunning =
      false := by
    intro status
    rw [Function.update_of_ne hinv.apart.symm]
    exact hsrc
  have hothers : ∀ status n, n ≠ s.call.src → n ≠ s.call.dest →
      Function.update s.qemu s.call.dest status n = s.qemu n :=
    fun status n _ hd => Function.update_of_ne hd ..
  have hstage : s.stage = .finishing ∧ s.call.caller = s.call.src ∨
      ∃ text, s.stage = .returned (.error text) ∧ ¬ strict := by
    unfold Fits at hfits
    cases hstage : s.stage with
    | listening => simp [hstage] at hfits
    | mirroring => simp [hstage] at hfits
    | migrating => simp [hstage, hrequest] at hfits
    | finishing =>
      simp only [hstage] at hfits
      exact .inl ⟨rfl, hfits.1⟩
    | dropping started => simp [hstage] at hfits
    | returned result =>
      cases result with
      | ok started => simp [hstage] at hfits
      | error text =>
        simp only [hstage] at hfits
        exact .inr ⟨text, rfl, fun hstrict => by simpa using hfits hstrict⟩
  unfold resume
  simp only [hr, hd, decide_true, Bool.and_true]
  cases goesOn with
  | true =>
    refine hinv.next rfl (hothers _) ⟨rfl, rfl⟩ (p := .resumed)
      ⟨⟨hrec.stored, hrec.sent, hrec.listed⟩, hoff _, Function.update_self .., rfl, ⟨r, rfl, hid⟩,
        h3⟩ ?_
    rcases hstage with ⟨hstage, hcaller⟩ | ⟨text, hstage, hloose⟩
    · simp only [Fits, if_true, setQemu, hstage]
      exact ⟨hcaller, .inr (.inl trivial)⟩
    · simp only [Fits, if_true, setQemu, hstage]
      exact fun hstrict => absurd hstrict hloose
  | false =>
    refine hinv.next rfl (hothers _) ⟨rfl, rfl⟩ (p := .broken)
      ⟨⟨hrec.stored, hrec.sent, hrec.listed⟩, hoff _, Function.update_self .., rfl, h2, ?_⟩ ?_
    · simp
    · rcases hstage with ⟨hstage, hcaller⟩ | ⟨text, hstage, hloose⟩
      · simp [Fits, setQemu, setIncoming, hstage, hcaller]
        exact fun hstrict => absurd (hmindful hstrict) (by decide)
      · simp [Fits, setQemu, setIncoming, hstage, hloose]

theorem inv_settle (hinv : s.Inv strict) (hresuming : s.resuming = some r) :
    Inv strict (s.settle s.call.dest r) := by
  obtain ⟨p, hat, hfits⟩ := hinv.point
  have hp : p = .resumed := by
    cases p with
    | before => exact absurd hresuming (by simp [hat.2.2.2.2.1])
    | landed => exact absurd hresuming (by simp [hat.2.2.2.2.1])
    | resumed => rfl
    | settled => exact absurd hresuming (by simp [hat.2.2.2.2.1])
    | broken => exact absurd hresuming (by simp [hat.2.2.2.2.1])
  subst hp
  obtain ⟨hrec, hsrc, hd, h1, ⟨q, hq, hid⟩, -⟩ := hat
  obtain rfl := Option.some.inj (hq.symm.trans hresuming)
  have hmoved : Moved s.call.dest (runningOn q s.call.dest) := ⟨rfl, rfl⟩
  have hup := (hrec.mono (fun _ h => Or.inl h)).upsertVm (n := s.call.dest)
    (r := runningOn q s.call.dest) (P := fun r => Named s.call.src r ∨ Moved s.call.dest r) hid
    (.inr hmoved)
  refine hinv.next rfl (fun _ _ _ => rfl) ⟨rfl, rfl⟩ (p := .settled)
    ⟨⟨hup.stored, hup.sent, hup.listed⟩, hsrc, hd, h1, rfl, ⟨_, rfl, hid⟩, _, ?_, hmoved⟩ ?_
  · have hself := record_upsertVm (s := s) (n := s.call.dest) (r := runningOn q s.call.dest) hid
      s.call.dest
    exact hself.trans (if_pos rfl)
  · unfold Fits at hfits ⊢
    simp only [settle, upsertVm, setNode, setIncoming]
    cases hstage : s.stage with
    | listening => simp [hstage] at hfits
    | mirroring => simp [hstage] at hfits
    | migrating => simp [hstage] at hfits
    | finishing =>
      simp only [hstage] at hfits
      exact ⟨hfits.1, .inr (.inr (.inl trivial))⟩
    | dropping started => simp [hstage] at hfits
    | returned result =>
      cases result with
      | ok started => simp [hstage] at hfits
      | error text =>
        simp only [hstage] at hfits
        exact fun hstrict => by simpa using hfits hstrict

theorem inv_answerError (hinv : s.Inv strict) (hstage : s.stage = .finishing) {text : String}
    (hreply : s.reply = some (.error text)) :
    Inv strict { s with stage := .returned (.error text) } := by
  obtain ⟨p, hat, hfits⟩ := hinv.point
  refine hinv.next rfl (fun _ _ _ => rfl) ⟨rfl, rfl⟩ (At.stage hat _ _) (fun hstrict => ?_)
  simp only [Fits, hstage] at hfits
  obtain ⟨-, ⟨rfl, -⟩ | rfl | rfl | ⟨-, hloose⟩⟩ := hfits
  · exact absurd hreply (by simp [hat.2.2.2.2.2])
  · exact absurd hreply (by simp [hat.2.2.2.2.2])
  · obtain ⟨q, hq, -⟩ := hat.2.2.2.2.2.1
    exact absurd hreply (by simp [hq])
  · exact absurd hstrict hloose

theorem inv_answerOk (hinv : s.Inv strict) (hstage : s.stage = .finishing)
    (hreply : s.reply = some (.ok r)) : Inv strict { s with stage := .dropping r } := by
  obtain ⟨p, hat, hfits⟩ := hinv.point
  have hat' := At.stage hat (.dropping r) s.moving
  simp only [Fits, hstage] at hfits
  obtain ⟨hcaller, ⟨rfl, -⟩ | rfl | rfl | ⟨rfl, -⟩⟩ := hfits
  · exact absurd hreply (by simp [hat.2.2.2.2.2])
  · exact absurd hreply (by simp [hat.2.2.2.2.2])
  · obtain ⟨q, hq, hid⟩ := hat.2.2.2.2.2.1
    obtain rfl : q = r := by simpa [hq] using hreply
    exact hinv.next rfl (fun _ _ _ => rfl) ⟨rfl, rfl⟩ hat' ⟨hcaller, rfl, hid⟩
  · exact absurd hreply (hat.2.2.2.2.2 r)

/-- When nothing comes back, the records tell that the guest has moved. -/
theorem inv_giveUp (hinv : s.Inv strict) {text : String}
    (hmindful : strict → ∀ n, (s.record n).bind VmRecord.nodeId = some s.call.dest) :
    Inv strict { s with stage := .returned (.error text) } := by
  obtain ⟨p, hat, -⟩ := hinv.point
  have hat' := At.stage hat (.returned (.error text)) s.moving
  refine hinv.next rfl (fun _ _ _ => rfl) ⟨rfl, rfl⟩ hat' (fun hstrict => .inr ?_)
  have hnames := hmindful hstrict
  have hno : ¬ s.Records (Named s.call.src) := by
    intro hrec
    obtain ⟨q, hq, hname⟩ := hrec.stored s.call.dest
    have hdest := hnames s.call.dest
    rw [hq] at hdest
    exact hinv.apart (Option.some.inj (hdest.symm.trans hname))
  cases p with
  | before => exact absurd hat.1 hno
  | landed => exact absurd hat.1 hno
  | resumed => exact absurd hat.1 hno
  | broken => exact absurd hat.1 hno
  | settled =>
    refine ⟨rfl, fun n => ?_⟩
    obtain ⟨q, hq, hsrc | hmoved⟩ := hat.1.stored n
    · have hdest := hnames n
      rw [hq] at hdest
      exact absurd (Option.some.inj (hdest.symm.trans hsrc)) hinv.apart
    · exact ⟨q, hq, hmoved⟩

theorem inv_drop (hinv : s.Inv strict) (hstage : s.stage = .dropping r) :
    Inv strict (s.setQemu s.call.src none) := by
  obtain ⟨p, hat, hfits⟩ := hinv.point
  simp only [Fits, hstage] at hfits
  obtain ⟨hcaller, rfl, hid⟩ := hfits
  obtain ⟨hrec, -, hd, hrest⟩ := hat
  refine hinv.next rfl (fun n hs _ => Function.update_of_ne hs ..) ⟨rfl, rfl⟩ (p := .settled)
    ⟨⟨hrec.stored, hrec.sent, hrec.listed⟩, ?_, ?_, hrest⟩ ?_
  · simp [isRunning, setQemu]
  · exact (Function.update_of_ne hinv.apart ..).trans hd
  · simp only [Fits, setQemu, hstage]
    exact ⟨hcaller, trivial, hid⟩

theorem inv_finish (hinv : s.Inv strict) {started : VmRecord}
    (hstage : s.stage = .dropping started) :
    let record := { started with nodeId := some s.call.dest, state := .running }
    Inv strict { s.upsertVm s.call.caller record with stage := .returned (.ok record) } := by
  intro record
  obtain ⟨p, hat, hfits⟩ := hinv.point
  simp only [Fits, hstage] at hfits
  obtain ⟨hcaller, rfl, hid⟩ := hfits
  obtain ⟨hrec, hsrc, hd, h1, h2, hreply, q, hq, hmoved⟩ := hat
  have hnew : Moved s.call.dest record := ⟨rfl, rfl⟩
  have hrecord := record_upsertVm (s := s) (n := s.call.caller) (r := record) hid
  have hup := hrec.upsertVm (n := s.call.caller) (r := record) hid (.inr hnew)
  refine hinv.next rfl (fun _ _ _ => rfl) ⟨rfl, rfl⟩ (p := .settled)
    ⟨⟨hup.stored, hup.sent, hup.listed⟩, hsrc, hd, h1, h2, hreply, ?_⟩ ⟨rfl, record, ?_, hnew⟩
  · by_cases hm : s.call.dest = s.call.caller
    · exact ⟨record, (hrecord _).trans (if_pos hm), hnew⟩
    · exact ⟨q, ((hrecord _).trans (if_neg hm)).trans hq, hmoved⟩
  · exact (hrecord _).trans (if_pos hcaller.symm)

theorem step_inv (hinv : s.Inv strict) {a : LiveAction} (hcareful : s.Careful a)
    (hmindful : strict → s.Mindful a) (h : s.step a = some t) : t.Inv strict := by
  unfold step at h
  cases a with
  | advance ms =>
    cases h
    exact (aside_of_records (fun _ h => h)).inv hinv
  | listen =>
    dsimp only at h
    split at h <;> cases h
    exact inv_listen hinv ‹_›
  | listenLost text =>
    dsimp only at h
    split at h <;> cases h
    exact inv_listenLost hinv ‹_› text
  | fail text heard =>
    dsimp only at h
    split at h
    · cases h
      exact inv_failUnheard hinv (.inl ‹_›) hmindful s.moving
    · cases h
      cases heard with
      | true => simpa using inv_failHeard hinv (.inl ‹_›) hmindful
      | false => exact inv_failUnheard hinv (.inr (.inl ‹_›)) hmindful _
    · cases h
      cases heard with
      | true => simpa using inv_failHeard hinv (.inr ‹_›) hmindful
      | false => exact inv_failUnheard hinv (.inr (.inr ‹_›)) hmindful _
    · cases h
  | migrate =>
    dsimp only at h
    split at h
    · split at h <;> cases h
      exact inv_migrate hinv ‹_› ‹_›
    · cases h
  | land =>
    dsimp only at h
    split at h <;> cases h
    rename_i hland
    simp only [Bool.and_eq_true, decide_eq_true_eq] at hland
    exact inv_land hinv hland.1.1 hland.1.2 hland.2 hmindful
  | migrated =>
    dsimp only at h
    split at h
    · split at h <;> cases h
      exact inv_migrated hinv ‹_› ‹_›
    · cases h
  | resume goesOn =>
    dsimp only at h
    split at h <;> cases h
    exact inv_resume hinv ‹_› hmindful
  | settle =>
    obtain ⟨q, hq, rfl⟩ := Option.map_eq_some_iff.mp h
    exact inv_settle hinv hq
  | answer =>
    dsimp only at h
    split at h <;> cases h
    · exact inv_answerError hinv ‹_› ‹_›
    · exact inv_answerOk hinv ‹_› ‹_›
  | giveUp text =>
    dsimp only at h
    split at h <;> cases h
    exact inv_giveUp hinv hmindful
  | drop =>
    dsimp only at h
    split at h <;> cases h
    exact inv_drop hinv ‹_›
  | finish =>
    dsimp only at h
    split at h <;> cases h
    exact inv_finish hinv ‹_›
  | push n m =>
    cases h
    exact (push_aside n m).inv hinv
  | deliver i =>
    dsimp only at h
    split at h <;> cases h
    rename_i m snap hget
    exact (deliver_aside hinv hget (hcareful m snap hget)).inv hinv
  | lose i =>
    cases h
    exact (lose_aside i).inv hinv
  | exitWatch n =>
    dsimp only at h
    split at h <;> cases h
    rename_i hoff
    exact (onGuestExited_aside hinv (by simpa using hoff)).inv hinv
  | list n =>
    cases h
    exact (list_aside n).inv hinv
  | reconcile n =>
    obtain ⟨vm, hvm, rfl⟩ := Option.map_eq_some_iff.mp h
    exact (reconcile_aside hinv (hcareful vm hvm)).inv hinv
  | autostart n =>
    cases h
    exact (autostart_aside hcareful).inv hinv

theorem Start.inv (h : s.Start) : s.Inv strict where
  apart := h.apart
  others n hsrc _ := by rw [h.running, if_neg hsrc]
  quiet := h.quiet
  point := by
    obtain ⟨hmoving, hrequest, hresuming, hreply⟩ := h.idle
    have hdest : s.qemu s.call.dest = none := by rw [h.running, if_neg h.apart]
    have hsrc : s.qemu s.call.src = some .running := by rw [h.running, if_pos rfl]
    refine ⟨.before, ⟨⟨fun n => ⟨_, h.stored n, h.named⟩, ?_, ?_⟩, hsrc, .inl hdest, hrequest,
      hresuming, hreply⟩, ?_⟩
    · rw [h.silent.1]
      exact fun p hp => absurd hp List.not_mem_nil
    · intro n r hr
      rw [h.silent.2] at hr
      cases hr
    · rw [Fits, h.stage]
      exact ⟨rfl, hdest, hmoving⟩

theorem run_inv {actions : List LiveAction} {ok : Live → LiveAction → Prop}
    (hok : ∀ s a, ok s a → s.Careful a ∧ (strict → s.Mindful a))
    (r : Run (Guarded ok (Steps step)) s actions t) (h0 : s.Start) : t.Inv strict :=
  r.invariant (I := Inv strict)
    (fun _ _ _ hs h => step_inv hs (hok _ _ h.1).1 (hok _ _ h.1).2 h.2) h0.inv

/-- A guest of node 1 that is to move to node 2. -/
def webVm : VmRecord :=
  { id := .numeric 100, spec := { name := "web" }, state := .running, nodeId := some 1 }

def pair : Live where
  call := ⟨1, webVm, 1, 2⟩
  now := 0
  node n := (Node.fresh n).replaceAll [webVm]
  qemu n := if n = 1 then some .running else none
  incoming _ := none
  stage := .listening
  moving := false
  request := false
  resuming := none
  reply := none
  listed _ := none
  restoreOnBoot _ := false
  autostarted _ := false
  net := []
  destroyed := false
  restarted := false

theorem pair_start : pair.Start where
  apart := by decide
  named := rfl
  stored _ := rfl
  running _ := rfl
  stage := rfl
  idle := ⟨rfl, rfl, rfl, rfl⟩
  silent := ⟨rfl, fun _ => rfl⟩
  quiet := ⟨rfl, rfl⟩

/-- A step of the call itself. -/
def Foreground (_ : Live) : LiveAction → Prop
  | .reconcile _ | .autostart _ | .deliver _ => False
  | _ => True

instance (s : Live) (a : LiveAction) : Decidable (s.Foreground a) := by
  unfold Foreground
  split <;> infer_instance

theorem Foreground.careful {a : LiveAction} (h : s.Foreground a) : s.Careful a := by
  cases a <;> trivial

def moveOn : List LiveAction :=
  [.listen, .migrate, .land, .migrated, .resume true, .settle, .answer, .drop, .finish]

/-- The destination's reconcile pass has read the guest's record before it went on there. -/
def staleReconcile : List LiveAction :=
  [.listen, .migrate, .land, .migrated, .resume true, .list 2, .settle, .reconcile 2, .answer,
    .drop, .finish]

/-- A guest that runs, or whose state and disks are all there for it to go on. -/
def usable (s : Live) (n : NodeId) : Bool := s.qemu n == some .running || s.qemu n == some .paused

/-- The state has landed, but the source's QEMU does not answer when it is asked how far it is. -/
def lateFailure : List LiveAction :=
  [.listen, .migrate, .land, .fail "live migration failed; guest is still on the source" true]

end Live

end Pertisk.Migrate
