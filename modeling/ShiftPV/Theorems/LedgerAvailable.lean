import ShiftPV.PoolAdmission
import ShiftPV.Theorems.LedgerConservation
import ShiftPV.Theorems.LockHeld

/-! The ledger fails when an object it reads contradicts another one, and one such object fails it for every Pool. The
    exception is the end of a Move, which gives the lock back in one write and settles the hold in the next. -/

namespace ShiftPV
open Check

variable {w w' : World} {act : WorldAct} {name : String} {m n : Move} {v x : State} {s t : Store} {op : Op} {volumeID : String}

/-! ### The Volume -/

structure AccountKept (v x : State) : Prop where
  bytes : x.capacityBytes = v.capacityBytes
  unstarted : x.phase = .unset → v.phase = .unset ∧ (v.unstartedCreation → x.unstartedCreation)
  ending : v.deleting → v.phase = .unset ∨ v.phase = .deleting → x.phase = .unset ∨ x.phase = .deleting

theorem AccountKept.same (hbytes : x.capacityBytes = v.capacityBytes) (hphase : x.phase = v.phase)
    (hunstarted : v.unstartedCreation → x.unstartedCreation) : AccountKept v x where
  bytes := hbytes
  unstarted h := ⟨hphase ▸ h, hunstarted⟩
  ending _ h := hphase ▸ h

theorem AccountKept.refl (v : State) : AccountKept v v := .same rfl rfl id

theorem AccountKept.advance (hbytes : x.capacityBytes = v.capacityBytes) (hset : x.phase ≠ .unset)
    (hlive : v.deleting → v.phase ≠ .unset ∧ v.phase ≠ .deleting) : AccountKept v x where
  bytes := hbytes
  unstarted h := absurd h hset
  ending hdeleting h := by
    obtain ⟨hstarted, hopen⟩ := hlive hdeleting
    exact absurd h (not_or.mpr ⟨hstarted, hopen⟩)

theorem not_unstarted_of_copy {copy : CopyIdentity} (h : v.currentCopy = some copy) : v.unstartedCreation = false := by
  simp [State.unstartedCreation, h]

theorem applyMobilityWrite_account {write : MobilityWrite} {o : State} (h : applyMobilityWrite write m o v = .ok x) :
    AccountKept v x ∧ x.deleting = v.deleting := by
  have hkept : ∀ {phase active}, OwnerKept o v x phase active → o.phase.Mobile → phase.Mobile →
      AccountKept v x ∧ x.deleting = v.deleting := by
    intro phase active kept hbefore hafter
    rw [kept.samePhase] at hbefore
    rw [kept.record]
    exact ⟨.advance rfl hafter.ne_unset fun _ => ⟨hbefore.ne_unset, hbefore.ne_deleting⟩, rfl⟩
  cases applyMobilityWrite_inv h with
  | claim kept free ready source => exact hkept kept.toOwnerKept (.inl ready) (.inl rfl)
  | hold kept lock before after | release kept lock before after => exact hkept kept before after
  | commit committed =>
    rw [committed.record]
    exact ⟨.advance rfl (by simp [committedState]) (by simp [committed.moving]), rfl⟩

theorem applyVolumeWrite_account {write : VolumeWrite} (h : applyVolumeWrite volumeID write v = .ok x) :
    AccountKept v x ∧ (x.deleting = v.deleting ∨ write = .requestDeletion) := by
  cases write with
  | bindInitialPool expected pool =>
    obtain ⟨-, rfl⟩ := bindInitialPool_inv h
    exact ⟨.same rfl rfl id, .inl rfl⟩
  | recordCreationIntent installationID observed =>
    rcases completeInitialization_inv h with ⟨-, rfl⟩ | ⟨hinit, pool, copy, -, -, -, -, rfl⟩
    · exact ⟨.refl _, .inl rfl⟩
    · simp only [State.initializing, Bool.and_eq_true, Bool.not_eq_true'] at hinit
      exact ⟨.advance rfl (by simp) (by simp [hinit.1]), .inl rfl⟩
  | bindCreation expected executor =>
    obtain ⟨hphase, -, -, rfl⟩ := bindCreation_inv h
    refine ⟨.advance rfl (by simp) fun _ => ?_, .inl rfl⟩
    rcases hphase with hp | hp <;> simp [hp]
  | recordCreationReceipt expected receipt =>
    obtain ⟨hphase, -, rfl | ⟨-, rfl⟩⟩ := recordCreationReceipt_inv h
    · exact ⟨.refl _, .inl rfl⟩
    · exact ⟨.advance rfl (by simp [hphase]) (by simp [hphase]), .inl rfl⟩
  | completeCreate uid copy =>
    obtain ⟨-, ⟨-, rfl⟩ | ⟨hphase, rfl⟩⟩ := completeCreate_inv h
    · exact ⟨.refl _, .inl rfl⟩
    · refine ⟨.advance rfl (by simp) fun _ => ?_, .inl rfl⟩
      rcases hphase with hp | hp <;> simp [hp]
  | beginPublish nodeName copy =>
    obtain ⟨hphase, -, -, rfl⟩ := beginPublish_inv h
    exact ⟨.advance rfl (by simp [hphase]) (by simp [hphase]), .inl rfl⟩
  | reconcilePublished nodeName copy published =>
    obtain ⟨-, hcopy, -, rfl⟩ := reconcilePublished_inv h
    exact ⟨.same rfl rfl fun hunstarted => by simp [not_unstarted_of_copy hcopy] at hunstarted, .inl rfl⟩
  | beginDelete uid copy =>
    obtain ⟨-, -, -, -, ⟨hphase, -, rfl⟩ | ⟨-, -, rfl⟩⟩ := beginDelete_inv h
    · exact ⟨.advance rfl (by simp) (by simp [hphase]), .inl rfl⟩
    · exact ⟨.refl _, .inl rfl⟩
  | beginCreationCancellation uid copy =>
    obtain ⟨-, -, -, ⟨-, rfl⟩ | ⟨hphase, -, -, rfl⟩⟩ := beginCreationCancellation_inv h
    · exact ⟨.refl _, .inl rfl⟩
    · refine ⟨.advance rfl (by simp) fun _ => ?_, .inl rfl⟩
      rcases hphase with hp | hp <;> simp [hp]
  | mobility write move observed =>
    obtain ⟨haccount, hdeleting⟩ := applyMobilityWrite_account h
    exact ⟨haccount, .inl hdeleting⟩
  | requestDeletion =>
    obtain rfl := pure_ok.mp h
    exact ⟨.same rfl rfl id, .inr rfl⟩

inductive VolumeChange (w : World) (act : WorldAct) (v x : State) : Prop where
  | kept (same : x = v)
  | external (write : VolumeWrite) (act : act = .external (.volume write)) (plain : ∀ k m o, write ≠ .mobility k m o)
      (accepted : applyVolumeWrite w.store.volumeID write v = .ok x)
  | cleanup (fenced : v.phase = .deleting) (record : x = { v with hasCleanup := true })
  | mobility (name : String) (p : Move) (observed : Observed) (d : Decision) (fresh : Option State) (o : State)
      (kind : MobilityWrite) (act : act = .write name) (pass : w.passes name = some ⟨p, .decided observed d fresh false⟩)
      (volume : observed.volume = some o) (action : d.action.volumeWrite = some kind)
      (accepted : applyMobilityWrite kind p o v = .ok x)

theorem WorldStep.volume_change (hs : WorldStep w act w') (hx : w'.store.volume = some x) :
    ∃ v, w.store.volume = some v ∧ VolumeChange w act v x := by
  have hmove : ∀ {name write t}, w.store.apply (.move name write) = .ok t → t.volume = some x →
      ∃ v, w.store.volume = some v ∧ VolumeChange w act v x := by
    intro name write t happly ht
    cases Store.apply_inv happly with
    | move current accepted => exact ⟨x, ht, .kept rfl⟩
  cases hs with
  | @external op t allowed applied =>
    cases Store.apply_inv applied with
    | @volume write v y current accepted =>
      obtain rfl : y = x := Option.some.inj hx
      refine ⟨v, current, .external write rfl ?_ accepted⟩
      rintro k m o rfl
      simp [Op.external] at allowed
    | @ensureCleanup spec v journal current deleting operation target accepted =>
      exact ⟨v, current, .cleanup deleting (Option.some.inj hx).symm⟩
    | move current accepted | create named identified absent unique | updateCleanup current accepted => exact ⟨x, hx, .kept rfl⟩
    | remove current removable => simp [World.record] at hx
  | @write name p stored observed d fresh o kind t pass volume action current settled applied =>
    obtain ⟨v, y, hv, hy, accepted⟩ := Store.apply_mobility applied
    obtain rfl : y = x := Option.some.inj (hy.symm.trans hx)
    exact ⟨v, hv, .mobility name p observed d fresh o kind rfl pass volume action accepted⟩
  | announce idle stored fresh applied | evidence pass action recorded applied stored | journal pass owed applied
  | finish pass complete current settled changed applied | diagnose pass executing applied => exact hmove applied hx
  | _ => exact ⟨x, hx, .kept rfl⟩

/-! ### The Move -/

/-- The checks every status write makes on the status it stores. -/
structure Registered (m : Move) : Prop where
  protocol : m.spec.protocolVersion = moveProtocolPreparedV1
  preparation : validateMovePreparation m = .ok ()
  plan : m.status.sourceCopy.isSome → validatePreparedPlan m = .ok ()

theorem registered_createMove {uid sourceNode : String} : Registered (createMove name uid volumeID sourceNode) :=
  ⟨rfl, rfl, by simp [createMove, MoveStatus.empty]⟩

theorem Registered.setJournal (h : Registered m) (hsound : MoveSound m) {journal : Journal}
    (hplanned : m.cleanup = none → m.status.destinationCopy.isSome) : Registered (m.setJournal journal) := by
  refine ⟨h.protocol, ?_, h.plan⟩
  cases hp : m.status.preparation with
  | none => simp [validateMovePreparation, Move.setJournal, hp]
  | some hold =>
    have hintent := (hsound.prepared hold hp).noIntent
    simp only [Move.hasDestinationIntent, Bool.or_eq_false_iff, Option.isSome_eq_false_iff, Option.isNone_iff_eq_none, ne_eq,
      decide_not, Bool.not_eq_false', decide_eq_true_eq] at hintent
    cases hcleanup : m.cleanup with
    | none => simp_all
    | some before =>
      have hphase := hintent.1.2
      rw [Move.cleanupPhase, hcleanup] at hphase
      exact absurd hphase (hsound.journal before hcleanup)

theorem applyMoveWrite_registered {write : MoveWrite} (h : Registered m) (hsound : MoveSound m)
    (hw : applyMoveWrite write m = .ok n) : Registered n := by
  rw [applyMoveWrite, seq_ok] at hw
  obtain ⟨-, hw⟩ := hw
  cases write with
  | status expected next =>
    simp only [storeMove, compareAndSetMoveStatus, seq_ok, require_ok, pure_ok] at hw
    obtain ⟨-, -, -, -, -, -, htransition, rfl⟩ := hw
    simp only [validatePreparedTransition, seq_ok, whenever_ok] at htransition
    obtain ⟨-, -, -, hpreparation, hplan, -⟩ := htransition
    exact ⟨h.protocol, hpreparation, fun hsome => hplan (.inl hsome)⟩
  | recordSourceUsage expected copy bytes state =>
    obtain ⟨-, -, -, -, rfl | rfl⟩ := recordSourceUsage_inv hw
    · exact h
    · exact ⟨h.protocol, h.preparation, h.plan⟩
  | ensureCleanup spec =>
    simp only [storeMove, Move.ensureCleanup, require_ok, bind_ok, pure_ok] at hw
    obtain ⟨-, hplanned, journal, -, rfl⟩ := hw
    exact h.setJournal hsound fun _ => hplanned
  | updateCleanup expected next =>
    simp only [storeMove, Move.updateCleanup, bind_ok, pure_ok] at hw
    obtain ⟨journal, hjournal, rfl⟩ := hw
    obtain ⟨-, before, hbefore⟩ := CleanupParent.updateStatus_inv hjournal
    have hcleanup : m.cleanup = some before := hbefore
    exact h.setJournal hsound (by simp [hcleanup])
  | setRecovery recovery | requestDeletion =>
    obtain rfl := pure_ok.mp hw
    exact ⟨h.protocol, h.preparation, h.plan⟩

/-- What a new Move satisfies and every accepted Move write keeps, every stored Move satisfies. -/
theorem WorldRun.write_invariant {I : Move → Prop} {l : List World}
    (hcreate : ∀ name uid volumeID sourceNode, I (createMove name uid volumeID sourceNode))
    (hwrite : ∀ {m n write}, MoveSound m → I m → applyMoveWrite write m = .ok n → I n) (hr : WorldRun l) :
    ∀ w ∈ l, ∀ name m, w.store.moves.find name = some m → I m := by
  refine WorldRun.step_invariant hcreate (fun {w w' act name m n} hsound hstep hm hn hbefore => ?_) hr
  cases hsound.store_change hstep with
  | same store past =>
    rw [store, hm] at hn
    exact Option.some.inj hn ▸ hbefore
  | write op step past own =>
    rcases Store.move_cases (staleStep_cons.mp step).2 hm with hsame | ⟨write, k, -, haccepted, hk⟩
    · exact Option.some.inj (hsame.symm.trans hn) ▸ hbefore
    · obtain rfl : k = n := Option.some.inj (hk.symm.trans hn)
      exact hwrite (hsound.coherent.bound name m hm).sound hbefore haccepted

theorem WorldRun.registered {l : List World} (hr : WorldRun l) :
    ∀ w ∈ l, ∀ name m, w.store.moves.find name = some m → Registered m :=
  WorldRun.write_invariant (fun _ _ _ _ => registered_createMove)
    (fun hsound hbefore haccepted => applyMoveWrite_registered hbefore hsound haccepted) hr

theorem WorldRun.succeeded_clean {l : List World} (hr : WorldRun l) :
    ∀ w ∈ l, ∀ name m, w.store.moves.find name = some m → m.status.phase = .succeeded → m.cleanupPhase = .completed := by
  refine WorldRun.move_invariant (I := fun m => m.status.phase = .succeeded → m.cleanupPhase = .completed) ?_ ?_ hr
  · intro name uid volumeID sourceNode h
    simp [createMove, MoveStatus.empty] at h
  intro w name m n hw hm ih hstep hchange hphase
  have hkept : m.status.phase = .succeeded → n.cleanupPhase = .completed := fun h => cleanupPhase_completed hstep (ih h)
  cases hchange with
  | kept same => exact hkept (same ▸ hphase)
  | announced fresh status => simp [status] at hphase
  | diagnosed executing status => exact hkept (by rwa [status] at hphase)
  | evidence pass same action recorded accepted => exact hkept (recorded.phase accepted same ▸ hphase)
  | @finished p observed d fresh wrote plan pass same complete settled status =>
    rw [status, finishedStatus_phase] at hphase
    have table : ∀ phase : MovePhase, ∀ y ∈ outcomes phase, y.2 = .succeeded → y.1 = .markSucceeded ∨ phase = .succeeded := by
      intro phase
      cases phase <;> decide
    rcases table _ _ (hw.decided pass).listed hphase with haction | hbefore
    · refine cleanupPhase_completed hstep ?_
      have haction : d.action = .markSucceeded := haction
      rw [haction, Action.cleanupSettled, require_ok] at settled
      unfold cleanupCompleted at settled
      split at settled
      · rename_i journal _ hcleanup
        simp only [Bool.and_eq_true, decide_eq_true_eq] at settled
        rw [Move.cleanupPhase, hcleanup]
        exact settled.2
      · simp at settled
    · refine hkept ?_
      rw [same]
      exact normalized_phase hbefore (by decide)

/-! ### Worlds -/

/-- No Volume object is deleted by hand: its deletion is requested behind the deletion fence, or before it started. -/
def unedited (w : World) : WorldAct → Bool
  | .external (.volume .requestDeletion) => w.store.volume.all fun v => v.unstartedCreation || v.phase = .deleting
  | _ => true

structure Accounted (w : World) : Prop where
  positive : ∀ v, SeenVolume w.history v → 0 < v.capacityBytes
  constant : ∀ v x, SeenVolume w.history v → SeenVolume w.history x → v.capacityBytes = x.capacityBytes
  unstarted : ∀ v, w.store.volume = some v → v.phase = .unset → v.unstartedCreation
  reserved : ∀ name m hold, w.store.moves.find name = some m → m.status.preparation = some hold →
    ∀ v, SeenVolume w.history v → v.capacityBytes = hold.reservedBytes

theorem WorldStep.account (hs : WorldStep w act w') (hx : w'.store.volume = some x) :
    ∃ v, w.store.volume = some v ∧ AccountKept v x ∧
      (x.deleting = v.deleting ∨ act = .external (.volume .requestDeletion)) := by
  obtain ⟨v, hv, hchange⟩ := hs.volume_change hx
  refine ⟨v, hv, ?_⟩
  cases hchange with
  | kept same =>
    subst same
    exact ⟨.refl _, .inl rfl⟩
  | external write hact plain accepted =>
    obtain ⟨haccount, hsame | rfl⟩ := applyVolumeWrite_account accepted
    · exact ⟨haccount, .inl hsame⟩
    · exact ⟨haccount, .inr hact⟩
  | cleanup fenced record =>
    subst record
    exact ⟨.same rfl rfl fun hunstarted => by simp [State.unstartedCreation, fenced] at hunstarted, .inl rfl⟩
  | mobility name p observed d fresh o kind hact pass volume action accepted =>
    obtain ⟨haccount, hdeleting⟩ := applyMobilityWrite_account accepted
    exact ⟨haccount, .inl hdeleting⟩

theorem StoreChange.seen (h : StoreChange w w') (hx : SeenVolume w'.history x) :
    SeenVolume w.history x ∨ w'.store.volume = some x := by
  cases h with
  | same store past =>
    rw [World.history, store, past] at hx
    exact .inl hx
  | write op step past own =>
    rw [World.history, past, seenVolume_cons] at hx
    exact hx.symm

/-- Only evidence of its own pass gives a Move a preparation or an approval. -/
theorem WorldStep.hold_change (hs : WorldStep w act w') (hw : WorldSound w) (hm : w.store.moves.find name = some m)
    (hn : w'.store.moves.find name = some n) :
    (∀ hold, n.status.preparation = some hold → m.status.preparation = some hold) ∧
        n.status.capacityApproved = m.status.capacityApproved ∨
      ∃ evidence p observed d fresh wrote write, act = .evidence name evidence ∧
        w.passes name = some ⟨p, .decided observed d fresh wrote⟩ ∧ m.status = p.status ∧
        EvidenceWrite p observed.volume fresh evidence write ∧ applyMoveWrite write m = .ok n := by
  have hsame : n.status = m.status → (∀ hold, n.status.preparation = some hold → m.status.preparation = some hold) ∧
      n.status.capacityApproved = m.status.capacityApproved := fun h => ⟨fun hold => h ▸ id, by rw [h]⟩
  have hstay : w'.store.moves = w.store.moves → n.status = m.status := by
    intro hmoves
    rw [hmoves, hm] at hn
    rw [Option.some.inj hn]
  -- a write reaches the Move only under its name
  have hwrite : ∀ {other write t}, w.store.apply (.move other write) = .ok t → t.moves.find name = some n →
      n = m ∨ other = name ∧ applyMoveWrite write m = .ok n := by
    intro other write t happly hfind
    rcases Store.move_cases happly hm with hkept | ⟨write', k, hop, haccepted, hk⟩
    · exact .inl (Option.some.inj (hfind.symm.trans hkept))
    · obtain ⟨rfl, rfl⟩ := Op.move.inj hop
      obtain rfl : k = n := Option.some.inj (hk.symm.trans hfind)
      exact .inr ⟨rfl, haccepted⟩
  have hpass : ∀ {p stage}, w.passes name = some ⟨p, stage⟩ → m.status = p.status := by
    intro p stage hp
    obtain ⟨k, hk, hstatus⟩ := (hw.passes name _ hp).stored
    exact Option.some.inj (hm.symm.trans hk) ▸ hstatus
  cases hs with
  | @external op t allowed applied =>
    rcases Store.move_cases applied hm with hkept | ⟨write, k, rfl, haccepted, hk⟩
    · exact .inl (hsame (by rw [Option.some.inj (hkept.symm.trans hn)]))
    · obtain rfl : k = n := Option.some.inj (hk.symm.trans hn)
      exact .inl (hsame (applyMoveWrite_keepsStatus haccepted (Op.keepsStatus_of_external allowed)))
  | @announce other k t idle stored fresh applied =>
    rcases hwrite applied hn with rfl | ⟨rfl, haccepted⟩
    · exact .inl (hsame rfl)
    · obtain rfl : m = k := Option.some.inj (hm.symm.trans stored)
      rw [(applyMoveWrite_status haccepted).1]
      exact .inl ⟨fun _ => id, rfl⟩
  | write pass volume action current settled applied =>
    rcases Store.move_cases applied hm with hkept | ⟨write, k, hop, -⟩
    · exact .inl (hsame (by rw [Option.some.inj (hkept.symm.trans hn)]))
    · simp at hop
  | evidence pass action recorded applied stored =>
    rcases hwrite applied hn with rfl | ⟨rfl, haccepted⟩
    · exact .inl (hsame rfl)
    · exact .inr ⟨_, _, _, _, _, _, _, rfl, pass, hpass pass, Evidence.write_inv recorded, haccepted⟩
  | journal pass owed applied =>
    rcases hwrite applied hn with rfl | ⟨rfl, haccepted⟩
    · exact .inl (hsame rfl)
    · exact .inl (hsame (applyMoveWrite_keepsStatus haccepted rfl))
  | @finish other plan p stored observed d fresh wrote t pass complete current settled changed applied =>
    rcases hwrite applied hn with rfl | ⟨rfl, haccepted⟩
    · exact .inl (hsame rfl)
    · rw [(applyMoveWrite_status haccepted).1, finishedStatus_capacityApproved, hpass pass]
      refine .inl ⟨fun hold hprepared => ?_, rfl⟩
      obtain ⟨reason, heq⟩ := finishedStatus_eq p observed d plan
      rw [heq] at hprepared
      cases ha : d.action <;> simp_all [Action.stage]
  | diagnose pass executing applied =>
    rcases hwrite applied hn with rfl | ⟨rfl, haccepted⟩
    · exact .inl (hsame rfl)
    · rw [(applyMoveWrite_status haccepted).1, hpass pass]
      exact .inl ⟨fun _ => id, rfl⟩
  | _ => exact .inl (hsame (hstay rfl))

theorem WorldStep.preparation {hold : MovePreparation} (hs : WorldStep w act w') (hw : WorldSound w)
    (hm : w.store.moves.find name = some m) (hn : w'.store.moves.find name = some n)
    (hhold : n.status.preparation = some hold) :
    m.status.preparation = some hold ∨ ∃ pool nodeName podUID v, act = .evidence name (.grant pool nodeName podUID) ∧
      SeenVolume w.history v ∧ hold = { pool, nodeName, reservedBytes := v.capacityBytes } := by
  rcases hs.hold_change hw hm hn with ⟨hkept, -⟩ | ⟨evidence, p, observed, d, fresh, wrote, write, rfl, pass, hsame, hwrite, haccepted⟩
  · exact .inl (hkept hold hhold)
  · rcases (hwrite.kept hsame haccepted).1 hold hhold with hbefore | ⟨pool, nodeName, podUID, rfl⟩
    · exact .inl hbefore
    · cases hwrite with
      | @grant _ _ _ v status read granted =>
        obtain ⟨-, -, -, -, -, rfl⟩ := grantPreparation_inv granted
        rw [(applyMoveWrite_status haccepted).1] at hhold
        exact .inr ⟨pool, nodeName, podUID, v, rfl, (hw.decided pass).reread v read, (Option.some.inj hhold).symm⟩

theorem WorldStep.approval (hs : WorldStep w act w') (hw : WorldSound w) (hm : w.store.moves.find name = some m)
    (hn : w'.store.moves.find name = some n) (hbefore : m.status.capacityApproved = false) (hafter : n.status.capacityApproved) :
    act = .evidence name .convert ∧ ∃ p stage v, w.passes name = some ⟨p, stage⟩ ∧ m.status = p.status ∧
      convertPreparation p v = .ok n.status := by
  rcases hs.hold_change hw hm hn with ⟨-, hkept⟩ | ⟨evidence, p, observed, d, fresh, wrote, write, rfl, pass, hsame, hwrite, haccepted⟩
  · simp [hkept, hbefore] at hafter
  · rcases (hwrite.kept hsame haccepted).2 hafter with happroved | rfl
    · simp [hbefore] at happroved
    · cases hwrite with
      | convert read converted =>
        exact ⟨rfl, p, _, _, pass, hsame, by rw [(applyMoveWrite_status haccepted).1, converted]⟩

theorem Accounted.step (h : Accounted w) (hw : WorldSound w) (hs : WorldStep w act w') : Accounted w' := by
  have hchange := hw.store_change hs
  -- a Volume seen later has the capacity of one seen before
  have horigin : ∀ x, SeenVolume w'.history x → ∃ v, SeenVolume w.history v ∧ x.capacityBytes = v.capacityBytes := by
    intro x hx
    rcases hchange.seen hx with hold | hnew
    · exact ⟨x, hold, rfl⟩
    · obtain ⟨v, hv, haccount, -⟩ := hs.account hnew
      exact ⟨v, .head hv, haccount.bytes⟩
  refine ⟨?_, ?_, ?_, ?_⟩
  · intro x hx
    obtain ⟨v, hv, hbytes⟩ := horigin x hx
    exact hbytes ▸ h.positive v hv
  · intro x y hx hy
    obtain ⟨v, hv, hxv⟩ := horigin x hx
    obtain ⟨u, hu, hyu⟩ := horigin y hy
    rw [hxv, hyu, h.constant v u hv hu]
  · intro x hx hphase
    obtain ⟨v, hv, haccount, -⟩ := hs.account hx
    obtain ⟨hunset, hunstarted⟩ := haccount.unstarted hphase
    exact hunstarted (h.unstarted v hv hunset)
  · intro name n hold hn hprepared x hx
    obtain ⟨v, hv, hbytes⟩ := horigin x hx
    rw [hbytes]
    rcases hw.move_origin hs hn with ⟨m, hm, -, -⟩ | ⟨-, uid, node, rfl, -⟩
    · rcases hs.preparation hw hm hn hprepared with hbefore | ⟨pool, nodeName, podUID, u, -, hu, rfl⟩
      · exact h.reserved name m hold hm hbefore v hv
      · exact h.constant v u hv hu
    · simp [createMove, MoveStatus.empty] at hprepared

theorem accounted_initial (h : w.Initial) : Accounted w := by
  obtain ⟨⟨v, hv, hstart, -, hmoves⟩, hpast, -⟩ := h
  have hseen : ∀ x, SeenVolume w.history x → x = v := by
    intro x hx
    rw [World.history, hpast] at hx
    obtain ⟨u, hu, hux⟩ := hx
    rw [List.mem_singleton] at hu
    subst hu
    exact Option.some.inj (hux.symm.trans hv)
  have hbytes : 0 < v.capacityBytes := by
    simp only [State.unstartedCreation, Bool.and_eq_true, decide_eq_true_eq, and_assoc] at hstart
    exact hstart.2.2.2.1
  refine ⟨?_, ?_, ?_, ?_⟩
  · intro x hx
    exact hseen x hx ▸ hbytes
  · intro x y hx hy
    rw [hseen x hx, hseen y hy]
  · intro x hx _
    exact Option.some.inj (hv.symm.trans hx) ▸ hstart
  · intro name m hold hm
    simp [Table.find, hmoves] at hm

theorem WorldRun.accounted {l : List World} (hr : WorldRun l) : ∀ w ∈ l, Accounted w := by
  refine Run.forall_mem (I := Accounted) (fun w hinit => accounted_initial hinit) ?_ hr
  intro w w' past act hrun ih hs
  exact (ih w (by simp)).step (WorldRun.sound hrun w (by simp)) (World.step_inv (Run.onHead_cons.mp hs))

def Ending (v : State) : Prop := v.deleting → v.phase = .unset ∨ v.phase = .deleting

theorem WorldStep.ending (hs : WorldStep w act w') (hact : unedited w act) (h : ∀ v, w.store.volume = some v → Ending v) :
    ∀ x, w'.store.volume = some x → Ending x := by
  intro x hx hdeleting
  obtain ⟨v, hv, haccount, hsame | rfl⟩ := hs.account hx
  · rw [hsame] at hdeleting
    exact haccount.ending hdeleting (h v hv hdeleting)
  · simp only [unedited, hv, Option.all_some, Bool.or_eq_true, decide_eq_true_eq] at hact
    cases hs with
    | external allowed applied =>
      cases Store.apply_inv applied with
      | @volume _ u y current accepted =>
        obtain rfl : u = v := Option.some.inj (current.symm.trans hv)
        obtain rfl : y = x := Option.some.inj hx
        obtain rfl := pure_ok.mp accepted
        exact hact.imp (fun hunstarted => (unstartedCreation_inv hunstarted).2.2.1) id

theorem GuardedRun.ending {l : List World} (hr : GuardedRun unedited l) :
    ∀ w ∈ l, ∀ v, w.store.volume = some v → Ending v := by
  refine Run.forall_mem (I := fun w => ∀ v, w.store.volume = some v → Ending v) ?_ ?_ hr
  · rintro w ⟨⟨v, hv, hstart, -⟩, -⟩ x hx _
    exact .inl (Option.some.inj (hv.symm.trans hx) ▸ (unstartedCreation_inv hstart).2.2.1)
  · intro w w' past act hrun ih hs
    obtain ⟨hact, hstep⟩ := Run.onHead_cons.mp hs
    exact (World.step_inv hstep).ending hact (ih w (by simp))

/-! ### Charges -/

section Charges

theorem charge_fair {id poolUID : String} (hsound : StateSound id v) (hbytes : 0 < v.capacityBytes)
    (hunstarted : v.phase = .unset → v.unstartedCreation)
    (hpool : ∀ pool, v.initialPool = some pool → validIdentityToken pool.name ∧ validIdentityToken pool.uid) :
    Tally.Fair VolumeObject.charge poolUID ⟨id, v⟩ := by
  by_cases hphase : v.phase = .unset
  · have hstart := hunstarted hphase
    have hcharged : ∃ uid, ownerPoolUID id v = .ok uid := by
      rw [ownerPoolUID]
      cases hinitial : v.initialPool with
      | none => exact ⟨"", by simp [State.hasInitialReservation, hinitial, hstart]⟩
      | some pool =>
        obtain ⟨hname, huid⟩ := hpool pool hinitial
        exact ⟨pool.uid, by simp [State.hasInitialReservation, hinitial, hstart, hname, huid]⟩
    obtain ⟨uid, huid⟩ := hcharged
    refine ⟨(uid, v.capacityBytes), ?_, fun _ => hbytes⟩
    rw [VolumeObject.charge, bind_ok]
    exact ⟨uid, huid, rfl⟩
  · obtain ⟨copy, hcopy⟩ := Option.isSome_iff_exists.mp (hsound.present hphase)
    have hserves := hsound.copy copy hcopy
    simp only [CopyIdentity.servesFor, Bool.and_eq_true, decide_eq_true_eq] at hserves
    obtain ⟨⟨⟨⟨hvalid, -⟩, -⟩, -⟩, hnode⟩ := hserves
    refine ⟨_, (charge_serving hphase hcopy).mpr ⟨⟨?_, hbytes, valid_poolUID_ne_empty hvalid, hnode⟩, rfl⟩, fun _ => hbytes⟩
    exact hnode ▸ valid_nodeName_ne_empty hvalid

variable {volumes : Table VolumeObject.id} {poolUID : String}

/-- A preparation is charged to its Pool, unless its Volume is deleted by hand. -/
theorem preparation_charged {hold : MovePreparation} (hw : WorldSound w) (haccount : Accounted w)
    (hm : w.store.moves.find name = some m) (hregistered : Registered m) (hlock : Locked w name)
    (hlive : ∀ v, w.store.volume = some v → v.phase.Mobile → ¬v.deleting)
    (hlisted : volumes.find w.store.volumeID = w.volumeObject) (hprepared : m.status.preparation = some hold) :
    moveReservation volumes m = .ok (hold.pool.uid, hold.reservedBytes) := by
  obtain ⟨v, hv, hactive⟩ := hlock
  have hkey : m.name = name := Table.key_of_find hm
  have hbound := hw.coherent.bound name m hm
  have hnamed : name ≠ "" := hkey ▸ hbound.named
  have hsound := hw.coherent.sound v (.head hv)
  have hhold := hbound.sound.prepared hold hprepared
  have hbytes := haccount.reserved name m hold hm hprepared v (.head hv)
  obtain ⟨k, hk, howns⟩ := hw.coherent.lock v (.head hv) (hactive ▸ hnamed)
  obtain rfl : k = m := Option.some.inj ((hactive ▸ hk).symm.trans hm)
  -- a Move without destination copy owns its Volume at the source
  have hsource : SourceHeld k v := by
    refine howns.resolve_right fun hdestination => ?_
    obtain ⟨c, hc, -⟩ := hdestination.copy
    have hintent := hhold.noIntent
    simp [Move.hasDestinationIntent, hc] at hintent
  obtain ⟨source, hcopy, hcurrent, hserves⟩ := hsource.copy
  simp only [CopyIdentity.servesFor, Bool.and_eq_true, decide_eq_true_eq] at hserves
  have hphase : v.phase.Mobile := by
    have hunset := mt (fun h => (hsound.unset h).1) (hactive ▸ hnamed)
    have hcreating := mt (fun h => (hsound.creating h).1) (hactive ▸ hnamed)
    have hdeleting := mt (fun h => (hsound.deleting h).1) (hactive ▸ hnamed)
    unfold VolumePhase.Mobile
    cases hp : v.phase <;> simp_all
  have hfound : volumes.find k.spec.volumeID = some ⟨w.store.volumeID, v⟩ := by
    rw [hbound.volumeID, hlisted, World.volumeObject, hv, Option.map_some]
  refine (moveReservation_prepared hprepared hfound hcopy).mpr ⟨hregistered.preparation, ?_, ⟨hlive v hv hphase, hphase, hbytes⟩, rfl⟩
  exact ⟨hserves.1.2.symm, hactive.trans hkey.symm, hsource.owner, hcurrent⟩

/-- A hold with its lock is charged to the destination, or to the source once the Volume serves from the destination. -/
theorem approval_charged (hw : WorldSound w) (hm : w.store.moves.find name = some m) (hv : w.store.volume = some v)
    (hactive : v.activeMove = name) (hlisted : volumes.find w.store.volumeID = w.volumeObject)
    (happroved : m.status.capacityApproved) (hnone : m.status.preparation = none) (hopen : ¬moveCleanupSettled m) :
    ∃ copy source, v.currentCopy = some copy ∧ m.status.sourceCopy = some source ∧
      moveReservation volumes m = .ok (if copy.poolUID = m.status.destinationPoolUID then source.poolUID
        else m.status.destinationPoolUID, v.capacityBytes) := by
  have hkey : m.name = name := Table.key_of_find hm
  have hbound := hw.coherent.bound name m hm
  have hset : v.phase ≠ .unset := by
    intro hunset
    have hfree := ((hw.coherent.sound v (.head hv)).unset hunset).1
    exact hbound.named (hkey.trans (hactive.symm.trans hfree))
  obtain ⟨copy, hcopy⟩ := Option.isSome_iff_exists.mp ((hw.coherent.sound v (.head hv)).present hset)
  obtain ⟨source, anchor, hplan⟩ := hbound.sound.derived (.inl happroved)
  have hfound : volumes.find m.spec.volumeID = some ⟨w.store.volumeID, v⟩ := by
    rw [hbound.volumeID, hlisted, World.volumeObject, hv, Option.map_some]
  refine ⟨copy, source, hcopy, hplan.planned.1,
    (moveReservation_held hnone hopen happroved hfound hcopy hplan.planned.1).mpr ⟨?_, rfl⟩⟩
  refine ⟨hactive.trans hkey.symm, valid_poolUID_ne_empty hplan.planned.2.1, ?_⟩
  rw [hplan.pool]
  exact valid_poolUID_ne_empty hplan.valid

theorem settled_of_succeeded (hregistered : Registered m) (hnone : m.status.preparation = none)
    (hsource : m.status.sourceCopy.isSome) (hphase : m.status.phase = .succeeded) (hclean : m.cleanupPhase = .completed) :
    moveCleanupSettled m := by
  have hplan : passes (validatePreparedPlan m) := passes_iff.mpr ⟨(), hregistered.plan hsource⟩
  simp [moveCleanupSettled, hnone, hregistered.protocol, hphase, hclean, hplan]

theorem moveReservation_fair (hw : WorldSound w) (hheld : Held w) (haccount : Accounted w)
    (hending : ∀ v, w.store.volume = some v → Ending v)
    (hm : w.store.moves.find name = some m) (hregistered : Registered m)
    (hclean : m.status.phase = .succeeded → m.cleanupPhase = .completed)
    (hcompleting : m.status.phase = .completing → Locked w name)
    (hlisted : volumes.find w.store.volumeID = w.volumeObject) (hpool : poolUID ≠ "") :
    Tally.Fair (moveReservation volumes) poolUID m := by
  cases hprepared : m.status.preparation with
  | some hold =>
    have hlock := hheld.locked name m hm (.inl (by simp [hprepared]))
    have hlive : ∀ v, w.store.volume = some v → v.phase.Mobile → ¬v.deleting := by
      intro v hv hphase hdeleting
      exact (hending v hv hdeleting).elim hphase.ne_unset hphase.ne_deleting
    exact ⟨_, preparation_charged hw haccount hm hregistered hlock hlive hlisted hprepared,
      fun _ => ((hw.coherent.bound name m hm).sound.prepared hold hprepared).bytes⟩
  | none =>
    by_cases hfree : moveCleanupSettled m ∨ ¬m.status.capacityApproved
    · exact ⟨_, moveReservation_unheld hprepared hfree, fun h => absurd h.symm hpool⟩
    · rw [not_or, not_not] at hfree
      obtain ⟨hopen, happroved⟩ := hfree
      obtain ⟨source, anchor, hplan⟩ := (hw.coherent.bound name m hm).sound.derived (.inl happroved)
      have hsource : m.status.sourceCopy.isSome := by rw [hplan.planned.1]; rfl
      have hsucceeded : m.status.phase ≠ .succeeded := fun hphase =>
        hopen (settled_of_succeeded hregistered hprepared hsource hphase (hclean hphase))
      have hlock : Locked w name := by
        by_cases hphase : m.status.phase = .completing
        · exact hcompleting hphase
        · exact hheld.locked name m hm (.inr ⟨happroved, hphase, hsucceeded⟩)
      obtain ⟨v, hv, hactive⟩ := hlock
      obtain ⟨copy, origin, -, -, hcharged⟩ := approval_charged hw hm hv hactive hlisted happroved hprepared hopen
      exact ⟨_, hcharged, fun _ => haccount.positive v (.head hv)⟩

end Charges

/-! ### The objects of all volumes -/

theorem Installation.find_volume (i : Installation) (hw : w ∈ i.worlds) :
    i.volumes.find w.store.volumeID = w.volumeObject := by
  cases hvolume : w.volumeObject with
  | some volume =>
    have hmem : volume ∈ i.volumes.rows := List.mem_filterMap.mpr ⟨w, hw, hvolume⟩
    rw [← World.volumeObject_id hvolume]
    exact Table.find_of_mem hmem
  | none =>
    by_contra hfound
    obtain ⟨volume, hfind⟩ := Option.ne_none_iff_exists'.mp hfound
    obtain ⟨w', hw', hvolume'⟩ := List.mem_filterMap.mp (Table.mem_of_find hfind)
    have hid : w'.store.volumeID = w.store.volumeID := (World.volumeObject_id hvolume').symm.trans (Table.key_of_find hfind)
    obtain rfl : w' = w := List.inj_on_of_nodup_map i.distinct hw' hw hid
    simp [hvolume] at hvolume'

/-- The ledger of every Pool whose sum fits is available, however the runs of the volumes are interleaved and wherever
    they stopped, as long as no Move is between giving back its lock and its success. -/
theorem ledger_available (i : Installation) (hruns : ∀ w ∈ i.worlds, ∃ past, GuardedRun unedited (w :: past))
    (hdecoded : ∀ w ∈ i.worlds, ∀ v, w.store.volume = some v → ∀ pool, v.initialPool = some pool →
      validIdentityToken pool.name ∧ validIdentityToken pool.uid)
    (hcompleting : ∀ w ∈ i.worlds, ∀ m ∈ w.store.moves.rows, m.status.phase = .completing → Locked w m.name)
    (poolUID : String) (hpool : poolUID ≠ "") (hfits : ledgerSum i.volumes i.moves poolUID ≤ ledgerBound.limit) :
    ∃ bytes, reservedBytesForPool i.volumes i.moves poolUID = .ok bytes := by
  refine ⟨_, reservedBytesForPool_ok.mpr ⟨hpool, ?_, ?_, rfl, hfits⟩⟩
  · intro volume hvolume
    obtain ⟨w, hw, hlisted⟩ := List.mem_filterMap.mp hvolume
    obtain ⟨v, hv, rfl⟩ := Option.map_eq_some_iff.mp hlisted
    obtain ⟨past, hrun⟩ := hruns w hw
    have haccount := WorldRun.accounted (GuardedRun.worldRun hrun) w (by simp)
    have hcoherent := (WorldRun.sound (GuardedRun.worldRun hrun) w (by simp)).coherent
    exact charge_fair (hcoherent.sound v (.head hv)) (haccount.positive v (.head hv)) (haccount.unstarted v hv)
      (hdecoded w hw v hv)
  · intro m hm
    obtain ⟨w, hw, hrow⟩ := List.mem_flatMap.mp hm
    obtain ⟨past, hrun⟩ := hruns w hw
    have hworld := GuardedRun.worldRun hrun
    have hfind := Table.find_of_mem hrow
    exact moveReservation_fair (WorldRun.sound hworld w (by simp)) (WorldRun.held hworld w (by simp))
      (WorldRun.accounted hworld w (by simp)) (GuardedRun.ending hrun w (by simp)) hfind
      (WorldRun.registered hworld w (by simp) m.name m hfind)
      (WorldRun.succeeded_clean hworld w (by simp) m.name m hfind) (hcompleting w hw m hrow) (i.find_volume hw) hpool

def World.alone (w : World) : Installation := ⟨[w], List.nodup_singleton _⟩

def approvedMigration : List World :=
  replayedWorlds unedited sampleStore <| creationActs ++ claimActs "move" "move-1" "node-a" ++
    approvalActs "move" samplePreparation.pool "node-b"

theorem ledger_available_approved : ∃ w past, approvedMigration = w :: past ∧
    ∃ bytes, reservedBytesForPool w.alone.volumes w.alone.moves samplePreparation.pool.uid = .ok bytes := by
  have hcheck : (approvedMigration.head?.any fun w => w.store.volume.all (·.initialPool.all fun pool =>
      validIdentityToken pool.name && validIdentityToken pool.uid) && w.store.moves.rows.all (·.status.phase ≠ .completing) &&
      decide (ledgerSum w.alone.volumes w.alone.moves samplePreparation.pool.uid ≤ ledgerBound.limit)) = true := by
    decide +kernel
  obtain ⟨w, past, hl, hw⟩ := Run.exists_head hcheck
  simp only [Bool.and_eq_true, decide_eq_true_eq] at hw
  obtain ⟨⟨hpools, hphases⟩, hfits⟩ := hw
  refine ⟨w, past, hl, ledger_available w.alone ?_ ?_ ?_ _ (by decide) hfits⟩
  · intro u hu
    rw [List.mem_singleton.mp hu]
    exact ⟨past, replayedWorlds_run sampleStore_initial hl⟩
  · intro u hu v hv pool hpool
    rw [List.mem_singleton.mp hu] at hv
    simpa [hv, hpool] using hpools
  · intro u hu m hm hphase
    rw [List.mem_singleton.mp hu] at hm
    have hopen := List.all_eq_true.mp hphases m hm
    simp [hphase] at hopen

/-- A migration whose pass stopped after it gave the lock back. -/
def endedMigration : List World :=
  replayedWorlds unedited sampleStore <| creationActs ++ claimActs "move" "move-1" "node-a" ++
    approvalActs "move" samplePreparation.pool "node-b" ++ commitActs "move" ++ retireActs ++ purgeActs ++
    recorded "move" releasedCluster [] ++ stopped "move" releasedCluster [.write "move"]

/-- The Volume that such a pass leaves fails the ledger of every Pool, also of one that the Move never named. -/
theorem ledger_unavailable_ended : ∃ w past, endedMigration = w :: past ∧ GuardedRun unedited (w :: past) ∧
    ledgerSum w.alone.volumes w.alone.moves "unrelated" = 0 ∧
    ∀ poolUID bytes, reservedBytesForPool w.alone.volumes w.alone.moves poolUID ≠ .ok bytes := by
  have hcheck : (endedMigration.head?.any fun w => decide (ledgerSum w.alone.volumes w.alone.moves "unrelated" = 0) &&
      w.alone.moves.any fun m => !passes (moveReservation w.alone.volumes m)) = true := by
    decide +kernel
  obtain ⟨w, past, hl, hw⟩ := Run.exists_head hcheck
  simp only [Bool.and_eq_true, decide_eq_true_eq, List.any_eq_true, Bool.not_eq_true'] at hw
  obtain ⟨hsum, m, hm, hfails⟩ := hw
  refine ⟨w, past, hl, replayedWorlds_run sampleStore_initial hl, hsum, fun poolUID bytes hok => ?_⟩
  obtain ⟨-, -, hmoves, -⟩ := reservedBytesForPool_ok.mp hok
  obtain ⟨charged, hcharged, -⟩ := hmoves m hm
  have hpasses := passes_iff.mpr ⟨charged, hcharged⟩
  simp [hfails] at hpasses

end ShiftPV
