import ShiftPV.Theorems.HoldProtocol
import ShiftPV.Theorems.LedgerAvailable

/-! What one volume takes of one Pool. The Volume and its Moves together charge a Pool at most once, with the capacity of the
    Volume, and no step makes them charge a Pool they did not charge before, except the admission of the Pool. -/

namespace ShiftPV
open Check

variable {w w' : World} {act : WorldAct} {name uid : String} {m n : Move} {v x : State} {past : List World} {volumeID : String}

/-! ### The Volume -/

/-- The Volume reserves room in the Pool, or serves from it. -/
def State.refersTo (v : State) (uid : String) : Bool :=
  (v.unstartedCreation && v.initialPool.any (·.uid = uid)) || v.currentCopy.any (·.poolUID = uid)

theorem State.refersTo_iff : v.refersTo uid ↔
    (v.unstartedCreation ∧ ∃ pool, v.initialPool = some pool ∧ pool.uid = uid) ∨
      ∃ copy, v.currentCopy = some copy ∧ copy.poolUID = uid := by
  simp [State.refersTo, Option.any_eq_true]

theorem refersTo_started (h : v.phase ≠ .unset) : v.refersTo uid ↔ ∃ copy, v.currentCopy = some copy ∧ copy.poolUID = uid := by
  simp [State.refersTo_iff, State.unstartedCreation, h]

theorem applyVolumeWrite_refers {write : VolumeWrite} (h : applyVolumeWrite volumeID write v = .ok x)
    (hmob : ∀ k m o, write ≠ .mobility k m o) (href : x.refersTo uid) :
    v.refersTo uid ∨ ∃ expected pool, write = .bindInitialPool expected pool ∧ pool.uid = uid := by
  -- a started Volume refers to the Pool of its copy
  have hstarted : x.phase ≠ .unset → x.currentCopy = v.currentCopy → v.refersTo uid := by
    intro hset hcopy
    rw [refersTo_started hset, hcopy] at href
    exact State.refersTo_iff.mpr (.inr href)
  cases write with
  | bindInitialPool expected pool =>
    obtain ⟨-, rfl⟩ := bindInitialPool_inv h
    rcases State.refersTo_iff.mp href with ⟨-, reserved, hreserved, huid⟩ | hcopy
    · obtain rfl : pool = reserved := Option.some.inj hreserved
      exact .inr ⟨expected, pool, rfl, huid⟩
    · exact .inl (State.refersTo_iff.mpr (.inr hcopy))
  | recordCreationIntent installationID observed =>
    rcases completeInitialization_inv h with ⟨-, rfl⟩ | ⟨hinit, pool, copy, hpool, -, -, huid, rfl⟩
    · exact .inl href
    · obtain ⟨c, hc, hcuid⟩ := (refersTo_started (by simp)).mp href
      obtain rfl : copy = c := Option.some.inj hc
      simp only [State.initializing, Bool.and_eq_true] at hinit
      exact .inl (State.refersTo_iff.mpr (.inl ⟨hinit.2, pool, hpool, huid ▸ hcuid⟩))
  | bindCreation expected executor =>
    obtain ⟨-, -, -, rfl⟩ := bindCreation_inv h
    exact .inl (hstarted (by simp) rfl)
  | recordCreationReceipt expected receipt =>
    obtain ⟨hphase, -, rfl | ⟨-, rfl⟩⟩ := recordCreationReceipt_inv h
    · exact .inl href
    · exact .inl (hstarted (by simp [hphase]) rfl)
  | completeCreate uid copy =>
    obtain ⟨-, ⟨-, rfl⟩ | ⟨-, rfl⟩⟩ := completeCreate_inv h
    · exact .inl href
    · exact .inl (hstarted (by simp) rfl)
  | beginPublish nodeName copy =>
    obtain ⟨hphase, -, -, rfl⟩ := beginPublish_inv h
    exact .inl (hstarted (by simp [hphase]) rfl)
  | reconcilePublished nodeName copy published =>
    obtain ⟨-, hcopy, -, rfl⟩ := reconcilePublished_inv h
    rcases State.refersTo_iff.mp href with ⟨hunstarted, -⟩ | hserves
    · simp [State.unstartedCreation, hcopy] at hunstarted
    · exact .inl (State.refersTo_iff.mpr (.inr hserves))
  | beginDelete uid copy =>
    obtain ⟨-, -, -, -, ⟨-, -, rfl⟩ | ⟨-, -, rfl⟩⟩ := beginDelete_inv h
    · exact .inl (hstarted (by simp) rfl)
    · exact .inl href
  | beginCreationCancellation uid copy =>
    obtain ⟨-, -, -, ⟨-, rfl⟩ | ⟨-, -, -, rfl⟩⟩ := beginCreationCancellation_inv h
    · exact .inl href
    · exact .inl (hstarted (by simp) rfl)
  | mobility k m o => exact absurd rfl (hmob k m o)
  | requestDeletion =>
    obtain rfl := pure_ok.mp h
    exact .inl href

/-- A step that does not admit to the Pool leaves a Volume refer to it only if it did before, or was handed over. -/
theorem WorldStep.refers (hr : WorldRun (w :: past)) (hs : WorldStep w act w') (hadmits : act.admits uid = false)
    (hx : w'.store.volume = some x) (href : x.refersTo uid) :
    (∃ v, w.store.volume = some v ∧ v.refersTo uid) ∨
      ∃ name m v, w.store.moves.find name = some m ∧ w.store.volume = some v ∧ m.HoldsExecution ∧ v.activeMove = name ∧
        v.currentCopy = m.status.sourceCopy ∧ m.status.destinationPoolUID = uid ∧ w.handsOver uid act := by
  have hw := WorldRun.sound hr w (by simp)
  obtain ⟨v, hv, hchange⟩ := hs.volume_change hx
  cases hchange with
  | kept same => exact .inl ⟨v, hv, same ▸ href⟩
  | external write hact plain accepted =>
    rcases applyVolumeWrite_refers accepted plain href with hbefore | ⟨expected, pool, rfl, huid⟩
    · exact .inl ⟨v, hv, hbefore⟩
    · simp [hact, WorldAct.admits, huid] at hadmits
  | cleanup fenced record =>
    rw [refersTo_started (by simp [record, fenced]), record] at href
    exact .inl ⟨v, hv, State.refersTo_iff.mpr (.inr href)⟩
  | mobility name p observed d fresh o kind hact pass volume action accepted =>
    have hpass := hw.passes name _ pass
    have hdecided := hw.decided pass
    by_cases hcommit : kind = .commitOwner
    · subst hcommit hact
      have haction := Action.commitOwner_of_write action
      obtain ⟨m, o', v', next, hm, hv', hnext, hcommitted, hholds, hsource⟩ := WorldRun.commit_holds hr hs pass haction
      obtain rfl : v = v' := Option.some.inj (hv.symm.trans hv')
      obtain rfl : next = x := Option.some.inj (hnext.symm.trans hx)
      obtain ⟨source, target, hcommitted⟩ := commitOwner_inv hcommitted
      have hcopy : next.currentCopy = some target := by rw [hcommitted.record]; rfl
      have hset : next.phase ≠ .unset := by rw [hcommitted.record]; simp [committedState]
      obtain ⟨c, hc, huid⟩ := (refersTo_started hset).mp href
      obtain rfl : target = c := Option.some.inj (hcopy.symm.trans hc)
      obtain ⟨k, hk, hstatus⟩ := hpass.stored
      obtain rfl : k = m := Option.some.inj (hk.symm.trans hm)
      refine .inr ⟨name, k, v, hm, hv, hholds, hcommitted.lock.trans (Table.key_of_find hm), hsource,
        hcommitted.pool.1 ▸ huid, ?_⟩
      have hstatus : p.status.destinationCopy = some target := hstatus ▸ hcommitted.targetCopy
      simp [World.handsOver, pass, Pass.commits, haction, hstatus, huid]
    · obtain ⟨k, -, -, heffect⟩ := hw.coherent.effect hpass.seen (hdecided.volume o volume) hv accepted
      refine .inl ⟨v, hv, State.refersTo_iff.mpr (.inr ?_)⟩
      rw [refersTo_started heffect.after.ne_unset, (heffect.kept hcommit).2.1] at href
      exact href

/-! ### The Moves -/

/-- The Move holds room in the Pool: as its preparation, or, with the lock of its Volume, for the copy of its plan that
    the Volume does not serve. -/
inductive MoveCharges (w : World) (name : String) (m : Move) (uid : String) : Prop where
  | prepared (hold : MovePreparation) (held : m.status.preparation = some hold) (pool : hold.pool.uid = uid)
  | approved (v : State) (copy source : CopyIdentity) (executing : m.HoldsExecution) (volume : w.store.volume = some v)
      (lock : v.activeMove = name) (served : v.currentCopy = some copy) (planned : m.status.sourceCopy = some source)
      (pool : (if copy.poolUID = m.status.destinationPoolUID then source.poolUID else m.status.destinationPoolUID) = uid)

def World.Charges (w : World) (uid : String) : Prop :=
  (∃ v, w.store.volume = some v ∧ v.refersTo uid) ∨ ∃ name m, w.store.moves.find name = some m ∧ MoveCharges w name m uid

theorem WorldSound.one_object (hw : WorldSound w) (hs : WorldStep w act w') :
    w'.store.volume = w.store.volume ∨ w'.store.moves = w.store.moves := by
  cases hw.store_change hs with
  | same store past => exact .inl (by rw [store])
  | write op step past own =>
    have hwrites : ∀ {t : Store}, StoreStep w.store op t → t.volume = w.store.volume ∨ t.moves = w.store.moves := by
      intro t hstep
      cases hstep with
      | volume current accepted => exact .inr rfl
      | move current accepted => exact .inl rfl
      | create named identified absent unique => exact .inl rfl
      | ensureCleanup current deleting operation target accepted => exact .inr rfl
      | updateCleanup current accepted => exact .inl rfl
      | remove current removable => exact .inr rfl
    exact hwrites (Store.apply_inv (staleStep_cons.mp step).2)

theorem Decided.claim_unapproved {h : List Store} {p : Move} {observed : Observed} {d : Decision} {fresh : Option State}
    (hd : Decided h p observed d fresh) (haction : d.action = .claimSource) : p.status.capacityApproved = false := by
  have hdecide := hd.current (by intro evidence; cases evidence <;> simp [Evidence.action, haction])
  have table : ∀ phase : MovePhase, ∀ y ∈ outcomes phase, y.1 = .claimSource → phase = .preparing ∨ phase = .canceling := by
    intro phase
    cases phase <;> decide
  obtain ⟨hvalid, -⟩ := decideMove_route hdecide
  obtain ⟨-, -, hbefore, -⟩ := validateState_inv hvalid
  have hearly := hbefore (by rcases table _ _ hd.listed haction with hp | hp <;> simp [hp])
  simp only [beforeExecutionApproval, lifecycleFacts, Bool.and_eq_true, Bool.not_eq_true'] at hearly
  exact hearly.1

theorem Move.HoldsExecution.origin (h : n.HoldsExecution) (hw : WorldSound w) (hm : w.store.moves.find name = some m)
    (hstep : n = m ∨ MoveStep m n) (hchange : StatusChange w name m n) :
    m.HoldsExecution ∨ ∃ hold source, m.Prepared hold ∧ HoldApproved m n hold source := by
  obtain ⟨hnone, hopen, happroved⟩ := h
  have hbefore : ¬moveCleanupSettled m := fun hsettled => hopen (hchange.settled hw hm hstep hsettled)
  rcases hstep with rfl | hstep
  · exact .inl ⟨hnone, hopen, happroved⟩
  · cases hm' : m.status.capacityApproved with
    | false =>
      obtain ⟨hold, source, hprepared, -, happroval⟩ := hstep.approval hm' happroved
      exact .inr ⟨hold, source, hprepared, happroval⟩
    | true =>
      refine .inl ⟨?_, hbefore, hm'⟩
      by_contra hsome
      obtain ⟨hold, hhold⟩ := Option.ne_none_iff_exists'.mp hsome
      simp [((hw.coherent.bound name m hm).sound.prepared hold hhold).unapproved] at hm'

theorem Move.HoldsExecution.lock_before (h : m.HoldsExecution) (hw : WorldSound w) (hm : w.store.moves.find name = some m)
    (hv : w.store.volume = some v) (hchange : VolumeChange w act v x) (hlock : x.activeMove = name) : v.activeMove = name := by
  have hname : name ≠ "" := Table.key_of_find hm ▸ (hw.coherent.bound name m hm).named
  cases hchange with
  | kept same => exact same ▸ hlock
  | external write hact plain accepted =>
    rw [← hlock]
    exact (applyVolumeWrite_sound accepted (hw.coherent.sound v (.head hv)) plain).2.lock.symm
  | cleanup fenced record =>
    subst record
    exact hlock
  | mobility other p observed d fresh o kind hact pass volume action accepted =>
    have hpass := hw.passes other _ pass
    obtain ⟨k, hk, -, heffect⟩ := hw.coherent.effect hpass.seen ((hw.decided pass).volume o volume) hv accepted
    have hwriter : k.name = name := (heffect.locked (hlock ▸ hname)).1.symm.trans hlock
    rcases heffect.lock with ⟨-, rfl⟩ | hbefore
    · -- a claim would have been decided without the approval
      have haction : d.action = .claimSource := by
        cases ha : d.action <;> simp [ha, Action.volumeWrite] at action
        rfl
      obtain ⟨j, hj, hstatus⟩ := hpass.stored
      have hother : other = name := by rw [← hwriter, Table.key_of_find hk, hpass.named]
      subst hother
      obtain rfl : j = m := Option.some.inj (hj.symm.trans hm)
      have hunapproved := (hw.decided pass).claim_unapproved haction
      rw [← hstatus] at hunapproved
      simp [h.2.2] at hunapproved
    · exact hbefore.trans hwriter

theorem Move.HoldsExecution.planned (h : m.HoldsExecution) (hw : WorldSound w) (hm : w.store.moves.find name = some m) :
    ∃ source target, m.status.sourceCopy = some source ∧ m.status.destinationCopy = some target ∧
      target.poolUID = m.status.destinationPoolUID ∧ m.status.destinationPoolUID ≠ source.poolUID ∧
      m.status.destinationPoolUID ≠ "" := by
  obtain ⟨source, anchor, hplan⟩ := (hw.coherent.bound name m hm).sound.derived (.inl h.2.2)
  refine ⟨source, _, hplan.planned.1, hplan.destination, hplan.pool.symm, ?_, ?_⟩
  · rw [hplan.pool]
    exact hplan.foreign
  · rw [hplan.pool]
    exact valid_poolUID_ne_empty hplan.valid

theorem Move.HoldsExecution.copy_before (h : m.HoldsExecution) (hw : WorldSound w) (hm : w.store.moves.find name = some m)
    (hv : w.store.volume = some v) (hlock : v.activeMove = name) (hchange : VolumeChange w act v x) :
    x.currentCopy = v.currentCopy ∨ v.currentCopy = m.status.sourceCopy ∧ x.currentCopy = m.status.destinationCopy := by
  have hname : name ≠ "" := Table.key_of_find hm ▸ (hw.coherent.bound name m hm).named
  have hsound := hw.coherent.sound v (.head hv)
  have hset : v.phase ≠ .unset := fun hunset => hname (hlock.symm.trans (hsound.unset hunset).1)
  cases hchange with
  | kept same => exact .inl (by rw [same])
  | external write hact plain accepted =>
    exact .inl ((applyVolumeWrite_sound accepted hsound plain).2.copy (hsound.present hset))
  | cleanup fenced record =>
    subst record
    exact .inl rfl
  | mobility other p observed d fresh o kind hact pass volume action accepted =>
    have hpass := hw.passes other _ pass
    obtain ⟨k, hk, -, heffect⟩ := hw.coherent.effect hpass.seen ((hw.decided pass).volume o volume) hv accepted
    by_cases hcommit : kind = .commitOwner
    · obtain ⟨-, -, -, hsource, hdestination⟩ := heffect.commit hcommit
      have hwriter : k.name = name := by
        rcases heffect.lock with ⟨hfree, -⟩ | hbefore
        · exact absurd (hlock.symm.trans hfree) hname
        · exact hbefore.symm.trans hlock
      have hfind : w.store.moves.find name = some k := by
        rw [← hwriter, Table.key_of_find hk]
        exact hk
      obtain rfl : k = m := Option.some.inj (hfind.symm.trans hm)
      obtain ⟨c, hc, hserved, -⟩ := hsource.copy
      obtain ⟨c', hc', hserves, -⟩ := hdestination.copy
      exact .inr ⟨by rw [hc, hserved], by rw [hc', hserves]⟩
    · exact .inl (heffect.kept hcommit).2.1

theorem Move.Prepared.source_held {hold : MovePreparation} (h : m.Prepared hold) (hw : WorldSound w)
    (hv : w.store.volume = some v) (hm : w.store.moves.find v.activeMove = some m) : SourceHeld m v := by
  have hname : v.activeMove ≠ "" := Table.key_of_find hm ▸ (hw.coherent.bound _ m hm).named
  obtain ⟨k, hk, howns⟩ := hw.coherent.lock v (.head hv) hname
  obtain rfl : k = m := Option.some.inj (hk.symm.trans hm)
  refine howns.resolve_right fun hdestination => ?_
  obtain ⟨c, hc, -⟩ := hdestination.copy
  have hintent := h.noIntent
  simp [Move.hasDestinationIntent, hc] at hintent

/-- A step that admits nothing to the Pool makes nothing charge it. -/
theorem World.Charges.back (h : w'.Charges uid) (hr : WorldRun (w :: past)) (hs : WorldStep w act w')
    (hadmits : act.admits uid = false) : w.Charges uid := by
  have hw := WorldRun.sound hr w (by simp)
  rcases h with ⟨x, hx, href⟩ | ⟨name, n, hn, hcharges⟩
  · rcases hs.refers hr hadmits hx href with hbefore | ⟨name, m, v, hm, hv, hholds, hlock, hsource, hpool, -⟩
    · exact .inl hbefore
    · obtain ⟨source, target, hplanned, -, -, hforeign, -⟩ := hholds.planned hw hm
      refine .inr ⟨name, m, hm, .approved v source source hholds hv hlock (hsource.trans hplanned) hplanned ?_⟩
      rw [if_neg (Ne.symm hforeign), hpool]
  rcases hw.move_origin hs hn with ⟨m, hm, hstep, hstatus⟩ | ⟨-, uid', node, rfl, -⟩
  swap
  · cases hcharges with
    | prepared hold held => simp [createMove, MoveStatus.empty] at held
    | approved v copy source executing => simp [Move.HoldsExecution, createMove, MoveStatus.empty] at executing
  cases hcharges with
  | prepared hold held pool =>
    rcases hs.preparation hw hm hn held with hbefore | ⟨reserved, nodeName, podUID, v, rfl, -, rfl⟩
    · exact .inr ⟨name, m, hm, .prepared hold hbefore pool⟩
    · simp only [WorldAct.admits, decide_eq_false_iff_not] at hadmits
      exact absurd pool hadmits
  | approved x copy source executing volume lock served planned pool =>
    have hk := Continues.of_change hstep
    rcases executing.origin hw hm hstep hstatus with hholds | ⟨hold, source', hprepared, happroval⟩
    · obtain ⟨source', target, hsource, htarget, htargetPool, hforeign, hset⟩ := hholds.planned hw hm
      obtain rfl : source' = source := Option.some.inj ((hk.source source' hsource).symm.trans planned)
      rw [hk.pool hset] at pool
      obtain ⟨v, hv, hchange⟩ := hs.volume_change volume
      have hlock := hholds.lock_before hw hm hv hchange lock
      rcases hholds.copy_before hw hm hv hlock hchange with hsame | ⟨hbefore, hafter⟩
      · exact .inr ⟨name, m, hm, .approved v copy source' hholds hv hlock (hsame ▸ served) hsource pool⟩
      · -- the commit exchanges the charge of the Volume and that of the Move
        obtain rfl : target = copy := Option.some.inj ((hafter.trans htarget).symm.trans served)
        rw [if_pos htargetPool] at pool
        exact .inl ⟨v, hv, State.refersTo_iff.mpr (.inr ⟨source', hbefore.trans hsource, pool⟩)⟩
    · -- the conversion writes the Move, so the Volume is the one that the preparation has locked
      have hvolume : w.store.volume = some x := by
        rcases hw.one_object hs with hsame | hsame
        · exact hsame ▸ volume
        · rw [hsame, hm] at hn
          obtain rfl := Option.some.inj hn
          exact absurd hprepared.held (by simp [executing.1])
      obtain ⟨c, hc, hserved, -⟩ := (hprepared.source_held hw hvolume (lock ▸ hm)).copy
      obtain rfl : c = copy := Option.some.inj (hserved.symm.trans served)
      obtain rfl : c = source := Option.some.inj ((hk.source c hc).symm.trans planned)
      refine .inr ⟨name, m, hm, .prepared hold hprepared.held ?_⟩
      rw [← pool, ← happroval.pool]
      split
      · rename_i heq
        exact heq.symm
      · rfl

end ShiftPV
