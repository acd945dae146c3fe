import ShiftPV.Theorems.Decisions
import ShiftPV.Theorems.Lineage
import ShiftPV.Theorems.PassSteps

/-! Passes of the mobility controller. A run of the controller is a run of the stored objects under late
    writers (`WorldSound.stale`), so everything proved of those holds here; what one pass at a time adds is
    that the status a pass decided on is still the stored one (`PassSound.stored`). -/

namespace ShiftPV
open Check

variable {w w' : World} {act : WorldAct} {name : String} {pass : Pass} {s t : Store} {op : Op} {m n : Move}

/-! ### Writes that leave a status alone -/

def MoveWrite.keepsStatus : MoveWrite → Bool
  | .status .. | .recordSourceUsage .. => false
  | _ => true

theorem applyMoveWrite_keepsStatus {write : MoveWrite} (h : applyMoveWrite write m = .ok n) (hk : write.keepsStatus) :
    n.status = m.status := by
  rw [applyMoveWrite, seq_ok] at h
  replace h := h.2
  cases write with
  | status expected next | recordSourceUsage expected copy bytes state => simp [MoveWrite.keepsStatus] at hk
  | ensureCleanup spec =>
    simp only [storeMove, Move.ensureCleanup, bind_ok, pure_ok] at h
    obtain ⟨-, -, journal, -, rfl⟩ := h
    rfl
  | updateCleanup expected next =>
    simp only [storeMove, Move.updateCleanup, bind_ok, pure_ok] at h
    obtain ⟨journal, -, rfl⟩ := h
    rfl
  | setRecovery recovery | requestDeletion =>
    obtain rfl := pure_ok.mp h
    rfl

theorem Store.apply_move {write : MoveWrite} (h : s.apply (.move name write) = .ok t) :
    ∃ m n, s.moves.find name = some m ∧ applyMoveWrite write m = .ok n ∧ t.moves.find name = some n := by
  cases Store.apply_inv h with
  | @move _ _ m n current accepted =>
    refine ⟨m, n, current, accepted, ?_⟩
    rw [← show n.name = name from (applyMoveWrite_inv accepted).continues.name.trans (Table.key_of_find current)]
    exact Table.find_put_self

theorem Store.move_cases (h : s.apply op = .ok t) (hm : s.moves.find name = some m) :
    t.moves.find name = some m ∨
      ∃ write n, op = .move name write ∧ applyMoveWrite write m = .ok n ∧ t.moves.find name = some n := by
  cases Store.apply_inv h with
  | @move other write m' n current accepted =>
    by_cases hname : other = name
    · subst hname
      obtain ⟨m', n, hm', hn, hfind⟩ := Store.apply_move h
      obtain rfl : m' = m := Option.some.inj (hm'.symm.trans hm)
      exact Or.inr ⟨write, n, rfl, hn, hfind⟩
    · refine Or.inl ?_
      have hkey := (applyMoveWrite_inv accepted).continues.name.trans (Table.key_of_find current)
      rw [Table.find_put_ne (by rwa [hkey]), hm]
  | @create other uid node named identified absent unique =>
    refine Or.inl ?_
    rw [Table.find_put_ne, hm]
    rintro rfl
    simp [show (ShiftPV.createMove other uid s.volumeID node).name = other from rfl, absent] at hm
  | _ => exact Or.inl hm

/-! ### Passes in flight -/

/-- The decision of a pass: taken on versions that were stored, and on the Move as the pass read it. The pass
    may have recorded evidence since, which leaves the lifecycle alone. -/
structure Decided (h : List Store) (m : Move) (observed : Observed) (d : Decision) (fresh : Option State) : Prop where
  volume : ∀ v, observed.volume = some v → SeenVolume h v
  reread : ∀ v, fresh = some v → SeenVolume h v
  decided : ∃ read, SeenMove h read ∧ Continues read m ∧ read.lifecycle = m.lifecycle ∧ observed.decide read = .ok d ∧
    (read = m ∨ ∃ evidence : Evidence, evidence.action = d.action)

structure PassSound (w : World) (name : String) (pass : Pass) : Prop where
  seen : SeenMove w.history pass.move
  named : pass.move.name = name
  stored : ∃ m, w.store.moves.find name = some m ∧ m.status = pass.move.status
  decided : ∀ observed d fresh wrote, pass.stage = .decided observed d fresh wrote →
    Decided w.history pass.move observed d fresh

structure WorldSound (w : World) : Prop where
  stale : StaleRun w.history
  passes : ∀ name pass, w.passes name = some pass → PassSound w name pass

theorem SeenMove.older {h : List Store} (hm : SeenMove h m) : SeenMove (t :: h) m := seenMove_cons.mpr (Or.inr hm)

theorem SeenMove.head {h : List Store} (hm : t.moves.find name = some m) : SeenMove (t :: h) m := by
  refine seenMove_cons.mpr (Or.inl ?_)
  rwa [show m.name = name from Table.key_of_find hm]

theorem Decided.older {h : List Store} {observed : Observed} {d : Decision} {fresh : Option State}
    (hd : Decided h m observed d fresh) : Decided (t :: h) m observed d fresh where
  volume v hv := (hd.volume v hv).older
  reread v hv := (hd.reread v hv).older
  decided := by
    obtain ⟨read, hread, rest⟩ := hd.decided
    exact ⟨read, hread.older, rest⟩

theorem WorldSound.coherent (hw : WorldSound w) : Coherent w.store w.history := StaleRun.coherent hw.stale

theorem WorldSound.descended (hw : WorldSound w) : Descended w.store w.history := StaleRun.descended hw.stale

theorem WorldSound.decided (hw : WorldSound w) {observed : Observed} {d : Decision} {fresh : Option State} {wrote : Bool}
    (hp : w.passes name = some ⟨m, .decided observed d fresh wrote⟩) : Decided w.history m observed d fresh :=
  (hw.passes name _ hp).decided observed d fresh wrote rfl

theorem PassSound.continues (hp : PassSound w name pass) (hw : WorldSound w) :
    ∃ m, w.store.moves.find name = some m ∧ m.status = pass.move.status ∧ Continues pass.move m := by
  obtain ⟨m, hm, hstatus⟩ := hp.stored
  obtain ⟨n, hn, hk⟩ := hw.coherent.moves pass.move hp.seen
  rw [hp.named, hm] at hn
  obtain rfl := Option.some.inj hn
  exact ⟨m, hm, hstatus, hk⟩

theorem WorldSound.setPass (hw : WorldSound w) {pass : Option Pass} (hp : ∀ p, pass = some p → PassSound w name p) :
    WorldSound (w.setPass name pass) where
  stale := hw.stale
  passes other p h := by
    by_cases hname : other = name
    · subst hname
      simp only [World.setPass, if_true] at h
      obtain ⟨hseen, hnamed, hstored, hdecided⟩ := hp p h
      exact ⟨hseen, hnamed, hstored, hdecided⟩
    · simp only [World.setPass, if_neg hname] at h
      obtain ⟨hseen, hnamed, hstored, hdecided⟩ := hw.passes other p h
      exact ⟨hseen, hnamed, hstored, hdecided⟩

theorem WorldSound.leave (hw : WorldSound w) (name : String) : WorldSound (w.setPass name none) := hw.setPass (by simp)

/-- A write leaves every pass sound when it is no status write of a Move under a pass. -/
theorem WorldSound.record (hw : WorldSound w) (happly : w.store.apply op = .ok t) (hobs : op.Observed w.history)
    (hkeep : ∀ name pass write, w.passes name = some pass → op = .move name write → write.keepsStatus) :
    WorldSound (w.record t) where
  stale := by
    have hstep : StaleStep w.history op t := staleStep_cons.mpr ⟨hobs, happly⟩
    exact .next hw.stale hstep
  passes name pass hpass := by
    have hp := hw.passes name pass hpass
    refine ⟨hp.seen.older, hp.named, ?_, fun observed d fresh wrote h => (hp.decided observed d fresh wrote h).older⟩
    obtain ⟨m, hm, hstatus⟩ := hp.stored
    rcases Store.move_cases happly hm with hm' | ⟨write, n, rfl, hwrite, hn⟩
    · exact ⟨m, hm', hstatus⟩
    · exact ⟨n, hn, (applyMoveWrite_keepsStatus hwrite (hkeep name pass write hpass rfl)).trans hstatus⟩

/-! ### Observations -/

section Observations
variable {volume : Option State} {state v : State} {cluster : ClusterFacts} {observed : Observed}

theorem observeWorkloadRetirement_eq {r : Except String Observed}
    (h : observeWorkloadRetirement m state cluster = some r) (hr : r = .ok observed) :
    observed = { volume := some state, facts := { Observation.none with workloadRetired := true } } := by
  unfold observeWorkloadRetirement at h
  split at h
  · simp at h
  · obtain rfl := Option.some.inj h
    split at hr <;> simp only [seq_ok, pure_ok] at hr <;> grind

theorem observeWorkloadRetirement_volume {r : Except String Observed}
    (h : observeWorkloadRetirement m state cluster = some r) (hr : r = .ok observed) : observed.volume = some state := by
  rw [observeWorkloadRetirement_eq h hr]

theorem observePreparation_volume (h : observePreparation m volume cluster = .ok observed)
    (hv : observed.volume = some v) : volume = some v := by
  unfold observePreparation at h
  rw [seq_ok, seq_ok] at h
  replace h := h.2.2
  split at h
  · obtain rfl := pure_ok.mp h
    simp at hv
  split at h
  · obtain rfl := pure_ok.mp h
    simp at hv
  split at h
  · simp at h
  split at h
  · rename_i r hr
    rw [← hv, observeWorkloadRetirement_volume hr h]
  · split_ifs at h <;> simp only [seq_ok, pure_ok] at h <;> grind

theorem observeExecution_volume (h : observeExecution m volume cluster = .ok observed) : observed.volume = volume := by
  unfold observeExecution at h
  split at h
  · rw [seq_ok, pure_ok] at h
    exact h.2 ▸ rfl
  split at h
  · exact pure_ok.mp h ▸ rfl
  split at h
  · exact pure_ok.mp h ▸ rfl
  split at h
  · rename_i r hr
    exact observeWorkloadRetirement_volume hr h
  · split at h <;> exact pure_ok.mp h ▸ rfl

theorem observeServiceRecovery_volume (h : observeServiceRecovery m volume = .ok observed) : observed.volume = volume := by
  unfold observeServiceRecovery at h
  split at h
  · simp at h
  · split_ifs at h <;> simp only [seq_ok, pure_ok] at h <;> exact h.2 ▸ rfl

theorem observeSettlementRelease_volume {r : Except String Observed} (h : observeSettlementRelease m volume = some r)
    (hr : r = .ok observed) : observed.volume = volume := by
  unfold observeSettlementRelease at h
  split at h
  · obtain rfl := Option.some.inj h
    simp only [seq_ok, pure_ok] at hr
    exact hr.2 ▸ rfl
  · split_ifs at h
    obtain rfl := Option.some.inj h
    simp only [seq_ok, pure_ok] at hr
    exact hr.2.2.2.2 ▸ rfl

theorem observeRecovery_volume (h : observeRecovery m volume = .ok observed) : observed.volume = volume := by
  unfold observeRecovery at h
  split at h
  · cases hr : observeSettlementRelease m volume with
    | none =>
      rw [hr] at h
      exact observeServiceRecovery_volume h
    | some r =>
      rw [hr] at h
      exact observeSettlementRelease_volume hr h
  · exact observeServiceRecovery_volume h

theorem observeBlockedLifecycle_volume (h : observeBlockedLifecycle m volume cluster = .ok observed)
    (hv : observed.volume = some v) : volume = some v := by
  rw [observeBlockedLifecycle, seq_ok] at h
  replace h := h.2
  split at h
  · rename_i r hr
    obtain ⟨state, hstate, hr⟩ := Option.bind_eq_some_iff.mp hr
    rw [hstate, ← hv, observeWorkloadRetirement_volume hr h]
  · split_ifs at h
    · rw [← hv, observeRecovery_volume h]
    · obtain rfl := pure_ok.mp h
      simp at hv

theorem observeCancellation_volume (h : observeCancellation m volume cluster = .ok observed) :
    observed.volume = volume := by
  simp only [observeCancellation, seq_ok] at h
  obtain ⟨-, -, -, -, h⟩ := h
  split_ifs at h <;> exact pure_ok.mp h ▸ rfl

theorem observeLifecycle_volume (h : observeLifecycle m volume cluster = .ok observed) (hv : observed.volume = some v) :
    volume = some v := by
  unfold observeLifecycle at h
  split at h
  · obtain rfl := pure_ok.mp h
    simp at hv
  · rw [← hv, observeCancellation_volume h]
  · rw [← hv, observeCancellation_volume h]
  · split at h
    · obtain rfl := pure_ok.mp h
      simp at hv
    · exact observeBlockedLifecycle_volume h hv
  · exact observePreparation_volume h hv
  · exact observePreparation_volume h hv
  · exact observePreparation_volume h hv
  · exact observePreparation_volume h hv
  · rw [seq_ok, bind_ok] at h
    obtain ⟨-, o, ho, h⟩ := h
    obtain rfl := pure_ok.mp h
    unfold preparedExecutionChanged at hv
    split at hv <;> rw [← observeExecution_volume ho, ← hv]

end Observations

/-! ### Steps -/

theorem Op.observed_of_external {h : List Store} (hop : op.external) : op.Observed h := by
  unfold Op.Observed
  split
  · simp [Op.external] at hop
  · trivial

theorem Op.keepsStatus_of_external {write : MoveWrite} (hop : Op.external (.move name write)) : write.keepsStatus := by
  cases write <;> simp_all [Op.external, MoveWrite.keepsStatus]

/-- A status write under its own pass, which ends or goes on with what was written. -/
theorem WorldSound.record_own (hw : WorldSound w) {write : MoveWrite} (happly : w.store.apply (.move name write) = .ok t)
    {pass : Option Pass} (hp : ∀ p, pass = some p → PassSound (w.record t) name p) :
    WorldSound ((w.record t).setPass name pass) := by
  have hidle : WorldSound ((w.setPass name none).record t) := by
    refine (hw.leave name).record happly trivial ?_
    intro other pass write' hpass hop
    cases hop
    simp [World.setPass] at hpass
  have hset : ((w.setPass name none).record t).setPass name pass = (w.record t).setPass name pass := by
    simp only [World.setPass, World.record, World.mk.injEq, true_and]
    funext other
    split <;> rfl
  refine hset ▸ hidle.setPass fun p h => ?_
  obtain ⟨hseen, hnamed, hstored, hdecided⟩ := hp p h
  exact ⟨hseen, hnamed, hstored, hdecided⟩

theorem WorldSound.step (hw : WorldSound w) (hs : WorldStep w act w') : WorldSound w' := by
  cases hs with
  | external allowed applied =>
    refine hw.record applied (Op.observed_of_external allowed) ?_
    rintro name pass write - rfl
    exact Op.keepsStatus_of_external allowed
  | announce idle stored fresh applied =>
    refine hw.record applied trivial ?_
    intro other pass write hpass hop
    cases hop
    simp [idle] at hpass
  | @start name m idle stored =>
    refine hw.setPass ?_
    rintro p hp
    obtain rfl := Option.some.inj hp
    exact ⟨.head stored, Table.key_of_find stored, ⟨m, stored, rfl⟩, by simp⟩
  | @observe name cluster m observed d pass seen decided =>
    have hp := hw.passes name _ pass
    refine hw.setPass ?_
    rintro p hp'
    obtain rfl := Option.some.inj hp'
    refine ⟨hp.seen, hp.named, hp.stored, ?_⟩
    rintro o e fresh wrote hstage
    cases hstage
    exact
      { volume := fun v hv => .head (observeLifecycle_volume seen hv)
        reread := by simp
        decided := ⟨m, hp.seen, .refl m, rfl, decided, Or.inl rfl⟩ }
  | @retry name reason m observed d d' fresh v pass retries cancellable open' current decided =>
    have hp := hw.passes name _ pass
    refine hw.setPass ?_
    rintro p hp'
    obtain rfl := Option.some.inj hp'
    refine ⟨hp.seen, hp.named, hp.stored, ?_⟩
    rintro o e fresh' wrote hstage
    cases hstage
    exact
      { volume := fun x hx => by
          obtain rfl : v = x := Option.some.inj hx
          exact .head current
        reread := by simp
        decided := ⟨m, hp.seen, .refl m, rfl, decided, Or.inl rfl⟩ }
  | @reread name m observed d fresh wrote pass =>
    have hp := hw.passes name _ pass
    refine hw.setPass ?_
    rintro p hp'
    obtain rfl := Option.some.inj hp'
    refine ⟨hp.seen, hp.named, hp.stored, ?_⟩
    rintro o e fresh' wrote' hstage
    cases hstage
    have hd := hw.decided pass
    exact { volume := hd.volume, reread := fun v hv => .head hv, decided := hd.decided }
  | @write name m stored observed d fresh v kind t pass volume action current settled applied =>
    have hp := hw.passes name _ pass
    have hd := hw.decided pass
    have hrec : WorldSound (w.record t) := by
      refine hw.record applied ⟨hp.seen, hd.volume v volume⟩ ?_
      rintro other pass' write - hop
      simp at hop
    refine hrec.setPass ?_
    rintro p hp'
    obtain rfl := Option.some.inj hp'
    have hp' := hrec.passes name _ pass
    refine ⟨hp'.seen, hp'.named, hp'.stored, ?_⟩
    rintro o e fresh' wrote hstage
    cases hstage
    exact hd.older
  | @evidence name evidence m n observed d fresh wrote write t pass action recorded applied stored =>
    have hp := hw.passes name _ pass
    obtain ⟨read, hread, hk, hlife, hdecide, -⟩ := (hw.decided pass).decided
    obtain ⟨before, hbefore, hstatus, hkb⟩ := hp.continues hw
    refine hw.record_own applied ?_
    rintro p hp'
    obtain rfl := Option.some.inj hp'
    refine ⟨.head stored, Table.key_of_find stored, ⟨n, stored, rfl⟩, ?_⟩
    rintro o e fresh' wrote' hstage
    cases hstage
    have hd := (hw.decided pass).older (t := t)
    have hwrite : applyMoveWrite write before = .ok n := by
      obtain ⟨x, y, hx, hy, hfind⟩ := Store.apply_move applied
      obtain rfl : x = before := Option.some.inj (hx.symm.trans hbefore)
      rw [hy, Option.some.inj (hfind.symm.trans stored)]
    exact
      { volume := hd.volume
        reread := hd.reread
        decided := ⟨read, hread.older, (hk.trans hkb).trans (applyMoveWrite_inv hwrite).continues,
          hlife.trans ((Evidence.write_inv recorded).lifecycle hwrite hstatus).symm, hdecide, Or.inr ⟨evidence, action⟩⟩ }
  | journal pass owed applied =>
    refine hw.record applied trivial ?_
    rintro other pass' write - hop
    cases hop
    rfl
  | finish pass complete current settled changed applied | diagnose pass executing applied =>
    exact hw.record_own applied (by simp)
  | unchanged | leave => exact hw.leave _

theorem worldSound_initial (h : w.Initial) : WorldSound w := by
  obtain ⟨hstore, hpast, hpasses⟩ := h
  refine ⟨?_, fun name pass hpass => by simp [hpasses name] at hpass⟩
  rw [World.history, hpast]
  exact .start hstore

theorem WorldRun.sound {l : List World} (hr : WorldRun l) : ∀ w ∈ l, WorldSound w := by
  refine Run.forall_mem (I := WorldSound) (fun w => worldSound_initial) ?_ hr
  intro w w' past act _ hsound hs
  exact (hsound w (by simp)).step (World.step_inv (Run.onHead_cons.mp hs))

/-! ### The stored objects across a step -/

/-- What one step does to the stored objects. A Volume write of the controller is the write its pass decided on. -/
inductive StoreChange (w w' : World) : Prop where
  | same (store : w'.store = w.store) (past : w'.past = w.past)
  | write (op : Op) (step : StaleStep w.history op w'.store) (past : w'.past = w.history)
      (own : ∀ k m v, op = .volume (.mobility k m v) → ∃ observed d fresh,
        w.passes m.name = some ⟨m, .decided observed d fresh false⟩ ∧ d.action.volumeWrite = some k)

theorem WorldSound.store_change (hw : WorldSound w) (hs : WorldStep w act w') : StoreChange w w' := by
  have hmove : ∀ {name write t}, w.store.apply (.move name write) = .ok t → w'.store = t → w'.past = w.history →
      StoreChange w w' := by
    rintro name write t happly rfl hpast
    have hstep : StaleStep w.history (.move name write) w'.store := staleStep_cons.mpr ⟨trivial, happly⟩
    exact .write _ hstep hpast (by simp)
  cases hs with
  | @external op t allowed applied =>
    have hstep : StaleStep w.history op t := staleStep_cons.mpr ⟨Op.observed_of_external allowed, applied⟩
    refine .write op hstep rfl ?_
    rintro k m v rfl
    simp [Op.external] at allowed
  | @write name m stored observed d fresh v kind t pass volume action current settled applied =>
    have hp := hw.passes name _ pass
    have hstep : StaleStep w.history (.volume (.mobility kind m v)) t :=
      staleStep_cons.mpr ⟨⟨hp.seen, (hw.decided pass).volume v volume⟩, applied⟩
    refine .write _ hstep rfl ?_
    intro k m' v' hop
    cases hop
    rw [show m.name = name from hp.named]
    exact ⟨observed, d, fresh, pass, action⟩
  | announce idle stored fresh applied | evidence pass action recorded applied stored | journal pass owed applied
  | finish pass complete current settled changed applied | diagnose pass executing applied => exact hmove applied rfl rfl
  | _ => exact .same rfl rfl

theorem StoreChange.history (h : StoreChange w w') : ∀ s ∈ w.history, s ∈ w'.history := by
  intro s hs
  cases h with
  | same store past =>
    rw [World.history, store, past]
    exact hs
  | write op step past own =>
    rw [World.history, past]
    exact List.mem_cons_of_mem _ hs

theorem WorldRun.change {past : List World} (hr : WorldRun (w' :: w :: past)) :
    WorldRun (w :: past) ∧ ∃ act, WorldStep w act w' := by
  cases hr with
  | next hr hs => exact ⟨hr, _, World.step_inv (Run.onHead_cons.mp hs)⟩

theorem WorldRun.stores_seen {past : List World} (hr : WorldRun (w :: past)) : ∀ u ∈ w :: past, u.store ∈ w.history := by
  induction past generalizing w with
  | nil =>
    intro u hu
    rw [List.mem_singleton] at hu
    exact hu ▸ List.mem_cons_self
  | cons x past ih =>
    obtain ⟨hrun, act, hstep⟩ := WorldRun.change hr
    have hchange := (WorldRun.sound hrun x (by simp)).store_change hstep
    intro u hu
    rcases List.mem_cons.mp hu with rfl | hu
    · exact List.mem_cons_self
    · exact hchange.history _ (ih hrun u hu)

end ShiftPV
