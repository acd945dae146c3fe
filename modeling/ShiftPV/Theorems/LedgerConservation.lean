import ShiftPV.Theorems.LedgerCoverage
import ShiftPV.Theorems.Purge

/-! The handoffs of a Move keep the capacity ledger. An owner commit exchanges the charges of the Volume and of the Move:
    before it the Volume is charged to the source and the Move to the destination, after it the other way round. -/

namespace ShiftPV
open Check

variable {volumes : Table VolumeObject.id} {moves : Table Move.name} {m k : Move} {v next : State} {poolUID : String}

def LedgerStands (volumes : Table VolumeObject.id) (moves : Table Move.name) : Prop :=
  ∀ poolUID, poolUID ≠ "" → ∃ bytes, reservedBytesForPool volumes moves.rows poolUID = .ok bytes

def Move.HoldsExecution (move : Move) : Prop :=
  move.status.preparation = none ∧ ¬moveCleanupSettled move ∧ move.status.capacityApproved

theorem LedgerStands.volume (h : LedgerStands volumes moves) {volume : VolumeObject} (hmem : volume ∈ volumes.rows)
    (hne : poolUID ≠ "") : Tally.Fair VolumeObject.charge poolUID volume := by
  obtain ⟨bytes, hbytes⟩ := h poolUID hne
  exact (reservedBytesForPool_ok.mp hbytes).2.1 volume hmem

theorem LedgerStands.move (h : LedgerStands volumes moves) (hmem : m ∈ moves.rows) (hne : poolUID ≠ "") :
    Tally.Fair (moveReservation volumes) poolUID m := by
  obtain ⟨bytes, hbytes⟩ := h poolUID hne
  exact (reservedBytesForPool_ok.mp hbytes).2.2.1 m hmem

/-- A write keeps the ledger of a Pool when it keeps all charges in place and the sum of the Pool. -/
theorem LedgerStands.same (h : LedgerStands volumes moves) {volumes' : Table VolumeObject.id} {moves' : Table Move.name}
    (hvolumes : ∀ poolUID, poolUID ≠ "" → ∀ volume ∈ volumes'.rows, Tally.Fair VolumeObject.charge poolUID volume)
    (hmoves : ∀ poolUID, poolUID ≠ "" → ∀ move ∈ moves'.rows, Tally.Fair (moveReservation volumes') poolUID move)
    (hsum : ∀ poolUID, poolUID ≠ "" → ledgerSum volumes' moves'.rows poolUID = ledgerSum volumes moves.rows poolUID)
    (poolUID : String) :
    reservedBytesForPool volumes' moves'.rows poolUID = reservedBytesForPool volumes moves.rows poolUID := by
  by_cases hne : poolUID = ""
  · subst hne
    rfl
  · obtain ⟨bytes, hbytes⟩ := h poolUID hne
    obtain ⟨-, -, -, rfl, hfits⟩ := reservedBytesForPool_ok.mp hbytes
    rw [hbytes, ← hsum poolUID hne]
    exact reservedBytesForPool_ok.mpr ⟨hne, hvolumes poolUID hne, hmoves poolUID hne, rfl, by rwa [hsum poolUID hne]⟩

/-! ### Conversion -/

theorem LedgerStands.put_move (h : LedgerStands volumes moves) (hm : moves.find m.name = some m) (hname : k.name = m.name)
    (hcharge : moveReservation volumes k = moveReservation volumes m) (poolUID : String) :
    reservedBytesForPool volumes (moves.put k).rows poolUID = reservedBytesForPool volumes moves.rows poolUID := by
  have hrows : (moves.put k).rows = k :: moves.others m.name := by rw [← hname]; rfl
  refine h.same (fun uid hne volume hmem => h.volume hmem hne) ?_ ?_ poolUID
  · intro uid hne move hmove
    have hfair := (Table.forall_rows hm).mp fun move hmem => h.move hmem hne
    rw [hrows, List.mem_cons] at hmove
    rcases hmove with rfl | hmem
    · obtain ⟨charged, hcharged, hpositive⟩ := hfair.1
      exact ⟨charged, hcharge.trans hcharged, hpositive⟩
    · exact hfair.2 move hmem
  · intro uid hne
    have hshare : Tally.share (moveReservation volumes) uid k = Tally.share (moveReservation volumes) uid m := by
      rw [Tally.share, hcharge, Tally.share]
    rw [ledgerSum, ledgerSum, hrows, List.map_cons, List.sum_cons, hshare, Table.sum_rows _ hm]

theorem not_settled_of_approved (happroved : m.status.capacityApproved) (hphase : m.status.phase ≠ .succeeded) :
    ¬moveCleanupSettled m := by
  simp only [moveCleanupSettled, hphase, happroved]
  simp

theorem moveReservation_found {preparation : MovePreparation} {charged : String × Int}
    (hprepared : m.status.preparation = some preparation) (h : moveReservation volumes m = .ok charged) :
    ∃ state, volumes.find m.spec.volumeID = some ⟨m.spec.volumeID, state⟩ := by
  rw [moveReservation, if_pos (by simp [hprepared]), preparationReservation] at h
  split at h
  · simp at h
  · cases hvolume : volumes.find m.spec.volumeID with
    | none => simp [hvolume] at h
    | some volume =>
      obtain ⟨id, state⟩ := volume
      obtain rfl : id = m.spec.volumeID := Table.key_of_find hvolume
      exact ⟨state, rfl⟩

theorem convertPreparation_charge {status : MoveStatus} (hstands : LedgerStands volumes moves) (hm : moves.find m.name = some m)
    (hconvert : convertPreparation m v = .ok status) (hwrite : compareAndSetMoveStatus m status m = .ok k) :
    moveReservation volumes k = moveReservation volumes m := by
  obtain ⟨hold, source, hprepared, -, -, hsource, rfl⟩ := convertPreparation_inv hconvert
  obtain ⟨hk, -, -, -, -, hstep⟩ := compareAndSetMoveStatus_inv hwrite
  have hname : k.name = m.name := hstep.name
  have hspec : k.spec = m.spec := hstep.spec
  have hnone : k.status.preparation = none := by rw [hk]
  have happroved : k.status.capacityApproved := by rw [hk]
  have hphase : k.status.phase = m.status.phase := by rw [hk]
  obtain ⟨hwaiting, hpool⟩ : m.status.phase = .waitingForCapacity ∧ k.status.destinationPoolUID = hold.pool.uid := by
    cases hstep.hold with
    | idle before after approval intent release | start p before after unapproved noIntent phase =>
      simp [hprepared.held] at before
    | keep p before after => simp [after.held] at hnone
    | cancel p before after canceling cancelled unapproved noIntent => simp [happroved] at unapproved
    | approve p planned before after approval =>
      obtain rfl : hold = p := Option.some.inj (hprepared.held.symm.trans before.held)
      exact ⟨approval.waiting, approval.pool⟩
  have huid : hold.pool.uid ≠ "" := validIdentityToken_ne_empty hprepared.poolUID
  obtain ⟨planned, ⟨hplanned, hvalid, -⟩, hapart⟩ := hprepared.plan
  obtain rfl : source = planned := Option.some.inj (hsource.symm.trans hplanned)
  obtain ⟨charged, hcharged, -⟩ := hstands.move (Table.mem_of_find hm) huid
  obtain ⟨state, hvolume⟩ := moveReservation_found hprepared.held hcharged
  obtain ⟨-, ⟨-, hlock, -, hcopy⟩, ⟨-, -, hbytes⟩, rfl⟩ :=
    (moveReservation_prepared hprepared.held hvolume hsource).mp hcharged
  have hsource' : k.status.sourceCopy = some source := hstep.source source hsource
  have hopen : ¬moveCleanupSettled k := not_settled_of_approved happroved (by simp [hphase, hwaiting])
  rw [hcharged]
  refine (moveReservation_held hnone hopen happroved (hspec ▸ hvolume) hcopy hsource').mpr ⟨?_, ?_⟩
  · exact ⟨hlock.trans hname.symm, valid_poolUID_ne_empty hvalid, hpool ▸ huid⟩
  · -- the Volume still serves its source, so the Move is charged to its destination
    rw [hpool, if_neg hapart.symm, hbytes]

/-! ### Owner commit -/

/-- The other Moves of the Volume hold nothing, and the Moves of other Volumes do not see the write. -/
theorem commitOwner_others (hstands : LedgerStands volumes moves)
    (hvolume : volumes.find m.spec.volumeID = some ⟨m.spec.volumeID, v⟩) (hlock : v.activeMove = m.name)
    (hmem : k ∈ moves.others m.name) :
    moveReservation (volumes.put ⟨m.spec.volumeID, next⟩) k = moveReservation volumes k := by
  obtain ⟨hk, hother⟩ := List.mem_filter.mp hmem
  have hname : k.name ≠ m.name := by simpa using hother
  by_cases hsame : m.spec.volumeID = k.spec.volumeID
  · obtain ⟨charged, hcharged, -⟩ := hstands.move hk (show "any" ≠ "" by decide)
    obtain ⟨hnone, hunheld⟩ := moveReservation_unlocked (hsame ▸ hvolume) (hlock.trans_ne hname.symm) hcharged
    rw [moveReservation_unheld hnone hunheld, moveReservation_unheld hnone hunheld]
  · have hfind : (volumes.put ⟨m.spec.volumeID, next⟩).find k.spec.volumeID = volumes.find k.spec.volumeID :=
      Table.find_put_ne hsame
    rw [moveReservation, moveReservation, preparationReservation, preparationReservation, hfind]

/-- Before the commit the Volume is charged to the source and the Move to the destination, after it the other way round. -/
theorem commitOwner_charges {source target : CopyIdentity} {observed : State} (hstands : LedgerStands volumes moves)
    (hvolume : volumes.find m.spec.volumeID = some ⟨m.spec.volumeID, v⟩)
    (hheld : m.HoldsExecution) (hcopy : v.currentCopy = m.status.sourceCopy)
    (hcommit : OwnerCommitted m observed v next source target) :
    0 < v.capacityBytes ∧ VolumeObject.charge ⟨m.spec.volumeID, v⟩ = .ok (source.poolUID, v.capacityBytes) ∧
      VolumeObject.charge ⟨m.spec.volumeID, next⟩ = .ok (target.poolUID, v.capacityBytes) ∧
      moveReservation volumes m = .ok (target.poolUID, v.capacityBytes) ∧
      moveReservation (volumes.put ⟨m.spec.volumeID, next⟩) m = .ok (source.poolUID, v.capacityBytes) := by
  obtain ⟨hnone, hopen, happroved⟩ := hheld
  obtain ⟨hpool, hapart⟩ := hcommit.pool
  have hserving : v.currentCopy = some source := hcopy.trans hcommit.sourceCopy
  have hnext : next.currentCopy = some target := by rw [hcommit.record]; rfl
  have hlocked : next.activeMove = m.name := by rw [hcommit.record]; rfl
  have hbytes : next.capacityBytes = v.capacityBytes := by rw [hcommit.record]; rfl
  have hready : next.phase = .ready := by rw [hcommit.record]; rfl
  have howner : next.ownerNode = m.status.destinationNode := by rw [hcommit.record]; rfl
  obtain ⟨charged, hcharged, -⟩ := hstands.volume (Table.mem_of_find hvolume) (show "any" ≠ "" by decide)
  obtain ⟨⟨hnode, hpositive, hsourceUID, hon⟩, -⟩ := (charge_serving (by simp [hcommit.moving]) hserving).mp hcharged
  have htarget := hcommit.servesTarget
  simp only [CopyIdentity.servesFor, Bool.and_eq_true, decide_eq_true_eq] at htarget
  obtain ⟨⟨⟨⟨hvalid, -⟩, -⟩, -⟩, htargetNode⟩ := htarget
  have htargetUID := valid_poolUID_ne_empty hvalid
  refine ⟨hpositive, ?_, ?_, ?_, ?_⟩
  · exact (charge_serving (by simp [hcommit.moving]) hserving).mpr ⟨⟨hnode, hpositive, hsourceUID, hon⟩, rfl⟩
  · refine (charge_serving (by simp [hready]) hnext).mpr ⟨⟨?_, ?_, htargetUID, ?_⟩, by rw [hbytes]⟩
    · rw [howner]; exact hcommit.destination
    · rwa [hbytes]
    · rw [howner, htargetNode]
  · refine (moveReservation_held hnone hopen happroved hvolume hserving hcommit.sourceCopy).mpr ⟨⟨hcommit.lock, hsourceUID, ?_⟩, ?_⟩
    · rwa [← hpool]
    · rw [← hpool, if_neg hapart.symm]
  · refine (moveReservation_held hnone hopen happroved Table.find_put_self hnext hcommit.sourceCopy).mpr
      ⟨⟨hlocked, hsourceUID, ?_⟩, ?_⟩
    · rwa [← hpool]
    · rw [← hpool, if_pos rfl, hbytes]

theorem commitOwner_conserves {observed : State} (hstands : LedgerStands volumes moves)
    (hm : moves.find m.name = some m) (hvolume : volumes.find m.spec.volumeID = some ⟨m.spec.volumeID, v⟩)
    (hheld : m.HoldsExecution) (hcopy : v.currentCopy = m.status.sourceCopy) (hcommit : commitOwner m observed v = .ok next)
    (poolUID : String) :
    reservedBytesForPool (volumes.put ⟨m.spec.volumeID, next⟩) moves.rows poolUID =
      reservedBytesForPool volumes moves.rows poolUID := by
  obtain ⟨source, target, hcommitted⟩ := commitOwner_inv hcommit
  obtain ⟨hpositive, hbefore, hafter, hmoveBefore, hmoveAfter⟩ := commitOwner_charges hstands hvolume hheld hcopy hcommitted
  have hothers : ∀ k ∈ moves.others m.name,
      moveReservation (volumes.put ⟨m.spec.volumeID, next⟩) k = moveReservation volumes k :=
    fun k hk => commitOwner_others hstands hvolume hcommitted.lock hk
  refine hstands.same ?_ ?_ ?_ poolUID
  · intro uid hne volume hmem
    rcases List.mem_cons.mp hmem with rfl | hrest
    · exact ⟨_, hafter, fun _ => hpositive⟩
    · exact hstands.volume (List.mem_of_mem_filter hrest) hne
  · intro uid hne
    refine (Table.forall_rows hm).mpr ⟨⟨_, hmoveAfter, fun _ => hpositive⟩, fun k hk => ?_⟩
    obtain ⟨charged, hcharged, hfair⟩ := hstands.move (List.mem_of_mem_filter hk) hne
    exact ⟨charged, (hothers k hk).trans hcharged, hfair⟩
  · intro uid hne
    have hshares : (moves.others m.name).map (Tally.share (moveReservation (volumes.put ⟨m.spec.volumeID, next⟩)) uid) =
        (moves.others m.name).map (Tally.share (moveReservation volumes) uid) := by
      refine List.map_congr_left fun k hk => ?_
      rw [Tally.share, hothers k hk, Tally.share]
    have hput : (volumes.put ⟨m.spec.volumeID, next⟩).rows = ⟨m.spec.volumeID, next⟩ :: volumes.others m.spec.volumeID := rfl
    rw [ledgerSum, ledgerSum, hput, List.map_cons, List.sum_cons, Table.sum_rows _ hvolume, Table.sum_rows _ hm,
      Table.sum_rows _ hm, hshares, Tally.share_ok hbefore, Tally.share_ok hafter, Tally.share_ok hmoveBefore,
      Tally.share_ok hmoveAfter]
    omega

/-! ### Runs -/

/-- A commit reads no more of the Move than its name, its status and what it is about. -/
theorem commitOwner_congr {writer : Move} {observed : State} (hname : writer.name = m.name) (hstatus : writer.status = m.status)
    (hvolume : writer.spec.volumeID = m.spec.volumeID) (hsource : writer.spec.sourceNode = m.spec.sourceNode) :
    commitOwner writer observed v = commitOwner m observed v := by
  obtain ⟨_, _, _, _, _, ⟨_, _, _⟩, _, _⟩ := writer
  obtain ⟨_, _, _, _, _, ⟨_, _, _⟩, _, _⟩ := m
  simp only at hname hstatus hvolume hsource
  subst hname hstatus hvolume hsource
  rfl

/-- In a run, a commit is made for a Move that holds its capacity, and over a Volume that still serves the source. -/
theorem WorldRun.commit_holds {w w' : World} {past : List World} {name : String} {writer : Move} {observed : Observed}
    {d : Decision} {fresh : Option State} {wrote : Bool} (hr : WorldRun (w :: past)) (hs : WorldStep w (.write name) w')
    (hpass : w.passes name = some ⟨writer, .decided observed d fresh wrote⟩) (haction : d.action = .commitOwner) :
    ∃ m o v next, w.store.moves.find name = some m ∧ w.store.volume = some v ∧ w'.store.volume = some next ∧
      commitOwner m o v = .ok next ∧ m.HoldsExecution ∧ v.currentCopy = m.status.sourceCopy := by
  have hw := WorldRun.sound hr w (by simp)
  cases hs with
  | @write _ k stored obs e fr o kind t pass volume action current settled applied =>
    obtain ⟨rfl, rfl, rfl, -, -⟩ : writer = k ∧ observed = obs ∧ d = e ∧ fresh = fr ∧ wrote = false := by
      simpa [hpass] using pass
    obtain rfl : kind = .commitOwner := by simpa [haction, Action.volumeWrite, eq_comm] using action
    obtain ⟨m, hm, hstatus⟩ := (hw.passes name _ hpass).stored
    cases Store.apply_inv applied with
    | @volume _ v next hv accepted =>
      have hcommit : applyMobilityWrite .commitOwner writer o v = .ok next := accepted
      have hdecided := hw.decided hpass
      obtain ⟨m', hm', hk, heff⟩ := hw.coherent.effect (hw.passes name _ hpass).seen (hdecided.volume o volume) hv hcommit
      rw [(hw.passes name _ hpass).named] at hm'
      obtain rfl : m = m' := Option.some.inj (hm.symm.trans hm')
      obtain ⟨-, -, -, ⟨-, source, hsource, hserving, -⟩, -⟩ := heff.commit rfl
      have hphase := hstatus ▸ hdecided.commit_phase action
      have happroved : m.status.capacityApproved := by
        refine WorldRun.approved hr w (by simp) name m hm ?_
        rcases hphase with hp | hp <;> simp [hp, MovePhase.copies]
      have hnone : m.status.preparation = none := by
        by_contra hsome
        obtain ⟨p, hp⟩ := Option.ne_none_iff_exists'.mp hsome
        simp [((hw.coherent.bound name m hm).sound.prepared p hp).unapproved] at happroved
      have hopen : ¬moveCleanupSettled m :=
        not_settled_of_approved happroved (by rcases hphase with hp | hp <;> simp [hp])
      have hsame : commitOwner writer o v = commitOwner m o v :=
        commitOwner_congr hk.name.symm hstatus.symm hk.volumeID.symm hk.sourceNode.symm
      exact ⟨m, o, v, next, hm, hv, rfl, hsame ▸ hcommit, ⟨hnone, hopen, happroved⟩, hserving.trans hsource.symm⟩

/-- Conversion and owner commit leave the ledger of every Pool as it was. A commit does so for a Move that holds its
    capacity over a Volume that serves its source, and in a run every commit is one. -/
theorem ledger_conserved :
    (∀ volumes moves, LedgerStands volumes moves → ∀ m, moves.find m.name = some m →
      (∀ v status k, convertPreparation m v = .ok status → compareAndSetMoveStatus m status m = .ok k →
        ∀ poolUID, reservedBytesForPool volumes (moves.put k).rows poolUID = reservedBytesForPool volumes moves.rows poolUID) ∧
      ∀ observed v next, volumes.find m.spec.volumeID = some ⟨m.spec.volumeID, v⟩ → commitOwner m observed v = .ok next →
        m.HoldsExecution → v.currentCopy = m.status.sourceCopy → ∀ poolUID,
          reservedBytesForPool (volumes.put ⟨m.spec.volumeID, next⟩) moves.rows poolUID =
            reservedBytesForPool volumes moves.rows poolUID) ∧
    ∀ w past w' name writer observed d fresh wrote, WorldRun (w :: past) → w.step (.write name) = .ok w' →
      w.passes name = some ⟨writer, .decided observed d fresh wrote⟩ → d.action = .commitOwner →
      ∃ m o v next, w.store.moves.find name = some m ∧ w.store.volume = some v ∧ w'.store.volume = some next ∧
        commitOwner m o v = .ok next ∧ m.HoldsExecution ∧ v.currentCopy = m.status.sourceCopy := by
  refine ⟨fun volumes moves hstands m hm => ⟨?_, ?_⟩, ?_⟩
  · intro v status k hconvert hwrite
    obtain ⟨-, -, -, -, -, hstep⟩ := compareAndSetMoveStatus_inv hwrite
    exact hstands.put_move hm hstep.name (convertPreparation_charge hstands hm hconvert hwrite)
  · intro observed v next hvolume hcommit hheld hcopy
    exact commitOwner_conserves hstands hm hvolume hheld hcopy hcommit
  · intro w past w' name writer observed d fresh wrote hr hs hpass haction
    exact WorldRun.commit_holds hr (World.step_inv hs) hpass haction

/-! A migration at its conversion and at its owner commit. -/

def measuredMove : Move :=
  sampleMigration { planned .empty with
    phase := .waitingForCapacity, sourceBytes := 5, destinationNode := "node-b", destinationPoolUID := "pool-b-uid" }

def convertedMove : Except String Move := do
  let status ← convertPreparation measuredMove movingState
  compareAndSetMoveStatus measuredMove status measuredMove

def chargedMove : Move := sampleMigration (approved (planned .empty))

theorem ledgerStands_of_one {volume : VolumeObject} {charge reservation : String × Int} (hvolumes : volumes.rows = [volume])
    (hmoves : moves.rows = [m]) (hcharge : volume.charge = .ok charge) (hreservation : moveReservation volumes m = .ok reservation)
    (hpositive : 0 < charge.2) (hheld : reservation.1 = "" ∨ 0 < reservation.2) (hnonneg : 0 ≤ reservation.2)
    (hfits : charge.2 + reservation.2 ≤ ledgerBound.limit) : LedgerStands volumes moves := by
  intro poolUID hne
  refine ⟨_, reservedBytesForPool_ok.mpr ⟨hne, ?_, ?_, rfl, ?_⟩⟩
  · simpa [hvolumes] using ⟨charge, hcharge, fun _ => hpositive⟩
  · have hfair : reservation.1 = poolUID → 0 < reservation.2 := fun h => hheld.resolve_left (h ▸ hne)
    simpa [hmoves] using ⟨reservation, hreservation, hfair⟩
  · simp only [ledgerSum, hvolumes, hmoves, List.map_cons, List.map_nil, List.sum_cons, List.sum_nil, Tally.share_ok hcharge,
      Tally.share_ok hreservation]
    split <;> split <;> omega

theorem ledger_conserved_migration :
    (∃ k, convertedMove = .ok k ∧
      reservedBytesForPool (volumesOf movingState) ((movesOf measuredMove).put k).rows "pool-b-uid" = .ok 10) ∧
    ∃ next, commitOwner chargedMove movingState movingState = .ok next ∧
      reservedBytesForPool ((volumesOf movingState).put ⟨sampleVolumeID, next⟩) (movesOf chargedMove).rows "pool-a-uid" = .ok 10 := by
  have hcharge : VolumeObject.charge ⟨sampleVolumeID, movingState⟩ = .ok ("pool-a-uid", 10) := by decide +kernel
  constructor
  · have hheld : moveReservation (volumesOf movingState) measuredMove = .ok ("pool-b-uid", 10) := by decide +kernel
    have hstands : LedgerStands (volumesOf movingState) (movesOf measuredMove) :=
      ledgerStands_of_one rfl rfl hcharge hheld (by decide) (by decide) (by decide) (by decide)
    have hbefore : reservedBytesForPool (volumesOf movingState) (movesOf measuredMove).rows "pool-b-uid" = .ok 10 := by
      decide +kernel
    have hconverted : convertedMove.isOk = true := by decide +kernel
    cases hk : convertedMove with
    | error e => simp [hk, Except.isOk, Except.toBool] at hconverted
    | ok k =>
      obtain ⟨status, hconvert, hwrite⟩ := bind_ok.mp hk
      have hfound : (movesOf measuredMove).find measuredMove.name = some measuredMove := Table.find_put_self
      exact ⟨k, rfl, ((ledger_conserved.1 _ _ hstands _ hfound).1 _ _ _ hconvert hwrite _).trans hbefore⟩
  · have hheld : moveReservation (volumesOf movingState) chargedMove = .ok ("pool-b-uid", 10) := by decide +kernel
    have hstands : LedgerStands (volumesOf movingState) (movesOf chargedMove) :=
      ledgerStands_of_one rfl rfl hcharge hheld (by decide) (by decide) (by decide) (by decide)
    have hbefore : reservedBytesForPool (volumesOf movingState) (movesOf chargedMove).rows "pool-a-uid" = .ok 10 := by
      decide +kernel
    have hcommitted : (commitOwner chargedMove movingState movingState).isOk = true := by decide +kernel
    have hholds : chargedMove.HoldsExecution := ⟨rfl, not_settled_of_approved rfl (by decide), rfl⟩
    cases hnext : commitOwner chargedMove movingState movingState with
    | error e => simp [hnext, Except.isOk, Except.toBool] at hcommitted
    | ok next =>
      have hfound : (movesOf chargedMove).find chargedMove.name = some chargedMove := Table.find_put_self
      have hconserved := (ledger_conserved.1 _ _ hstands _ hfound).2 _ _ _ rfl hnext hholds rfl "pool-a-uid"
      exact ⟨next, rfl, hconserved.trans hbefore⟩

/-- The commit itself does not look at the approval: without one it charges the destination anew. -/
def unapprovedMove : Move := { chargedMove with status := { chargedMove.status with capacityApproved := false } }

theorem commitOwner_unapproved_charges :
    LedgerStands (volumesOf movingState) (movesOf unapprovedMove) ∧
      ∃ next, commitOwner unapprovedMove movingState movingState = .ok next ∧
        reservedBytesForPool (volumesOf movingState) (movesOf unapprovedMove).rows "pool-b-uid" = .ok 0 ∧
        reservedBytesForPool ((volumesOf movingState).put ⟨sampleVolumeID, next⟩) (movesOf unapprovedMove).rows
          "pool-b-uid" = .ok 10 := by
  have hcharge : VolumeObject.charge ⟨sampleVolumeID, movingState⟩ = .ok ("pool-a-uid", 10) := by decide +kernel
  have hunheld : moveReservation (volumesOf movingState) unapprovedMove = .ok ("", 0) := by decide +kernel
  have hafter : (do
      let next ← commitOwner unapprovedMove movingState movingState
      reservedBytesForPool ((volumesOf movingState).put ⟨sampleVolumeID, next⟩) (movesOf unapprovedMove).rows
        "pool-b-uid") = .ok 10 := by decide +kernel
  obtain ⟨next, hnext, hledger⟩ := bind_ok.mp hafter
  refine ⟨?_, next, hnext, by decide +kernel, hledger⟩
  exact ledgerStands_of_one rfl rfl hcharge hunheld (by decide) (by decide) (by decide) (by decide)

end ShiftPV
