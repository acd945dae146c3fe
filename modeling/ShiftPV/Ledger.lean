import ShiftPV.Lib.Table
import ShiftPV.Lib.Tally
import ShiftPV.MoveRegistry

/-! The capacity ledger. What a Pool has promised is nowhere stored: it is computed from the Volumes and the Moves, each of
    which is charged to at most one Pool. -/

namespace ShiftPV
open Check

structure VolumeObject where
  id : String
  state : State

def ledgerBound : Tally.Bound :=
  { limit := 2 ^ 63 - 1, notPositive := "capacity must be positive", overflows := "Pool reservation total overflows int64" }

/-- The Pool a Volume is charged to, empty for a request that reserves nothing yet. -/
def ownerPoolUID (volumeID : String) (state : State) : Except String String :=
  if state.hasInitialReservation then
    return (state.initialPool.map (·.uid)).getD ""
  else if state.unstartedCreation ∧ state.initialPool = none then
    return ""
  else
    match state.currentCopy with
    | some copy => do
      require (state.ownerNode ≠ "" ∧ 0 < state.capacityBytes ∧ copy.poolUID ≠ "" ∧ copy.nodeName = state.ownerNode)
        ("volume " ++ quoted volumeID ++ " has incomplete capacity owner identity")
      return copy.poolUID
    | none => throw ("volume " ++ quoted volumeID ++ " has incomplete capacity owner identity")

def VolumeObject.charge (volume : VolumeObject) : Except String (String × Int) := do
  let poolUID ← ownerPoolUID volume.id volume.state
  return (poolUID, volume.state.capacityBytes)

def preparationReservation (volumes : Table VolumeObject.id) (move : Move) : Except String (String × Int) :=
  match validateMovePreparation move with
  | .error e => throw ("move " ++ quoted move.name ++ " has invalid preparation: " ++ e)
  | .ok () =>
    match volumes.find move.spec.volumeID, move.status.sourceCopy, move.status.preparation with
    | none, _, _ => throw ("move " ++ quoted move.name ++ " preparation has no volume state")
    | some { state, .. }, some source, some preparation => do
      require (state.uid = source.volumeUID ∧ state.activeMove = move.name ∧ state.ownerNode = move.spec.sourceNode ∧
          state.currentCopy = some source)
        ("move " ++ quoted move.name ++ " preparation does not match the active volume owner")
      require (¬state.deleting ∧ (state.phase = .ready ∨ state.phase = .moving ∨ state.phase = .blocked) ∧
          state.capacityBytes = preparation.reservedBytes)
        ("move " ++ quoted move.name ++ " preparation does not match the volume capacity or lifecycle")
      return (preparation.pool.uid, preparation.reservedBytes)
    | _, _, _ => throw ("move " ++ quoted move.name ++ " preparation does not match the active volume owner")

/-- The Pool a Move is charged to. A preparation counts whatever phase is recorded. -/
def moveReservation (volumes : Table VolumeObject.id) (move : Move) : Except String (String × Int) :=
  if move.status.preparation.isSome then
    preparationReservation volumes move
  else if moveCleanupSettled move ∨ ¬move.status.capacityApproved then
    return ("", 0)
  else
    match volumes.find move.spec.volumeID with
    | none => throw ("move " ++ quoted move.name ++ " has no volume state")
    | some { state, .. } =>
      match state.currentCopy, move.status.sourceCopy with
      | some current, some source => do
        require (state.activeMove = move.name ∧ source.poolUID ≠ "" ∧ move.status.destinationPoolUID ≠ "")
          ("move " ++ quoted move.name ++ " has incomplete capacity hold identity")
        -- after the owner commit the source copy stays held until its cleanup
        return (if current.poolUID = move.status.destinationPoolUID then source.poolUID else move.status.destinationPoolUID,
          state.capacityBytes)
      | _, _ => throw ("move " ++ quoted move.name ++ " has incomplete capacity hold identity")

def ownedBytesForPool (volumes : Table VolumeObject.id) (poolUID : String) : Except String Int :=
  Tally.total ledgerBound VolumeObject.charge poolUID 0 volumes.rows

def moveHeldBytesForPool (total : Int) (volumes : Table VolumeObject.id) (moves : List Move) (poolUID : String) :
    Except String Int :=
  Tally.total ledgerBound (moveReservation volumes) poolUID total moves

def reservedBytesForPool (volumes : Table VolumeObject.id) (moves : List Move) (poolUID : String) : Except String Int := do
  require (poolUID ≠ "") "Pool UID is required"
  let total ← ownedBytesForPool volumes poolUID
  moveHeldBytesForPool total volumes moves poolUID

/-! ### The ledger as a sum -/

def ledgerSum (volumes : Table VolumeObject.id) (moves : List Move) (poolUID : String) : Int :=
  (volumes.rows.map (Tally.share VolumeObject.charge poolUID)).sum +
    (moves.map (Tally.share (moveReservation volumes) poolUID)).sum

theorem reservedBytesForPool_ok {volumes : Table VolumeObject.id} {moves : List Move} {poolUID : String} {bytes : Int} :
    reservedBytesForPool volumes moves poolUID = .ok bytes ↔ poolUID ≠ "" ∧
      (∀ volume ∈ volumes.rows, Tally.Fair VolumeObject.charge poolUID volume) ∧
      (∀ move ∈ moves, Tally.Fair (moveReservation volumes) poolUID move) ∧
      bytes = ledgerSum volumes moves poolUID ∧ bytes ≤ ledgerBound.limit := by
  have hstart : (0 : Int) ≤ ledgerBound.limit := by decide
  rw [reservedBytesForPool, seq_ok, require_ok, bind_ok]
  refine and_congr_right fun _ => ?_
  constructor
  · rintro ⟨owned, howned, hheld⟩
    obtain ⟨hvolumes, rfl, hlimit⟩ := (Tally.total_ok hstart).mp howned
    obtain ⟨hmoves, hsum, hfits⟩ := (Tally.total_ok hlimit).mp hheld
    refine ⟨hvolumes, hmoves, ?_, hfits⟩
    rw [hsum, zero_add, ledgerSum]
  · rintro ⟨hvolumes, hmoves, rfl, hfits⟩
    have hheld := Tally.sum_share_nonneg hmoves
    have hlimit : 0 + (volumes.rows.map (Tally.share VolumeObject.charge poolUID)).sum ≤ ledgerBound.limit := by
      rw [ledgerSum] at hfits
      omega
    refine ⟨_, (Tally.total_ok hstart).mpr ⟨hvolumes, rfl, hlimit⟩, ?_⟩
    exact (Tally.total_ok hlimit).mpr ⟨hmoves, by rw [zero_add, ledgerSum], hfits⟩

/-! ### Charges -/

variable {volumes : Table VolumeObject.id} {id : String} {state : State} {copy source : CopyIdentity} {move : Move}

theorem ownerPoolUID_serving {uid : String} (hphase : state.phase ≠ .unset) (hcopy : state.currentCopy = some copy) :
    ownerPoolUID id state = .ok uid ↔
      (state.ownerNode ≠ "" ∧ 0 < state.capacityBytes ∧ copy.poolUID ≠ "" ∧ copy.nodeName = state.ownerNode) ∧
        copy.poolUID = uid := by
  have hstarted : ¬state.unstartedCreation := by simp [State.unstartedCreation, hphase]
  have hreserved : ¬state.hasInitialReservation := by simp [State.hasInitialReservation, hstarted]
  rw [ownerPoolUID, if_neg hreserved, if_neg (fun h => hstarted h.1), hcopy]
  simp only [seq_ok, require_ok, pure_ok]

theorem charge_serving {charged : String × Int} (hphase : state.phase ≠ .unset) (hcopy : state.currentCopy = some copy) :
    VolumeObject.charge ⟨id, state⟩ = .ok charged ↔
      (state.ownerNode ≠ "" ∧ 0 < state.capacityBytes ∧ copy.poolUID ≠ "" ∧ copy.nodeName = state.ownerNode) ∧
        charged = (copy.poolUID, state.capacityBytes) := by
  simp only [VolumeObject.charge, bind_ok, ownerPoolUID_serving hphase hcopy, pure_ok]
  constructor
  · rintro ⟨uid, ⟨hcomplete, rfl⟩, rfl⟩
    exact ⟨hcomplete, rfl⟩
  · rintro ⟨hcomplete, rfl⟩
    exact ⟨_, ⟨hcomplete, rfl⟩, rfl⟩

theorem moveReservation_unheld (hnone : move.status.preparation = none)
    (h : moveCleanupSettled move ∨ ¬move.status.capacityApproved) : moveReservation volumes move = .ok ("", 0) := by
  rw [moveReservation, if_neg (by simp [hnone]), if_pos h]
  rfl

/-- An approved Move is charged to its destination, or once the Volume serves from there, to its source. -/
theorem moveReservation_held {charged : String × Int} (hnone : move.status.preparation = none)
    (hopen : ¬moveCleanupSettled move) (happroved : move.status.capacityApproved)
    (hvolume : volumes.find move.spec.volumeID = some ⟨id, state⟩) (hcopy : state.currentCopy = some copy)
    (hsource : move.status.sourceCopy = some source) :
    moveReservation volumes move = .ok charged ↔
      (state.activeMove = move.name ∧ source.poolUID ≠ "" ∧ move.status.destinationPoolUID ≠ "") ∧
        charged = (if copy.poolUID = move.status.destinationPoolUID then source.poolUID else move.status.destinationPoolUID,
          state.capacityBytes) := by
  rw [moveReservation, if_neg (by simp [hnone]), if_neg (by simp [hopen, happroved]), hvolume]
  simp only [hcopy, hsource, seq_ok, require_ok, pure_ok]
  exact and_congr_right fun _ => eq_comm

theorem moveReservation_prepared {charged : String × Int} {preparation : MovePreparation}
    (hprepared : move.status.preparation = some preparation) (hvolume : volumes.find move.spec.volumeID = some ⟨id, state⟩)
    (hsource : move.status.sourceCopy = some source) :
    moveReservation volumes move = .ok charged ↔ validateMovePreparation move = .ok () ∧
      (state.uid = source.volumeUID ∧ state.activeMove = move.name ∧ state.ownerNode = move.spec.sourceNode ∧
        state.currentCopy = some source) ∧
      (¬state.deleting ∧ (state.phase = .ready ∨ state.phase = .moving ∨ state.phase = .blocked) ∧
        state.capacityBytes = preparation.reservedBytes) ∧
      charged = (preparation.pool.uid, preparation.reservedBytes) := by
  rw [moveReservation, if_pos (by simp [hprepared]), preparationReservation]
  split
  · rename_i e he
    simp [he]
  · rename_i hvalid
    simp only [hvolume, hsource, hprepared, seq_ok, require_ok, pure_ok, hvalid, true_and]
    exact and_congr_right fun _ => and_congr_right fun _ => eq_comm

theorem moveReservation_unlocked {charged : String × Int} (hvolume : volumes.find move.spec.volumeID = some ⟨id, state⟩)
    (hlock : state.activeMove ≠ move.name) (h : moveReservation volumes move = .ok charged) :
    move.status.preparation = none ∧ (moveCleanupSettled move ∨ ¬move.status.capacityApproved) := by
  unfold moveReservation at h
  split at h
  · unfold preparationReservation at h
    split at h
    · simp at h
    · split at h
      · simp_all
      · rename_i hfound _ _
        obtain ⟨rfl, rfl⟩ : id = _ ∧ state = _ := by simpa [hvolume] using hfound
        rw [seq_ok, require_ok] at h
        exact absurd h.1.2.1 hlock
      · simp at h
  · rename_i hnone
    refine ⟨by simpa using hnone, ?_⟩
    by_contra hheld
    rw [if_neg hheld, hvolume] at h
    simp only at h
    split at h
    · rw [seq_ok, require_ok] at h
      exact hlock h.1.1
    · simp at h

end ShiftPV
