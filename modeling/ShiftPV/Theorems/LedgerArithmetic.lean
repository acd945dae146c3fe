import ShiftPV.CapacityDecision
import ShiftPV.Theorems.TornLedger

/-! The arithmetic of the ledger is exact: a total that is checked addition by addition fails exactly when the sum does not
    fit, because no charge of a Pool is negative. -/

namespace ShiftPV
open Check

variable {volumes volumes' : Table VolumeObject.id} {moves moves' : List Move} {poolUID : String} {volume : VolumeObject}
  {m : Move} {requested reserved limit bytes : Int}

structure WellFormedLedger (volumes : Table VolumeObject.id) (moves : List Move) : Prop where
  owned : ∀ volume ∈ volumes.rows, ∃ charged, volume.charge = .ok charged
  held : ∀ move ∈ moves, ∃ charged, moveReservation volumes move = .ok charged

theorem charge_positive {charged : String × Int} (h : volume.charge = .ok charged) :
    charged.2 = volume.state.capacityBytes ∧ 0 < volume.state.capacityBytes := by
  rw [VolumeObject.charge, bind_ok] at h
  obtain ⟨uid, howner, h⟩ := h
  obtain rfl := pure_ok.mp h
  refine ⟨rfl, ?_⟩
  have hunstarted : volume.state.unstartedCreation → 0 < volume.state.capacityBytes := by
    intro hunstarted
    simp only [State.unstartedCreation, Bool.and_eq_true, decide_eq_true_eq] at hunstarted
    omega
  unfold ownerPoolUID at howner
  split at howner
  · rename_i hreserved
    simp only [State.hasInitialReservation, Bool.and_eq_true] at hreserved
    exact hunstarted hreserved.2
  · split at howner
    · rename_i hnone
      exact hunstarted hnone.1
    · split at howner
      · rw [seq_ok, require_ok] at howner
        exact howner.1.2.1
      · simp at howner

theorem WellFormedLedger.volume_fair (h : WellFormedLedger volumes moves) (hmem : volume ∈ volumes.rows) :
    Tally.Fair VolumeObject.charge poolUID volume := by
  obtain ⟨charged, hcharged⟩ := h.owned volume hmem
  obtain ⟨hbytes, hpositive⟩ := charge_positive hcharged
  exact ⟨charged, hcharged, fun _ => hbytes ▸ hpositive⟩

theorem WellFormedLedger.move_fair (h : WellFormedLedger volumes moves) (hmem : m ∈ moves) (hne : poolUID ≠ "") :
    Tally.Fair (moveReservation volumes) poolUID m := by
  obtain ⟨⟨uid, bytes⟩, hcharged⟩ := h.held m hmem
  refine ⟨(uid, bytes), hcharged, ?_⟩
  rintro rfl
  -- a Move is charged the capacity of a Volume that is charged itself
  obtain ⟨object, hfind, -, hbytes, -⟩ := moveReservation_charges hcharged hne
  obtain ⟨charged, hvolume⟩ := h.owned object (Table.mem_of_find hfind)
  exact hbytes ▸ (charge_positive hvolume).2

/-! ### Order -/

theorem moveReservation_perm (h : volumes.rows.Perm volumes'.rows) : moveReservation volumes = moveReservation volumes' := by
  funext m
  rw [moveReservation, moveReservation, preparationReservation, preparationReservation, Table.find_perm h]

theorem ledgerSum_perm (hvolumes : volumes.rows.Perm volumes'.rows) (hmoves : moves.Perm moves') :
    ledgerSum volumes moves poolUID = ledgerSum volumes' moves' poolUID := by
  rw [ledgerSum, ledgerSum, (hvolumes.map _).sum_eq, (hmoves.map _).sum_eq, moveReservation_perm hvolumes]

/-- The order of the records decides neither whether the ledger stands nor what it says. -/
theorem reservedBytesForPool_perm (hvolumes : volumes.rows.Perm volumes'.rows) (hmoves : moves.Perm moves') :
    reservedBytesForPool volumes moves poolUID = .ok bytes ↔ reservedBytesForPool volumes' moves' poolUID = .ok bytes := by
  rw [reservedBytesForPool_ok, reservedBytesForPool_ok, ledgerSum_perm hvolumes hmoves, moveReservation_perm hvolumes]
  simp only [hvolumes.mem_iff, hmoves.mem_iff]

/-! ### Comparison -/

theorem reserved_range (h : reservedBytesForPool volumes moves poolUID = .ok reserved) : 0 ≤ reserved ∧ reserved ≤ maxInt64 := by
  obtain ⟨-, hvolumes, hmoves, rfl, hlimit⟩ := reservedBytesForPool_ok.mp h
  have howned := Tally.sum_share_nonneg hvolumes
  have hheld := Tally.sum_share_nonneg hmoves
  refine ⟨?_, hlimit⟩
  rw [ledgerSum]
  omega

theorem int64_sub {a b : Int} (ha : 0 ≤ a ∧ a ≤ maxInt64) (hb : 0 ≤ b ∧ b ≤ maxInt64) : int64 (a - b) = a - b := by
  unfold maxInt64 at ha hb
  rw [int64, Int.bmod_eq_of_le] <;> omega

theorem fitsReservation_iff (hreserved : 0 ≤ reserved) :
    fitsReservation requested reserved limit ↔ 0 < requested ∧ requested + reserved ≤ limit := by
  simp only [fitsReservation, Bool.and_eq_true, decide_eq_true_eq]
  omega

theorem parseLimitBytes_positive {r : PoolReader} {text : String} (h : r.parseLimitBytes text = .ok limit) : 0 < limit := by
  rw [PoolReader.parseLimitBytes, bind_ok] at h
  obtain ⟨value, -, h⟩ := h
  split at h
  · simp at h
  · rw [seq_ok, require_ok] at h
    obtain ⟨hpositive, h⟩ := h
    exact pure_ok.mp h ▸ hpositive

/-- The ledger of well-formed records is their sum or overflows, in every order, and the two ways to admit a request agree
    with the comparison of unbounded numbers. -/
theorem ledger_exact (volumes : Table VolumeObject.id) (moves : List Move) (poolUID : String) (hne : poolUID ≠ "") :
    (WellFormedLedger volumes moves →
      (ledgerSum volumes moves poolUID ≤ maxInt64 → reservedBytesForPool volumes moves poolUID =
        .ok (ledgerSum volumes moves poolUID)) ∧
      (maxInt64 < ledgerSum volumes moves poolUID → ∃ e, reservedBytesForPool volumes moves poolUID = .error e)) ∧
    (∀ volumes' moves', volumes.rows.Perm volumes'.rows → moves.Perm moves' → ∀ bytes,
      reservedBytesForPool volumes moves poolUID = .ok bytes ↔ reservedBytesForPool volumes' moves' poolUID = .ok bytes) ∧
    (∀ (r : PoolReader) (pool : RegisteredPool) (limit requested reserved : Int), pool.uid = poolUID →
      r.parseLimitBytes pool.capacityLimit = .ok limit → limit ≤ maxInt64 →
      reservedBytesForPool volumes moves poolUID = .ok reserved →
      preparationPoolFits r pool requested volumes moves = .ok (fitsReservation requested reserved limit) ∧
        (fitsReservation requested reserved limit ↔ 0 < requested ∧ requested + reserved ≤ limit)) := by
  refine ⟨fun hwell => ⟨fun hfits => ?_, fun hover => ?_⟩, fun volumes' moves' hvolumes hmoves bytes =>
    reservedBytesForPool_perm hvolumes hmoves, ?_⟩
  · exact reservedBytesForPool_ok.mpr
      ⟨hne, fun volume hmem => hwell.volume_fair hmem, fun m hmem => hwell.move_fair hmem hne, rfl, hfits⟩
  · cases hread : reservedBytesForPool volumes moves poolUID with
    | error e => exact ⟨e, rfl⟩
    | ok bytes =>
      obtain ⟨-, -, -, rfl, hlimit⟩ := reservedBytesForPool_ok.mp hread
      exact absurd hlimit (not_le.mpr hover)
  · rintro r pool limit requested reserved rfl hlimit hrange hread
    obtain ⟨hnonneg, hmax⟩ := reserved_range hread
    have hpositive : 0 < limit := parseLimitBytes_positive hlimit
    refine ⟨?_, fitsReservation_iff hnonneg⟩
    have hdiff := int64_sub ⟨hpositive.le, hrange⟩ ⟨hnonneg, hmax⟩
    simp only [preparationPoolFits, hlimit, hread]
    show Except.ok (decide (requested > 0) && decide (requested ≤ int64 (limit - reserved))) = _
    rw [hdiff, Except.ok.injEq, Bool.eq_iff_iff, fitsReservation_iff hnonneg, Bool.and_eq_true, decide_eq_true_eq,
      decide_eq_true_eq]
    omega

theorem ledger_exact_approved : ledgerSum (volumesOf movingState) [chargedMove] "pool-b-uid" = 10 ∧
    reservedBytesForPool (volumesOf movingState) [chargedMove] "pool-b-uid" =
      .ok (ledgerSum (volumesOf movingState) [chargedMove] "pool-b-uid") := by
  have hcharge : VolumeObject.charge ⟨sampleVolumeID, movingState⟩ = .ok ("pool-a-uid", 10) := by decide +kernel
  have hheld : moveReservation (volumesOf movingState) chargedMove = .ok ("pool-b-uid", 10) := by decide +kernel
  have hrows : (volumesOf movingState).rows = [⟨sampleVolumeID, movingState⟩] := rfl
  have hwell : WellFormedLedger (volumesOf movingState) [chargedMove] :=
    ⟨by simp [hrows, hcharge], by simp [hheld]⟩
  have hsum : ledgerSum (volumesOf movingState) [chargedMove] "pool-b-uid" = 10 := by
    simp [ledgerSum, hrows, Tally.share_ok hcharge, Tally.share_ok hheld]
  have hfits : ledgerSum (volumesOf movingState) [chargedMove] "pool-b-uid" ≤ maxInt64 := by rw [hsum]; decide
  exact ⟨hsum, ((ledger_exact _ _ "pool-b-uid" (by decide)).1 hwell).1 hfits⟩

end ShiftPV
