import Mathlib.Algebra.Order.Group.Int
import ShiftPV.Theorems.LedgerCoverage
import ShiftPV.Theorems.PoolCharges

/-! The ledger of two reads. An admission lists the Volumes first and the Moves later, and in between the Moves may take any
    step that does not concern the Pool. -/

namespace ShiftPV
open Check

variable {w w' : World} {act : WorldAct} {name uid : String} {m n : Move} {v x : State} {past : List World} {id : String}
  {listed volumes : Table VolumeObject.id} {bytes : Int}

/-! ### Bytes -/

open Classical in
noncomputable def World.held (w : World) (uid : String) : Int :=
  if w.Charges uid then (w.store.volume.map (·.capacityBytes)).getD 0 else 0

theorem charge_refers (h : VolumeObject.charge ⟨id, v⟩ = .ok (uid, bytes)) (hne : uid ≠ "") :
    v.refersTo uid ∧ bytes = v.capacityBytes := by
  rw [VolumeObject.charge, bind_ok] at h
  obtain ⟨pool, hpool, hcharged⟩ := h
  obtain ⟨rfl, rfl⟩ := Prod.mk.inj (pure_ok.mp hcharged)
  refine ⟨State.refersTo_iff.mpr ?_, rfl⟩
  rcases ownerPoolUID_inv hpool hne with ⟨hreserved, hpool⟩ | ⟨-, copy, hcopy, hserved, -⟩
  · simp only [State.hasInitialReservation, Bool.and_eq_true] at hreserved
    exact .inl ⟨hreserved.2, hpool⟩
  · exact .inr ⟨copy, hcopy, hserved⟩

theorem refers_charge {charged : String × Int} (h : VolumeObject.charge ⟨id, v⟩ = .ok charged) (href : v.refersTo uid) :
    charged = (uid, v.capacityBytes) := by
  rw [VolumeObject.charge, bind_ok] at h
  obtain ⟨pool, hpool, hcharged⟩ := h
  rw [← pure_ok.mp hcharged, Prod.mk.injEq]
  refine ⟨?_, rfl⟩
  unfold ownerPoolUID at hpool
  rcases State.refersTo_iff.mp href with ⟨hunstarted, reserved, hreserved, huid⟩ | ⟨copy, hcopy, huid⟩
  · split at hpool
    · rw [← pure_ok.mp hpool, hreserved]
      exact huid
    · simp [hunstarted, hreserved, (unstartedCreation_inv hunstarted).2.2.2.2.2.2.1] at hpool
  · have hstarted : v.unstartedCreation = false := not_unstarted_of_copy hcopy
    rw [if_neg (by simp [State.hasInitialReservation, hstarted]), if_neg (by simp [hstarted]), hcopy] at hpool
    simp only [seq_ok, require_ok, pure_ok] at hpool
    exact hpool.2 ▸ huid

theorem moveReservation_charges (h : moveReservation volumes m = .ok (uid, bytes)) (hne : uid ≠ "") :
    ∃ object, volumes.find m.spec.volumeID = some object ∧ object.state.activeMove = m.name ∧
      bytes = object.state.capacityBytes ∧
      ∀ w : World, w.store.volume = some object.state → MoveCharges w m.name m uid := by
  unfold moveReservation at h
  split at h
  · unfold preparationReservation at h
    split at h
    · simp at h
    · split at h
      · simp at h
      · rename_i hold hvolume _ hprepared
        simp only [seq_ok, require_ok, pure_ok, Prod.mk.injEq] at h
        obtain ⟨⟨-, hlock, -⟩, ⟨-, -, hbytes⟩, hpool, hreserved⟩ := h
        exact ⟨_, hvolume, hlock, hreserved.symm.trans hbytes.symm, fun w _ => .prepared hold hprepared hpool⟩
      · simp at h
  · rename_i hnone
    split at h
    · exact absurd (congrArg Prod.fst (pure_ok.mp h)).symm hne
    · rename_i hheld
      rw [not_or, not_not] at hheld
      split at h
      · simp at h
      · rename_i hvolume
        split at h
        · rename_i copy source hcopy hsource
          simp only [seq_ok, require_ok, pure_ok, Prod.mk.injEq] at h
          obtain ⟨⟨hlock, -⟩, hpool, hbytes⟩ := h
          have hholds : m.HoldsExecution := ⟨by simpa using hnone, hheld.1, hheld.2⟩
          exact ⟨_, hvolume, hlock, hbytes.symm,
            fun w hw => .approved _ copy source hholds hw hlock hcopy hsource hpool⟩
        · simp at h

/-! ### One volume -/

theorem World.held_nonneg (hr : WorldRun (w :: past)) : 0 ≤ w.held uid := by
  have haccount := WorldRun.accounted hr w (by simp)
  unfold World.held
  split
  · cases hv : w.store.volume with
    | none => simp
    | some v => simpa using (haccount.positive v (.head hv)).le
  · exact le_rfl

theorem World.Charges.held (h : w.Charges uid) (hv : w.store.volume = some v) : w.held uid = v.capacityBytes := by
  simp [World.held, h, hv]

theorem World.held_le (hr : WorldRun (w :: past)) (hv : w.store.volume = some v) : w.held uid ≤ v.capacityBytes := by
  have haccount := WorldRun.accounted hr w (by simp)
  unfold World.held
  split
  · simp [hv]
  · exact (haccount.positive v (.head hv)).le

theorem World.held_none (h : w.store.volume = none) : w.held uid = 0 := by
  simp [World.held, h]

theorem WorldStep.held_le (hr : WorldRun (w :: past)) (hs : WorldStep w act w') (hadmits : act.admits uid = false) :
    w'.held uid ≤ w.held uid := by
  cases hx : w'.store.volume with
  | none =>
    rw [World.held_none hx]
    exact World.held_nonneg hr
  | some x =>
    by_cases hcharges : w'.Charges uid
    · obtain ⟨v, hv, haccount, -⟩ := hs.account hx
      rw [hcharges.held hx, (hcharges.back hr hs hadmits).held hv, haccount.bytes]
    · rw [World.held, if_neg hcharges]
      exact World.held_nonneg hr

/-- The Move that holds the lock of a Volume takes no room in the Pool that the Volume refers to. -/
theorem MoveCharges.apart (h : MoveCharges w v.activeMove m uid) (hw : WorldSound w) (hv : w.store.volume = some v)
    (hm : w.store.moves.find v.activeMove = some m) : v.refersTo uid = false := by
  rw [← Bool.not_eq_true]
  intro href
  have hname : v.activeMove ≠ "" := Table.key_of_find hm ▸ (hw.coherent.bound _ m hm).named
  have hsound := hw.coherent.sound v (.head hv)
  have hset : v.phase ≠ .unset := fun hunset => hname (hsound.unset hunset).1
  obtain ⟨copy, hcopy, huid⟩ := (refersTo_started hset).mp href
  cases h with
  | prepared hold held pool =>
    have hprepared := (hw.coherent.bound _ m hm).sound.prepared hold held
    obtain ⟨source, hsource, hforeign⟩ := hprepared.plan
    obtain ⟨c, hc, hserved, -⟩ := (hprepared.source_held hw hv hm).copy
    obtain rfl : c = copy := Option.some.inj (hserved.symm.trans hcopy)
    obtain rfl : c = source := Option.some.inj (hc.symm.trans hsource.1)
    exact hforeign (pool.trans huid.symm)
  | approved x copy' source executing volume lock served planned pool =>
    obtain rfl : x = v := Option.some.inj (volume.symm.trans hv)
    obtain rfl : copy' = copy := Option.some.inj (served.symm.trans hcopy)
    obtain ⟨source', target, hsource, -, -, hforeign, -⟩ := executing.planned hw hm
    obtain rfl : source' = source := Option.some.inj (hsource.symm.trans planned)
    split at pool
    · rename_i hserves
      exact hforeign (hserves.symm.trans (huid.trans pool.symm))
    · rename_i hserves
      exact hserves (huid.trans pool.symm)

theorem share_unlocked (hne : uid ≠ "") (hid : m.spec.volumeID = id)
    (hlock : ∀ object, listed.find id = some object → object.state.activeMove ≠ m.name) :
    Tally.share (moveReservation listed) uid m = 0 := by
  cases hcharge : moveReservation listed m with
  | error e => simp [Tally.share, hcharge]
  | ok charged =>
    rw [Tally.share_ok hcharge, if_neg]
    rintro rfl
    obtain ⟨object, hfind, hactive, -⟩ := moveReservation_charges hcharge hne
    exact hlock object (hid ▸ hfind) hactive

theorem sum_share_moves (hw : WorldSound w) (hne : uid ≠ "") (hv : listed.find w.store.volumeID = some ⟨id, v⟩) :
    (w.store.moves.rows.map (Tally.share (moveReservation listed) uid)).sum =
      ((w.store.moves.find v.activeMove).map (Tally.share (moveReservation listed) uid)).getD 0 := by
  refine Table.sum_rows_of_one _ _ ?_
  intro m hm hname
  refine share_unlocked hne (hw.coherent.bound m.name m (Table.find_of_mem hm)).volumeID ?_
  intro object hobject
  obtain rfl := Option.some.inj (hv.symm.trans hobject)
  exact Ne.symm hname

theorem shares_le_held (hr : WorldRun (w :: past)) (hne : uid ≠ "") (hlisted : listed.find w.store.volumeID = w.volumeObject) :
    (w.volumeObject.map (Tally.share VolumeObject.charge uid)).getD 0 +
      (w.store.moves.rows.map (Tally.share (moveReservation listed) uid)).sum ≤ w.held uid := by
  have hw := WorldRun.sound hr w (by simp)
  have hnonneg : 0 ≤ w.held uid := World.held_nonneg hr
  cases hv : w.store.volume with
  | none =>
    have hobject : w.volumeObject = none := by simp [World.volumeObject, hv]
    have hmoves : (w.store.moves.rows.map (Tally.share (moveReservation listed) uid)).sum = 0 := by
      refine List.sum_eq_zero ?_
      intro amount hamount
      obtain ⟨m, hmem, rfl⟩ := List.mem_map.mp hamount
      refine share_unlocked hne (hw.coherent.bound m.name m (Table.find_of_mem hmem)).volumeID ?_
      simp [hlisted, hobject]
    simpa [hobject, hmoves] using hnonneg
  | some v =>
    have hobject : w.volumeObject = some ⟨w.store.volumeID, v⟩ := by simp [World.volumeObject, hv]
    rw [hobject] at hlisted
    rw [sum_share_moves hw hne hlisted, hobject, Option.map_some, Option.getD_some]
    -- at most one of the two is charged, and then with the capacity
    have hvolume : Tally.share VolumeObject.charge uid ⟨w.store.volumeID, v⟩ = 0 ∨
        v.refersTo uid ∧ Tally.share VolumeObject.charge uid ⟨w.store.volumeID, v⟩ = v.capacityBytes := by
      refine Tally.share_cases.imp_right ?_
      rintro ⟨bytes, hcharge, hshare⟩
      rw [hshare]
      exact charge_refers hcharge hne
    have hmove : ((w.store.moves.find v.activeMove).map (Tally.share (moveReservation listed) uid)).getD 0 = 0 ∨
        ((w.store.moves.find v.activeMove).map (Tally.share (moveReservation listed) uid)).getD 0 = v.capacityBytes ∧
          ∃ m, w.store.moves.find v.activeMove = some m ∧ MoveCharges w v.activeMove m uid := by
      cases hm : w.store.moves.find v.activeMove with
      | none => exact .inl rfl
      | some m =>
        rw [Option.map_some, Option.getD_some]
        refine Tally.share_cases.imp_right ?_
        rintro ⟨bytes, hcharge, hshare⟩
        obtain ⟨object, hfind, -, hbytes, hcharges⟩ := moveReservation_charges hcharge hne
        rw [(hw.coherent.bound _ m hm).volumeID, hlisted] at hfind
        obtain rfl := Option.some.inj hfind
        exact ⟨hshare.trans hbytes, m, rfl, Table.key_of_find hm ▸ hcharges w hv⟩
    rcases hvolume with hvolume | ⟨href, hvolume⟩ <;> rcases hmove with hmove | ⟨hmove, m, hm, hcharges⟩
    · rwa [hvolume, hmove]
    · have hcharged : w.Charges uid := .inr ⟨_, m, hm, hcharges⟩
      rw [hvolume, hmove, hcharged.held hv, zero_add]
    · have hcharged : w.Charges uid := .inl ⟨v, hv, href⟩
      rw [hvolume, hmove, hcharged.held hv, add_zero]
    · simp [hcharges.apart hw hv hm] at href

/-- What a listed Volume says about a world, after steps that left the Pool alone. -/
structure Listed (w : World) (uid : String) (v : State) : Prop where
  seen : SeenVolume w.history v
  stayed : ∀ x, w.store.volume = some x → x.refersTo uid → v.refersTo uid

/-- The ledger of an older list of the Volumes does not report less than a volume holds. -/
theorem held_le_shares (hr : WorldRun (w :: past)) (hv : listed.find w.store.volumeID = some ⟨id, v⟩)
    (hlisted : Listed w uid v) (hvolume : Tally.Fair VolumeObject.charge uid ⟨id, v⟩)
    (hmoves : ∀ m ∈ w.store.moves.rows, Tally.Fair (moveReservation listed) uid m) :
    w.held uid ≤ Tally.share VolumeObject.charge uid ⟨id, v⟩ +
      (w.store.moves.rows.map (Tally.share (moveReservation listed) uid)).sum := by
  have hw := WorldRun.sound hr w (by simp)
  have haccount := WorldRun.accounted hr w (by simp)
  have hsum := Tally.sum_share_nonneg hmoves
  have hshare := hvolume.share_nonneg
  by_cases hcharges : w.Charges uid
  swap
  · rw [World.held, if_neg hcharges]
    omega
  have hbytes : w.held uid ≤ v.capacityBytes := by
    cases hx : w.store.volume with
    | none =>
      rw [World.held_none hx]
      exact (haccount.positive v hlisted.seen).le
    | some x =>
      rw [hcharges.held hx]
      exact (haccount.constant x v (.head hx) hlisted.seen).le
  -- either the Volume or the Move with its lock is charged the capacity
  have hreferred : v.refersTo uid → w.held uid ≤ Tally.share VolumeObject.charge uid ⟨id, v⟩ := by
    intro href
    obtain ⟨charged, hcharge, -⟩ := hvolume
    obtain rfl := refers_charge hcharge href
    rw [Tally.share_ok hcharge, if_pos rfl]
    exact hbytes
  have hlocked : ∀ m, w.store.moves.find m.name = some m → moveReservation listed m = .ok (uid, v.capacityBytes) →
      w.held uid ≤ (w.store.moves.rows.map (Tally.share (moveReservation listed) uid)).sum := by
    intro m hm hcharge
    refine hbytes.trans ?_
    have hmember : Tally.share (moveReservation listed) uid m ∈
        w.store.moves.rows.map (Tally.share (moveReservation listed) uid) := List.mem_map_of_mem (Table.mem_of_find hm)
    have hle := List.single_le_sum (fun amount hamount => ?_) _ hmember
    · rwa [Tally.share_ok hcharge, if_pos rfl] at hle
    · obtain ⟨k, hk, rfl⟩ := List.mem_map.mp hamount
      exact (hmoves k hk).share_nonneg
  rcases hcharges with ⟨x, hx, href⟩ | ⟨name, m, hm, hcharges⟩
  · have := hreferred (hlisted.stayed x hx href)
    omega
  obtain rfl := Table.key_of_find hm
  obtain ⟨charged, hcharge, -⟩ := hmoves m (Table.mem_of_find hm)
  have hid := (hw.coherent.bound _ m hm).volumeID
  have hfound : listed.find m.spec.volumeID = some ⟨id, v⟩ := hid ▸ hv
  cases hcharges with
  | prepared hold held pool =>
    obtain ⟨source, hsource, -⟩ := ((hw.coherent.bound _ m hm).sound.prepared hold held).plan
    obtain ⟨-, -, ⟨-, -, hreserved⟩, hcharged⟩ := (moveReservation_prepared held hfound hsource.1).mp hcharge
    have := hlocked m hm (by rw [hcharge, hcharged, pool, hreserved])
    omega
  | approved x copy source executing volume lock served planned pool =>
    obtain ⟨c, hc⟩ : ∃ c, v.currentCopy = some c := by
      by_contra hnone
      rw [moveReservation, if_neg (by simp [executing.1]), if_neg (by simp [executing.2.1, executing.2.2]), hfound] at hcharge
      simp [Option.eq_none_iff_forall_not_mem.mpr (by simpa using hnone)] at hcharge
    obtain ⟨⟨hactive, -⟩, hcharged⟩ :=
      (moveReservation_held executing.1 executing.2.1 executing.2.2 hfound hc planned).mp hcharge
    by_cases hsame : (if c.poolUID = m.status.destinationPoolUID then source.poolUID else m.status.destinationPoolUID) = uid
    · have := hlocked m hm (by rw [hcharge, hcharged, hsame])
      omega
    · -- the listed Volume was on the other side of the commit, so it is charged itself
      have href : v.refersTo uid := by
        refine State.refersTo_iff.mpr (.inr ⟨c, hc, ?_⟩)
        by_cases hserves : c.poolUID = m.status.destinationPoolUID
        · rw [if_pos hserves] at hsame
          split at pool
          · exact absurd pool hsame
          · exact hserves.trans pool
        · rw [if_neg hserves] at hsame
          split at pool
          · obtain ⟨k, hk, howns⟩ := hw.coherent.lock v hlisted.seen (hactive ▸ (hw.coherent.bound _ m hm).named)
            obtain rfl : k = m := Option.some.inj ((hactive ▸ hk).symm.trans hm)
            obtain ⟨source', target, hsource, htarget, htargetPool, -⟩ := executing.planned hw hm
            rcases howns with hheld | hheld
            · obtain ⟨c', hc', hserved, -⟩ := hheld.copy
              rw [← pool, ← Option.some.inj (hc'.symm.trans planned), Option.some.inj (hserved.symm.trans hc)]
            · obtain ⟨c', hc', hserved, -⟩ := hheld.copy
              rw [Option.some.inj (htarget.symm.trans hc'), Option.some.inj (hserved.symm.trans hc)] at htargetPool
              exact absurd htargetPool hserves
          · exact absurd pool hsame
      have := hreferred href
      omega

end ShiftPV
