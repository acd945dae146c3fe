import ShiftPV.CopySpace
import ShiftPV.Theorems.FleetSteps
import ShiftPV.Theorems.LedgerArithmetic
import ShiftPV.Theorems.OverReservation
import ShiftPV.Theorems.OwnerCommit

/-! No approved copy runs out of space. What approved copies may still write into a Pool grows only where a conversion writes,
    and the conversion has found that much free on top of it. -/

namespace ShiftPV
open Check

variable {home : PoolHome} {limit : Int} {s s' : CopySpace} {f f' : Fleet} {w next : World} {act : WorldAct} {past : List World}
  {name uid current : String} {written written' : String → Int} {volumes listed : Table VolumeObject.id} {m n : Move}
  {moves : List Move} {start total : Int}

/-! ### The pending bytes -/

abbrev pendingSkips (current uid : String) (m : Move) : Prop :=
  m.name = current ∨ moveCleanupSettled m ∨ ¬m.status.capacityApproved ∨ m.status.destinationPoolUID ≠ uid

def pendingShare (current uid : String) (volumes : Table VolumeObject.id) (m : Move) : Int :=
  if pendingSkips current uid m ∨ (volumes.find m.spec.volumeID).any (·.state.currentCopy.any (·.poolUID = uid)) then 0
  else m.status.sourceBytes

def PendingCounted (current uid : String) (volumes : Table VolumeObject.id) (m : Move) : Prop :=
  pendingSkips current uid m ∨ ∃ volume, volumes.find m.spec.volumeID = some volume ∧
    (volume.state.currentCopy.any (·.poolUID = uid) ∨ 0 < volume.state.capacityBytes ∧ 0 ≤ m.status.sourceBytes)

theorem PendingCounted.share_nonneg (h : PendingCounted current uid volumes m) : 0 ≤ pendingShare current uid volumes m := by
  unfold pendingShare
  split
  · exact le_rfl
  · rename_i hcounts
    rw [not_or] at hcounts
    obtain ⟨volume, hfind, hserved | ⟨-, hbytes⟩⟩ := h.resolve_left hcounts.1
    · simp [hfind, hserved] at hcounts
    · exact hbytes

theorem int64_add {a b : Int} (ha : 0 ≤ a) (hb : 0 ≤ b) (hsum : a + b ≤ maxInt64) : int64 (a + b) = a + b := by
  unfold maxInt64 at hsum
  rw [int64, Int.bmod_eq_of_le] <;> omega

theorem pendingPhysicalBytes_ok (hstart : 0 ≤ start ∧ start ≤ maxInt64) :
    pendingPhysicalBytes current uid volumes start moves = .ok total ↔
      (∀ m ∈ moves, PendingCounted current uid volumes m) ∧
        total = start + (moves.map (pendingShare current uid volumes)).sum ∧ total ≤ maxInt64 := by
  induction moves generalizing start with
  | nil =>
    simp only [pendingPhysicalBytes, pure_ok, List.not_mem_nil, false_implies, implies_true, List.map_nil, List.sum_nil,
      true_and, add_zero]
    constructor
    · rintro rfl
      exact ⟨rfl, hstart.2⟩
    · exact fun h => h.1.symm
  | cons move rest ih =>
    rw [List.forall_mem_cons, List.map_cons, List.sum_cons, pendingPhysicalBytes]
    by_cases hskip : pendingSkips current uid move
    · have hshare : pendingShare current uid volumes move = 0 := if_pos (.inl hskip)
      rw [if_pos hskip, ih hstart, hshare, zero_add]
      exact and_congr_left fun _ => (and_iff_right (.inl hskip)).symm
    rw [if_neg hskip]
    cases hfind : volumes.find move.spec.volumeID with
    | none =>
      refine iff_of_false (by simp) ?_
      rintro ⟨⟨hskip' | ⟨volume, hvolume, -⟩, -⟩, -⟩
      · exact hskip hskip'
      · simp [hfind] at hvolume
    | some volume =>
      dsimp only
      by_cases hserved : volume.state.currentCopy.any (·.poolUID = uid)
      · have hshare : pendingShare current uid volumes move = 0 := if_pos (.inr (by simpa [hfind] using hserved))
        rw [if_pos hserved, ih hstart, hshare, zero_add]
        exact and_congr_left fun _ => (and_iff_right (.inr ⟨volume, hfind, .inl hserved⟩)).symm
      · have hshare : pendingShare current uid volumes move = move.status.sourceBytes :=
          if_neg (by simp [hskip, hfind, hserved])
        have hcounted : PendingCounted current uid volumes move ↔
            0 < volume.state.capacityBytes ∧ 0 ≤ move.status.sourceBytes := by
          simp [PendingCounted, hskip, hfind, hserved]
        rw [if_neg hserved, seq_ok, seq_ok, require_ok, require_ok, hshare, hcounted, not_or, not_le, not_lt, not_lt,
          int64_sub ⟨by decide, le_rfl⟩ hstart]
        constructor
        · rintro ⟨hfair, hfits, h⟩
          rw [int64_add hstart.1 hfair.2 (by omega), ih (by omega)] at h
          exact ⟨⟨hfair, h.1⟩, by omega, h.2.2⟩
        · rintro ⟨⟨hfair, hrest⟩, htotal, hfits⟩
          -- what is still to come is not negative, so the sum so far fits
          have hcoming : 0 ≤ (rest.map (pendingShare current uid volumes)).sum := by
            refine List.sum_nonneg fun bytes hbytes => ?_
            obtain ⟨m, hm, rfl⟩ := List.mem_map.mp hbytes
            exact (hrest m hm).share_nonneg
          refine ⟨hfair, by omega, ?_⟩
          rw [int64_add hstart.1 hfair.2 (by omega), ih (by omega)]
          exact ⟨hrest, by omega, hfits⟩

theorem preparedMoveListed_inv (h : preparedMoveListed m moves = .ok ()) :
    ∃ k ∈ moves, k.name = m.name ∧ k.status.preparation = m.status.preparation := by
  unfold preparedMoveListed at h
  split at h
  · simp at h
  · rename_i k hfind
    obtain ⟨-, -, -, -, hpreparation⟩ := require_ok.mp h
    exact ⟨k, List.mem_of_find?_eq_some hfind, by simpa using List.find?_some hfind, hpreparation⟩

theorem destinationCapacityForPool_inv (h : destinationCapacityForPool m uid volumes moves = .ok total) :
    (∃ k ∈ moves, k.name = m.name ∧ k.status.preparation.isSome) ∧
      pendingPhysicalBytes m.name uid volumes 0 moves = .ok total := by
  unfold destinationCapacityForPool at h
  split at h
  · simp at h
  · simp at h
  · rename_i volume hold _ hhold
    rw [seq_ok, seq_ok, bind_ok] at h
    obtain ⟨-, hlisted, -, -, h⟩ := h
    obtain ⟨k, hk, hname, hpreparation⟩ := preparedMoveListed_inv hlisted
    exact ⟨⟨k, hk, hname, by rw [hpreparation, hhold]; rfl⟩, h⟩

theorem destinationFilesystemShort_iff {available sourceBytes : Int} (hpending : 0 ≤ total ∧ total ≤ maxInt64)
    (havailable : 0 ≤ available ∧ available ≤ maxInt64) (hbytes : 0 ≤ sourceBytes) :
    destinationFilesystemShort total available sourceBytes ↔ available < total + sourceBytes := by
  simp only [destinationFilesystemShort, int64_sub havailable hpending, Bool.or_eq_true, decide_eq_true_eq]
  omega

/-! ### Copies -/

theorem World.copiesInto_iff : w.copiesInto uid m ↔
    m.status.capacityApproved ∧ m.status.destinationPoolUID = uid ∧ ¬w.committed m := by
  simp [World.copiesInto, and_assoc]

theorem World.mayWrite_nonneg : 0 ≤ w.mayWrite uid written m := by
  unfold World.mayWrite
  split
  · exact le_max_left _ _
  · exact le_rfl

theorem World.outstanding_nonneg : 0 ≤ w.outstanding uid written := by
  refine List.sum_nonneg fun bytes hbytes => ?_
  obtain ⟨m, -, rfl⟩ := List.mem_map.mp hbytes
  exact World.mayWrite_nonneg

/-- A Move that copies into the Pool did so before, with the same plan, unless it is approved just now. -/
theorem WorldStep.copies_back (hs : WorldStep w act next) (hr : WorldRun (w :: past)) (hn : next.store.moves.find name = some n)
    (hcopies : next.copiesInto uid n) (hquiet : act = .evidence name .convert → w.handsOver uid act = false) :
    ∃ m, w.store.moves.find name = some m ∧ w.copiesInto uid m ∧ n.status.sourceBytes = m.status.sourceBytes := by
  have hw := WorldRun.sound hr w (by simp)
  obtain ⟨happroved, hpool, huncommitted⟩ := World.copiesInto_iff.mp hcopies
  rcases hw.move_origin hs hn with ⟨m, hm, hstep, -⟩ | ⟨-, id, node, rfl, -⟩
  swap
  · simp [createMove, MoveStatus.empty] at happroved
  have hk := Continues.of_change hstep
  cases hbefore : m.status.capacityApproved with
  | true =>
    obtain ⟨source, anchor, hplan⟩ := (hw.coherent.bound name m hm).sound.derived (.inl hbefore)
    have hset : m.status.destinationPoolUID ≠ "" := by
      rw [hplan.pool]
      exact valid_poolUID_ne_empty hplan.valid
    have hbytes := WorldRun.measured hr w (by simp) name m hm hbefore
    refine ⟨m, hm, World.copiesInto_iff.mpr ⟨hbefore, (hk.pool hset).symm.trans hpool, fun hcommitted => huncommitted ?_⟩,
      hk.bytes hbytes⟩
    exact World.committed_iff.mpr ((World.committed_iff.mp hcommitted).step hw hs hk.destination)
  | false =>
    -- the conversion that approves it takes the lock of this Pool
    obtain ⟨rfl, p, stage, v, hpass, hsame, -⟩ := hs.approval hw hm hn hbefore happroved
    have hmoved : MoveStep m n := hstep.resolve_left fun heq => by simp [← heq, happroved] at hbefore
    obtain ⟨hold, source, hprepared, -, happroval⟩ := hmoved.approval hbefore happroved
    have hheld : p.status.preparation = some hold := hsame ▸ hprepared.held
    have hover := hquiet rfl
    simp [World.handsOver, hpass, hheld, ← happroval.pool, hpool] at hover

/-- A step that approves nothing for the Pool adds nothing to what the copies of a volume may write. -/
theorem WorldStep.mayWrite_le (hs : WorldStep w act next) (hr : WorldRun (w :: past)) (hn : next.store.moves.find name = some n)
    (hquiet : act = .evidence name .convert → w.handsOver uid act = false) :
    next.mayWrite uid written n ≤ ((w.store.moves.find name).map (w.mayWrite uid written)).getD 0 := by
  by_cases hcopies : next.copiesInto uid n
  · obtain ⟨m, hm, hbefore, hbytes⟩ := hs.copies_back hr hn hcopies hquiet
    have hname : n.name = m.name := (Table.key_of_find hn).trans (Table.key_of_find hm).symm
    rw [hm, Option.map_some, Option.getD_some, World.mayWrite, World.mayWrite, if_pos hcopies, if_pos hbefore, hbytes, hname]
  · rw [World.mayWrite, if_neg hcopies]
    cases w.store.moves.find name with
    | none => exact le_rfl
    | some m => exact World.mayWrite_nonneg

theorem WorldStep.outstanding_le (hs : WorldStep w act next) (hr : WorldRun (w :: past))
    (hquiet : ∀ name, act = .evidence name .convert → w.handsOver uid act = false) :
    next.outstanding uid written ≤ w.outstanding uid written := by
  refine le_trans (List.sum_le_sum fun n hn => ?_)
    (Table.sum_find_le next.store.moves.nodup (w.mayWrite uid written) w.store.moves fun m _ => World.mayWrite_nonneg)
  exact hs.mayWrite_le hr (Table.find_of_mem hn) (hquiet n.name)

theorem WorldStep.converted_bytes {p : Move} {stage : Stage} (hs : WorldStep w (.evidence name .convert) next)
    (hpass : w.passes name = some ⟨p, stage⟩) (hn : next.store.moves.find name = some n) :
    n.status.sourceBytes = p.status.sourceBytes := by
  cases hs with
  | evidence pass action recorded applied stored =>
    obtain ⟨rfl, -⟩ := Pass.mk.inj (Option.some.inj (hpass.symm.trans pass))
    obtain ⟨m, k, -, haccepted, hk⟩ := Store.apply_move applied
    obtain rfl : k = n := Option.some.inj (hk.symm.trans hn)
    cases Evidence.write_inv recorded with
    | convert read converted =>
      obtain ⟨hold, source, -, -, -, -, rfl⟩ := convertPreparation_inv converted
      rw [(applyMoveWrite_status haccepted).1]

theorem WorldStep.outstanding_convert {p : Move} {stage : Stage} (hs : WorldStep w (.evidence name .convert) next)
    (hr : WorldRun (w :: past)) (hpass : w.passes name = some ⟨p, stage⟩) (hbytes : 0 ≤ p.status.sourceBytes)
    (hwritten : 0 ≤ written name) :
    next.outstanding uid written ≤ w.outstanding uid written + p.status.sourceBytes := by
  let added : Move → Int := fun n => if n.name = name then p.status.sourceBytes else 0
  have hterm : ∀ n ∈ next.store.moves.rows, next.mayWrite uid written n ≤
      ((w.store.moves.find n.name).map (w.mayWrite uid written)).getD 0 + added n := by
    intro n hn
    have hfind := Table.find_of_mem hn
    by_cases hname : n.name = name
    · have hsource := hs.converted_bytes hpass (hname ▸ hfind)
      have hbefore : 0 ≤ ((w.store.moves.find n.name).map (w.mayWrite uid written)).getD 0 := by
        cases w.store.moves.find n.name with
        | none => exact le_rfl
        | some m => exact World.mayWrite_nonneg
      have hafter : next.mayWrite uid written n ≤ p.status.sourceBytes := by
        unfold World.mayWrite
        rw [hname, hsource]
        split <;> omega
      simp only [added, if_pos hname]
      omega
    · have hquiet : next.mayWrite uid written n ≤ _ :=
        hs.mayWrite_le hr hfind fun h => absurd (by simpa using h) (Ne.symm hname)
      simpa [added, hname] using hquiet
  have hadded : (next.store.moves.rows.map added).sum ≤ p.status.sourceBytes := by
    rw [Table.sum_rows_of_one added name fun n _ hne => if_neg hne]
    cases hfind : next.store.moves.find name with
    | none => exact hbytes
    | some n => exact (if_pos (Table.key_of_find hfind)).le
  have hkept := Table.sum_find_le next.store.moves.nodup (w.mayWrite uid written) w.store.moves fun m _ => World.mayWrite_nonneg
  have hsum := List.sum_le_sum hterm
  rw [List.sum_map_add] at hsum
  unfold World.outstanding
  omega

theorem World.outstanding_copy {bytes : Int} (hm : w.store.moves.find name = some m) (hcopies : w.copiesInto uid m)
    (hwritten : written name + bytes ≤ m.status.sourceBytes) (hbytes : 0 ≤ bytes)
    (hafter : written' = fun other => if other = name then written name + bytes else written other) :
    w.outstanding uid written' + bytes = w.outstanding uid written := by
  have hname : m.name = name := Table.key_of_find hm
  have hothers : ∀ k ∈ w.store.moves.others name, w.mayWrite uid written' k = w.mayWrite uid written k := by
    intro k hk
    have hne : k.name ≠ name := by simpa [Table.others] using (List.mem_filter.mp hk).2
    simp [World.mayWrite, hafter, hne]
  have hown : w.mayWrite uid written' m + bytes = w.mayWrite uid written m := by
    simp only [World.mayWrite, if_pos hcopies, hafter, hname, if_true]
    omega
  unfold World.outstanding
  rw [Table.sum_rows _ hm, Table.sum_rows _ hm, List.map_congr_left hothers]
  omega

theorem World.outstanding_anti (h : ∀ name, written name ≤ written' name) :
    w.outstanding uid written' ≤ w.outstanding uid written := by
  refine List.sum_le_sum fun m _ => ?_
  have hm := h m.name
  unfold World.mayWrite
  split <;> omega

/-! ### Lists of the Volumes -/

/-- The list shows no Volume in the Pool whose Move still copies into it. -/
def Unserved (worlds : Table World.volumeID) (uid : String) (listed : Table VolumeObject.id) : Prop :=
  ∀ w ∈ worlds.rows, ∀ m ∈ w.store.moves.rows, w.copiesInto uid m →
    ∀ object, listed.find w.volumeID = some object → ¬object.state.currentCopy.any (·.poolUID = uid)

theorem Fleet.unserved (h : f.Running) : Unserved f.worlds uid f.volumes := by
  intro w hw m hm hcopies object hfind
  obtain ⟨past, hr⟩ := h w hw
  obtain ⟨happroved, hpool, huncommitted⟩ := World.copiesInto_iff.mp hcopies
  obtain ⟨-, v, hv, -, hheld⟩ := WorldRun.uncommitted hr (Table.find_of_mem hm) happroved huncommitted
  obtain ⟨source, anchor, hplan⟩ := ((WorldRun.sound hr w (by simp)).coherent.bound _ m (Table.find_of_mem hm)).sound.derived
    (.inl happroved)
  obtain ⟨c, hc, hserved, -⟩ := hheld.copy
  obtain rfl : source = c := Option.some.inj (hplan.planned.1.symm.trans hc)
  rw [World.volumeID, Fleet.volumes, f.installation.find_volume hw, World.volumeObject, hv] at hfind
  obtain rfl : (⟨w.store.volumeID, v⟩ : VolumeObject) = object := Option.some.inj hfind
  have hforeign := hplan.foreign
  rw [← hplan.pool, hpool] at hforeign
  simpa [hserved] using hforeign.symm

/-- The pending bytes of a torn list are no less than what the copies may still write. -/
theorem outstanding_le_pending (h : f.Running) (hlisted : Unserved f.worlds uid listed)
    (hwritten : ∀ name, 0 ≤ written name) (hnames : (f.moves.map (·.name)).Nodup)
    (hpending : destinationCapacityForPool m uid listed f.moves = .ok total) :
    f.outstanding uid written ≤ total := by
  obtain ⟨⟨k, hk, hkname, hkprepared⟩, hpending⟩ := destinationCapacityForPool_inv hpending
  obtain ⟨hcounted, rfl, -⟩ := (pendingPhysicalBytes_ok ⟨le_rfl, by decide⟩).mp hpending
  have hflat : (f.moves.map (pendingShare m.name uid listed)).sum =
      (f.worlds.rows.map fun w => (w.store.moves.rows.map (pendingShare m.name uid listed)).sum).sum := by
    rw [Fleet.moves, Installation.moves, List.flatMap, List.map_flatten, List.sum_flatten, List.map_map, List.map_map]
    rfl
  rw [zero_add, hflat]
  refine List.sum_le_sum fun w hw => List.sum_le_sum fun n hn => ?_
  have hmem : n ∈ f.moves := List.mem_flatMap.mpr ⟨w, hw, hn⟩
  by_cases hcopies : w.copiesInto uid n
  swap
  · rw [World.mayWrite, if_neg hcopies]
    exact (hcounted n hmem).share_nonneg
  -- an uncommitted Move is counted with its whole source
  obtain ⟨past, hr⟩ := h w hw
  obtain ⟨happroved, hpool, huncommitted⟩ := World.copiesInto_iff.mp hcopies
  have hfind := Table.find_of_mem hn
  have hbound := (WorldRun.sound hr w (by simp)).coherent.bound _ n hfind
  have hopen := (WorldRun.uncommitted hr hfind happroved huncommitted).1
  have hother : n.name ≠ m.name := by
    intro hname
    obtain rfl : n = k := List.inj_on_of_nodup_map hnames hmem hk (hname.trans hkname.symm)
    obtain ⟨hold, hhold⟩ := Option.isSome_iff_exists.mp hkprepared
    simp [(hbound.sound.prepared hold hhold).unapproved] at happroved
  have hcounts : ¬pendingSkips m.name uid n := by simp [pendingSkips, hother, hopen, happroved, hpool]
  obtain ⟨object, hobject, -⟩ := (hcounted n hmem).resolve_left hcounts
  have hserved := hlisted w hw n hn hcopies object (by rwa [World.volumeID, ← hbound.volumeID])
  have hbytes := WorldRun.measured hr w (by simp) _ n hfind happroved
  have hbefore := hwritten n.name
  rw [World.mayWrite, if_pos hcopies, pendingShare, if_neg (by simp only [hobject, Option.any_some]; tauto)]
  omega

/-! ### Steps of the installation -/

/-- A step of the installation that approves no Move for the Pool. -/
inductive QuietChange (uid : String) (f f' : Fleet) : Prop where
  | kept (same : f'.worlds = f.worlds)
  | opened (volumeID : String) (state : State) (unused : f.worlds.find volumeID = none)
      (worlds : f'.worlds = f.worlds.put (.opened volumeID state))
  | stepped (act : WorldAct) (w next : World) (mem : w ∈ f.worlds.rows) (step : w.step act = .ok next)
      (worlds : f'.worlds = f.worlds.put next) (quiet : ∀ name, act = .evidence name .convert → w.handsOver uid act = false)

theorem FleetStep.quiet_change {act : FleetAct} (h : FleetStep home limit f act f') (hplain : f.converts home.uid act = false) :
    QuietChange home.uid f f' := by
  cases h with
  | appear foreign unused unstarted | createVolume locked unused unstarted => exact .opened _ _ unused rfl
  | step plain found exclusive stepped =>
    refine .stepped _ _ _ (Table.mem_of_find found) stepped rfl ?_
    rintro name rfl
    simpa [Fleet.converts, found] using hplain
  | createBind locked requested found stepped | grantVolumes locked found stepped =>
    exact .stepped _ _ _ (Table.mem_of_find found) stepped rfl (by simp)
  | grantWrite locked source read fits found stepped =>
    exact .stepped _ _ _ (Table.mem_of_find found) stepped rfl (by simp)
  | _ => exact .kept rfl

theorem Fleet.outstanding_put (hf : f'.worlds = f.worlds.put next) (hw : f.worlds.find next.volumeID = some w) :
    f'.outstanding uid written + w.outstanding uid written = f.outstanding uid written + next.outstanding uid written := by
  rw [Fleet.outstanding, hf]
  exact Table.sum_put _ hw

theorem Fleet.outstanding_nonneg : 0 ≤ f.outstanding uid written := by
  refine List.sum_nonneg fun bytes hbytes => ?_
  obtain ⟨w, -, rfl⟩ := List.mem_map.mp hbytes
  exact World.outstanding_nonneg

theorem World.opened_outstanding {volumeID : String} {state : State} : (World.opened volumeID state).outstanding uid written = 0 :=
  rfl

theorem QuietChange.outstanding_le (h : QuietChange uid f f') (hrunning : f.Running) :
    f'.outstanding uid written ≤ f.outstanding uid written := by
  cases h with
  | kept same => rw [Fleet.outstanding, Fleet.outstanding, same]
  | opened volumeID state unused worlds =>
    rw [Fleet.outstanding, worlds, Table.sum_put_new _ unused, World.opened_outstanding, zero_add]
    rfl
  | stepped act w next mem step worlds quiet =>
    obtain ⟨past, hr⟩ := hrunning w mem
    have hstep := World.step_inv step
    have hid := hstep.volumeID_eq (WorldRun.sound hr w (by simp))
    have hput : f'.outstanding uid written + w.outstanding uid written = _ :=
      Fleet.outstanding_put worlds (hid ▸ Table.find_of_mem mem)
    have hle : next.outstanding uid written ≤ w.outstanding uid written := hstep.outstanding_le hr quiet
    omega

theorem QuietChange.unserved (h : QuietChange uid f f') (hrunning : f.Running) (hlisted : Unserved f.worlds uid listed) :
    Unserved f'.worlds uid listed := by
  intro u hu m hm hcopies
  cases h with
  | kept same => exact hlisted u (same ▸ hu) m hm hcopies
  | opened volumeID state unused worlds =>
    rcases List.mem_cons.mp (worlds ▸ hu) with rfl | hu
    · simp [World.opened, Table.empty] at hm
    · exact hlisted u (List.mem_of_mem_filter hu) m hm hcopies
  | stepped act w next mem step worlds quiet =>
    rcases List.mem_cons.mp (worlds ▸ hu) with rfl | hu
    · obtain ⟨past, hr⟩ := hrunning w mem
      have hstep := World.step_inv step
      obtain ⟨k, hk, hbefore, -⟩ := hstep.copies_back hr (Table.find_of_mem hm) hcopies (quiet m.name)
      rw [hstep.volumeID_eq (WorldRun.sound hr w (by simp))]
      exact hlisted w mem k (Table.mem_of_find hk) hbefore
    · exact hlisted u (List.mem_of_mem_filter hu) m hm hcopies

/-! ### Conversions -/

def ConvertStage.Counted (home : PoolHome) (s : CopySpace) (move : Move) : ConvertStage → Prop
  | .locked => True
  | .volumes listed => Unserved s.fleet.worlds home.uid listed
  | .pending physicalPending =>
    s.outstanding home.uid ≤ physicalPending ∧ 0 ≤ physicalPending ∧ physicalPending ≤ maxInt64
  | .compared short => short = false → s.outstanding home.uid + move.status.sourceBytes ≤ s.free

/-- The copies of the Pool have room, and a conversion of the Pool has counted right. -/
structure CopySpace.Sound (home : PoolHome) (s : CopySpace) : Prop where
  running : s.fleet.Running
  written : ∀ name, 0 ≤ s.written name
  room : s.outstanding home.uid ≤ s.free
  converting : ∀ c, s.converting = some c → 0 < c.move.status.sourceBytes ∧ c.stage.Counted home s c.move

/-- A step that takes no more from the free space than from what the copies may write. -/
structure LeavesRoom (uid : String) (s s' : CopySpace) : Prop where
  unserved : ∀ listed, Unserved s.fleet.worlds uid listed → Unserved s'.fleet.worlds uid listed
  outstanding : s'.outstanding uid ≤ s.outstanding uid
  room : s'.outstanding uid - s'.free ≤ s.outstanding uid - s.free

theorem ConvertStage.Counted.spared {stage : ConvertStage} (h : stage.Counted home s m) (hs : LeavesRoom home.uid s s') :
    stage.Counted home s' m := by
  have hroom := hs.room
  cases stage with
  | locked => trivial
  | volumes listed => exact hs.unserved listed h
  | pending physicalPending => exact ⟨hs.outstanding.trans h.1, h.2⟩
  | compared short =>
    intro hshort
    have := h hshort
    omega

theorem CopySpace.Sound.spared (h : s.Sound home) (hs : LeavesRoom home.uid s s') (hrunning : s'.fleet.Running)
    (hwritten : ∀ name, 0 ≤ s'.written name) (hconverting : s'.converting = s.converting) : s'.Sound home where
  running := hrunning
  written := hwritten
  room := by
    have hbefore := h.room
    have hroom := hs.room
    omega
  converting c hc := ⟨(h.converting c (hconverting ▸ hc)).1, (h.converting c (hconverting ▸ hc)).2.spared hs⟩

theorem CopySpace.Sound.stage (h : s.Sound home) {converting : Option Conversion}
    (hcounted : ∀ c, converting = some c → 0 < c.move.status.sourceBytes ∧ c.stage.Counted home s c.move) :
    CopySpace.Sound home { s with converting } := by
  refine ⟨h.running, h.written, h.room, fun c hc => ⟨(hcounted c hc).1, ?_⟩⟩
  exact (hcounted c hc).2.spared ⟨fun _ => id, le_rfl, le_rfl⟩

theorem QuietChange.leavesRoom {fleet : Fleet} (h : QuietChange uid s.fleet fleet) (hrunning : s.fleet.Running) :
    LeavesRoom uid s { s with fleet } where
  unserved _ := h.unserved hrunning
  outstanding := h.outstanding_le hrunning
  room := by
    have hle : fleet.outstanding uid s.written ≤ _ := h.outstanding_le hrunning
    simp only [CopySpace.outstanding]
    omega

/-! ### Steps -/

structure CopyWrite (home : PoolHome) (s : CopySpace) (volumeID name : String) (bytes : Int) (w : World) (m : Move) : Prop where
  found : s.fleet.worlds.find volumeID = some w
  stored : w.store.moves.find name = some m
  copies : w.copiesInto home.uid m
  forward : 0 ≤ bytes
  within : s.written name + bytes ≤ m.status.sourceBytes

theorem Fleet.world_inv {volumeID : String} (h : f.world volumeID = .ok w) : f.worlds.find volumeID = some w := by
  unfold Fleet.world at h
  split at h
  · rename_i hfound
    exact pure_ok.mp h ▸ hfound
  · simp at h

theorem CopySpace.copy_inv {volumeID : String} {bytes : Int} (h : s.step home limit (.copy volumeID name bytes) = .ok s') :
    (∃ w m, CopyWrite home s volumeID name bytes w m) ∧
      s' = { s with
        free := s.free - bytes
        written := fun other => if other = name then s.written name + bytes else s.written other } := by
  rw [CopySpace.step, bind_ok] at h
  obtain ⟨w, hw, h⟩ := h
  rw [bind_ok] at h
  obtain ⟨m, hm, h⟩ := h
  rw [seq_ok, seq_ok, require_ok, require_ok, pure_ok] at h
  obtain ⟨hcopies, ⟨hforward, hwithin⟩, rfl⟩ := h
  exact ⟨⟨w, m, Fleet.world_inv hw, Store.move_inv hm, hcopies, hforward, hwithin⟩, rfl⟩

theorem CopyWrite.le_outstanding {volumeID : String} {bytes : Int} (h : CopyWrite home s volumeID name bytes w m) :
    bytes ≤ s.outstanding home.uid := by
  have hown : bytes ≤ w.mayWrite home.uid s.written m := by
    have hwithin := h.within
    rw [World.mayWrite, if_pos h.copies, Table.key_of_find h.stored]
    omega
  refine (hown.trans (List.single_le_sum ?_ _ (List.mem_map_of_mem (Table.mem_of_find h.stored)))).trans
    (List.single_le_sum ?_ _ (List.mem_map_of_mem (Table.mem_of_find h.found)))
  · intro x hx
    obtain ⟨k, -, rfl⟩ := List.mem_map.mp hx
    exact World.mayWrite_nonneg
  · intro x hx
    obtain ⟨u, -, rfl⟩ := List.mem_map.mp hx
    exact World.outstanding_nonneg

theorem CopySpace.Sound.copy {volumeID : String} {bytes : Int} (h : s.Sound home)
    (hcopy : CopyWrite home s volumeID name bytes w m) :
    CopySpace.Sound home { s with
      free := s.free - bytes
      written := fun other => if other = name then s.written name + bytes else s.written other } := by
  have hforward := hcopy.forward
  have hnames : ∀ other, s.written other ≤ if other = name then s.written name + bytes else s.written other := by
    intro other
    split
    · rename_i hother
      subst hother
      omega
    · exact le_rfl
  have hless : s.fleet.outstanding home.uid (fun other => if other = name then s.written name + bytes else s.written other) + bytes ≤
      s.fleet.outstanding home.uid s.written := by
    have hown : w.outstanding home.uid _ + bytes = w.outstanding home.uid s.written :=
      World.outstanding_copy hcopy.stored hcopy.copies hcopy.within hforward rfl
    have hothers := List.sum_le_sum fun u (_ : u ∈ s.fleet.worlds.others volumeID) =>
      (World.outstanding_anti hnames : u.outstanding home.uid _ ≤ _)
    rw [Fleet.outstanding, Fleet.outstanding, Table.sum_rows _ hcopy.found, Table.sum_rows _ hcopy.found]
    omega
  refine h.spared ⟨fun _ => id, ?_, ?_⟩ h.running (fun other => (h.written other).trans (hnames other)) rfl
  · simp only [CopySpace.outstanding]
    omega
  · simp only [CopySpace.outstanding]
    omega

theorem CopySpace.Sound.step {act : SpaceAct} (h : s.Sound home) (hs : s.step home limit act = .ok s') : s'.Sound home := by
  cases act with
  | fleet act =>
    rw [CopySpace.step, seq_ok, seq_ok, require_ok, bind_ok] at hs
    obtain ⟨hplain, -, fleet, hfleet, hs⟩ := hs
    obtain rfl := pure_ok.mp hs
    have hstep := Fleet.step_inv hfleet
    exact h.spared ((hstep.quiet_change (by simpa using hplain)).leavesRoom h.running)
      (hstep.worlds_change.running h.running) h.written rfl
  | copy volumeID name bytes =>
    obtain ⟨⟨w, m, hcopy⟩, rfl⟩ := CopySpace.copy_inv hs
    exact h.copy hcopy
  | reclaim bytes =>
    rw [CopySpace.step, seq_ok, require_ok, pure_ok] at hs
    obtain ⟨hbytes, rfl⟩ := hs
    refine h.spared ⟨fun _ => id, le_rfl, ?_⟩ h.running h.written rfl
    simp only [CopySpace.outstanding]
    omega
  | beginConvert volumeID name =>
    rw [CopySpace.step, seq_ok, bind_ok] at hs
    obtain ⟨-, w, -, hs⟩ := hs
    rw [bind_ok] at hs
    obtain ⟨pass, -, hs⟩ := hs
    rw [seq_ok, seq_ok, require_ok, pure_ok] at hs
    obtain ⟨hbytes, -, rfl⟩ := hs
    exact h.stage (by rintro c ⟨⟩; exact ⟨hbytes, trivial⟩)
  | convertVolumes =>
    rw [CopySpace.step] at hs
    split at hs
    · rename_i volumeID move hconverting
      rw [bind_ok] at hs
      obtain ⟨fleet, hfleet, hs⟩ := hs
      obtain rfl := pure_ok.mp hs
      obtain ⟨w, next, hfound, hstepped, rfl⟩ := Fleet.advance_inv hfleet
      have hquiet : QuietChange home.uid s.fleet { s.fleet with worlds := s.fleet.worlds.put next } :=
        .stepped _ w next (Table.mem_of_find hfound) hstepped rfl (by simp)
      have hrunning : Fleet.Running { s.fleet with worlds := s.fleet.worlds.put next } :=
        (WorldsChange.stepped _ w next (Table.mem_of_find hfound) hstepped rfl).running h.running
      refine (h.spared (hquiet.leavesRoom h.running) hrunning h.written rfl).stage ?_
      rintro c ⟨⟩
      exact ⟨(h.converting _ hconverting).1, hquiet.unserved h.running (Fleet.unserved h.running)⟩
    · simp at hs
  | convertMoves =>
    rw [CopySpace.step] at hs
    split at hs
    · rename_i volumeID move listed hconverting
      rw [seq_ok, require_ok, bind_ok] at hs
      obtain ⟨hnames, physicalPending, hpending, hs⟩ := hs
      obtain rfl := pure_ok.mp hs
      obtain ⟨hbytes, hlisted⟩ := h.converting _ hconverting
      refine h.stage ?_
      rintro c ⟨⟩
      obtain ⟨-, -, hfits⟩ := (pendingPhysicalBytes_ok ⟨le_rfl, by decide⟩).mp (destinationCapacityForPool_inv hpending).2
      have hcounted : s.outstanding home.uid ≤ physicalPending :=
        outstanding_le_pending h.running hlisted h.written hnames hpending
      exact ⟨hbytes, hcounted, Fleet.outstanding_nonneg.trans hcounted, hfits⟩
    · simp at hs
  | convertStat =>
    rw [CopySpace.step] at hs
    split at hs
    · rename_i volumeID move physicalPending hconverting
      rw [seq_ok, require_ok, pure_ok] at hs
      obtain ⟨hfree, rfl⟩ := hs
      obtain ⟨hbytes, hcounted, hpending⟩ := h.converting _ hconverting
      refine h.stage ?_
      rintro c ⟨⟩
      refine ⟨hbytes, fun hshort => ?_⟩
      have hspace : 0 ≤ s.free ∧ s.free ≤ maxInt64 := ⟨Fleet.outstanding_nonneg.trans h.room, hfree⟩
      have hfits := mt (destinationFilesystemShort_iff hpending hspace hbytes.le).mpr (by simpa using hshort)
      dsimp only at hfits ⊢
      omega
    · simp at hs
  | convertWrite =>
    rw [CopySpace.step] at hs
    split at hs
    · rename_i volumeID move short hconverting
      rw [bind_ok] at hs
      obtain ⟨u, hu, hs⟩ := hs
      rw [seq_ok, require_ok, bind_ok] at hs
      obtain ⟨hpass, fleet, hfleet, hs⟩ := hs
      obtain rfl := pure_ok.mp hs
      obtain ⟨w, next, hfound, hstepped, rfl⟩ := Fleet.advance_inv hfleet
      obtain rfl : w = u := Option.some.inj (hfound.symm.trans (Fleet.world_inv hu))
      have hmem := Table.mem_of_find hfound
      have hrunning : Fleet.Running { s.fleet with worlds := s.fleet.worlds.put next } :=
        (WorldsChange.stepped _ w next hmem hstepped rfl).running h.running
      obtain ⟨hbytes, hcounted⟩ := h.converting _ hconverting
      cases short with
      | true =>
        have hquiet : QuietChange home.uid s.fleet { s.fleet with worlds := s.fleet.worlds.put next } :=
          .stepped _ w next hmem hstepped rfl (by simp)
        exact (h.spared (hquiet.leavesRoom h.running) hrunning h.written rfl).stage (by simp)
      | false =>
        simp only [Option.any_eq_true, decide_eq_true_eq] at hpass
        obtain ⟨⟨p, stage⟩, hpass, rfl⟩ := hpass
        obtain ⟨past, hr⟩ := h.running w hmem
        have hstep := World.step_inv hstepped
        have hid := hstep.volumeID_eq (WorldRun.sound hr w (by simp))
        have hput : Fleet.outstanding { s.fleet with worlds := s.fleet.worlds.put next } home.uid s.written +
            w.outstanding home.uid s.written = s.fleet.outstanding home.uid s.written + next.outstanding home.uid s.written :=
          Fleet.outstanding_put rfl (hid ▸ Table.find_of_mem hmem)
        have hadded : next.outstanding home.uid s.written ≤ _ := hstep.outstanding_convert hr hpass hbytes.le (h.written _)
        have hroom := hcounted rfl
        have hafter : Fleet.outstanding { s.fleet with worlds := s.fleet.worlds.put next } home.uid s.written ≤ s.free := by
          simp only [CopySpace.outstanding] at hroom
          omega
        exact ⟨hrunning, h.written, hafter, by simp⟩
    · simp at hs
  | leave =>
    obtain rfl := pure_ok.mp hs
    exact h.stage (by simp)

theorem SpaceRun.sound {l : List CopySpace} (hr : SpaceRun home limit l) : ∀ s ∈ l, s.Sound home := by
  refine Run.forall_mem ?_ ?_ hr
  · rintro s ⟨⟨hempty, -⟩, hfree, hwritten, hidle⟩
    refine ⟨fun w hw => by simp [hempty] at hw, fun name => (hwritten name).ge, ?_, by simp [hidle]⟩
    rwa [CopySpace.outstanding, Fleet.outstanding, hempty, List.map_nil, List.sum_nil]
  · intro s s' past act _ ih hs
    exact (ih s (by simp)).step (Run.onHead_cons.mp hs)

/-- However conversions, copies, commits and settlements are interleaved, the filesystem of a Pool has room for all that
    the approved, uncommitted Moves may still write, so no copy runs out of space. The pending bytes are an exact sum in
    the range of `int64`, and so is the comparison of a conversion. -/
theorem copies_have_room (home : PoolHome) (limit : Int) (s : CopySpace) (past : List CopySpace)
    (hr : SpaceRun home limit (s :: past)) :
    s.outstanding home.uid ≤ s.free ∧
      (∀ volumeID name bytes s', s.step home limit (.copy volumeID name bytes) = .ok s' → bytes ≤ s.free) ∧
      (∀ current uid volumes moves physicalPending, destinationCapacityForPool current uid volumes moves = .ok physicalPending →
        physicalPending = (moves.map (pendingShare current.name uid volumes)).sum ∧ physicalPending ≤ maxInt64) ∧
      ∀ volumeID move physicalPending, s.converting = some ⟨volumeID, move, .pending physicalPending⟩ → s.free ≤ maxInt64 →
        int64 (s.free - physicalPending) = s.free - physicalPending ∧
          (destinationFilesystemShort physicalPending s.free move.status.sourceBytes ↔
            s.free < physicalPending + move.status.sourceBytes) := by
  have hsound := SpaceRun.sound hr s (by simp)
  refine ⟨hsound.room, ?_, ?_, ?_⟩
  · intro volumeID name bytes s' hs
    obtain ⟨⟨w, m, hcopy⟩, -⟩ := CopySpace.copy_inv hs
    exact hcopy.le_outstanding.trans hsound.room
  · intro current uid volumes moves physicalPending h
    obtain ⟨-, htotal, hfits⟩ := (pendingPhysicalBytes_ok ⟨le_rfl, by decide⟩).mp (destinationCapacityForPool_inv h).2
    exact ⟨by rw [htotal, zero_add], hfits⟩
  · intro volumeID move physicalPending hconverting hfree
    obtain ⟨hbytes, -, hpending⟩ := hsound.converting _ hconverting
    have hspace : 0 ≤ s.free ∧ s.free ≤ maxInt64 := ⟨Fleet.outstanding_nonneg.trans hsound.room, hfree⟩
    exact ⟨int64_sub hspace hpending, destinationFilesystemShort_iff hpending hspace hbytes.le⟩

def copyingSpace : CopySpace where
  fleet := { pools := [fixedPool "pool" "/data" "" 0], worlds := .empty World.volumeID, lock := none }
  free := 7
  written := fun _ => 0
  converting := none

/-- A volume of another Pool moves into the Pool, up to a copy that has written three of five bytes. -/
def copyingActs : List SpaceAct :=
  let steps (acts : List WorldAct) : List SpaceAct := acts.map fun act => .fleet (.step sampleVolumeID act)
  .fleet (.appear sampleVolumeID sampleState) :: steps (creationActs ++ claimActs "move" "move-1" "node-a" ++
      [.write "move", .leave "move", .start "move", .observe "move" settledCluster]) ++
    [.fleet (.beginGrant (fixedPool "pool" "/data" "" 0) sampleVolumeID "move"), .fleet (.grantReady sampleReader),
      .fleet .grantVolumes, .fleet .grantMoves, .fleet (.grantWrite "placement")] ++
    steps ([.leave "move"] ++ recorded "move" settledCluster [] ++ recorded "move" settledCluster [.write "move"] ++
      recorded "move" settledCluster [] ++ recorded "move" settledCluster [] ++ recorded "move" settledCluster [] ++
      stopped "move" settledCluster [.reread "move", .evidence "move" (.measure 5)] ++
      [.start "move", .observe "move" settledCluster]) ++
    [.beginConvert sampleVolumeID "move", .convertVolumes, .convertMoves, .convertStat, .convertWrite,
      .copy sampleVolumeID "move" 3]

def copyingSpaces : List CopySpace := Run.replay (fun s act => s.step admittingHome 20 act) copyingSpace [] copyingActs

theorem copies_have_room_copying : ∃ s past, copyingSpaces = s :: past ∧ s.free = 4 ∧ s.outstanding "pool" = 2 ∧
    s.outstanding "pool" ≤ s.free := by
  have hcheck : (copyingSpaces.head?.any fun s => decide (s.free = 4 ∧ s.outstanding "pool" = 2)) = true := by
    decide +kernel
  obtain ⟨s, past, hl, hs⟩ := Run.exists_head hcheck
  have hinitial : copyingSpace.Initial admittingHome :=
    ⟨⟨rfl, rfl, by simp [copyingSpace, fixedPool, admittingHome]⟩, by decide, fun _ => rfl, rfl⟩
  have hr : SpaceRun admittingHome 20 (s :: past) := Run.replay_run (.start hinitial) hl
  obtain ⟨hfree, houtstanding⟩ := of_decide_eq_true hs
  exact ⟨s, past, hl, hfree, houtstanding, (copies_have_room admittingHome 20 s past hr).1⟩

end ShiftPV
