import ShiftPV.Theorems.FleetSteps
import ShiftPV.Theorems.PoolIsolation
import ShiftPV.Theorems.TornLedger

/-! No Pool is over-reserved. What the volumes hold of a Pool grows only where an admission writes, and the admission has
    counted all of it under the lock of the Pool. -/

namespace ShiftPV
open Check

variable {home : PoolHome} {limit : Int} {f f' : Fleet} {w next : World} {act : WorldAct} {past : List World} {uid id : String}
  {worlds : Table World.volumeID} {listed : Table VolumeObject.id} {reserved : Int} {v x : State}

/-! ### Sums over the volumes -/

noncomputable def heldBytes (worlds : Table World.volumeID) (uid : String) : Int := (worlds.rows.map (·.held uid)).sum

theorem heldBytes_put (hw : worlds.find next.volumeID = some w) :
    heldBytes (worlds.put next) uid + w.held uid = heldBytes worlds uid + next.held uid :=
  Table.sum_put _ hw

theorem heldBytes_new (hunused : worlds.find next.volumeID = none) :
    heldBytes (worlds.put next) uid = next.held uid + heldBytes worlds uid :=
  Table.sum_put_new _ hunused

theorem sum_shares (charge : VolumeObject → Except String (String × Int)) (reserve : Move → Except String (String × Int))
    (l : List World) :
    ((l.filterMap World.volumeObject).map (Tally.share charge uid)).sum +
        ((l.flatMap (·.store.moves.rows)).map (Tally.share reserve uid)).sum =
      (l.map fun w => (w.volumeObject.map (Tally.share charge uid)).getD 0 +
        (w.store.moves.rows.map (Tally.share reserve uid)).sum).sum := by
  induction l with
  | nil => rfl
  | cons w l ih =>
    rw [List.map_cons, List.sum_cons, ← ih, List.flatMap_cons, List.map_append, List.sum_append]
    cases hobject : w.volumeObject with
    | none =>
      rw [List.filterMap_cons_none hobject, Option.map_none, Option.getD_none]
      omega
    | some object =>
      rw [List.filterMap_cons_some hobject, List.map_cons, List.sum_cons, Option.map_some, Option.getD_some]
      omega

/-- The ledger never charges a Pool more than the volumes hold of it. -/
theorem ledgerSum_le_heldBytes (h : f.Running) (hne : uid ≠ "") : ledgerSum f.volumes f.moves uid ≤ heldBytes f.worlds uid := by
  have hsum : ledgerSum f.volumes f.moves uid = _ := sum_shares VolumeObject.charge (moveReservation f.volumes) f.worlds.rows
  refine hsum.trans_le (List.sum_le_sum fun w hw => ?_)
  obtain ⟨past, hr⟩ := h w hw
  exact shares_le_held hr hne (f.installation.find_volume hw)

/-! ### Lists of the Volumes -/

/-- What a list of the Volumes says about a Pool, after steps that left the Pool alone. -/
structure Listing (worlds : Table World.volumeID) (uid : String) (listed : Table VolumeObject.id) : Prop where
  known : ∀ id, worlds.find id = none → listed.find id = none
  present : ∀ w ∈ worlds.rows, ∀ object, listed.find w.volumeID = some object → Listed w uid object.state
  absent : ∀ w ∈ worlds.rows, listed.find w.volumeID = none → w.held uid = 0

theorem Fleet.listing (f : Fleet) : Listing f.worlds uid f.volumes where
  known id hunused := by
    by_contra hfound
    obtain ⟨object, hfind⟩ := Option.ne_none_iff_exists'.mp hfound
    obtain ⟨w, hw, hobject⟩ := List.mem_filterMap.mp (Table.mem_of_find hfind)
    have hid : w.volumeID = id := (World.volumeObject_id hobject).symm.trans (Table.key_of_find hfind)
    simp [← hid, Table.find_of_mem hw] at hunused
  present w hw object hfind := by
    rw [World.volumeID, Fleet.volumes, f.installation.find_volume hw] at hfind
    obtain ⟨state, hstate, rfl⟩ := Option.map_eq_some_iff.mp hfind
    refine ⟨.head hstate, fun x hx href => ?_⟩
    obtain rfl : state = x := Option.some.inj (hstate.symm.trans hx)
    exact href
  absent w hw hfind := by
    rw [World.volumeID, Fleet.volumes, f.installation.find_volume hw] at hfind
    exact World.held_none (Option.map_eq_none_iff.mp hfind)

/-- A torn read does not report less than the volumes hold. -/
theorem heldBytes_le_reserved (h : f.Running) (hlisting : Listing f.worlds uid listed)
    (hread : reservedBytesForPool listed f.moves uid = .ok reserved) : heldBytes f.worlds uid ≤ reserved := by
  obtain ⟨-, hvolumes, hmoves, rfl, -⟩ := reservedBytesForPool_ok.mp hread
  have hown : ∀ w ∈ f.worlds.rows, ∀ m ∈ w.store.moves.rows, Tally.Fair (moveReservation listed) uid m :=
    fun w hw m hm => hmoves m (List.mem_flatMap.mpr ⟨w, hw, hm⟩)
  have hworlds : heldBytes f.worlds uid ≤ (f.worlds.rows.map fun w =>
      ((listed.find w.volumeID).map (Tally.share VolumeObject.charge uid)).getD 0 +
        (w.store.moves.rows.map (Tally.share (moveReservation listed) uid)).sum).sum := by
    refine List.sum_le_sum fun w hw => ?_
    obtain ⟨past, hr⟩ := h w hw
    cases hfind : listed.find w.volumeID with
    | none =>
      rw [hlisting.absent w hw hfind, Option.map_none, Option.getD_none, zero_add]
      exact Tally.sum_share_nonneg (hown w hw)
    | some object =>
      rw [Option.map_some, Option.getD_some]
      exact held_le_shares hr hfind (hlisting.present w hw object hfind) (hvolumes object (Table.mem_of_find hfind)) (hown w hw)
  have hlisted := Table.sum_find_le f.worlds.nodup (Tally.share VolumeObject.charge uid) listed
    fun object hobject => (hvolumes object hobject).share_nonneg
  have hflat : (f.moves.map (Tally.share (moveReservation listed) uid)).sum =
      (f.worlds.rows.map fun w => (w.store.moves.rows.map (Tally.share (moveReservation listed) uid)).sum).sum := by
    rw [Fleet.moves, Installation.moves, List.flatMap, List.map_flatten, List.sum_flatten, List.map_map, List.map_map]
    rfl
  rw [List.sum_map_add] at hworlds
  rw [ledgerSum, hflat]
  omega

/-! ### Steps -/

/-- The step takes nothing of the Pool, and hands nothing over to it. -/
structure Quiet (uid : String) (w : World) (act : WorldAct) (next : World) : Prop where
  admits : act.admits uid = false
  handsOver : w.handsOver uid act = false
  stepped : w.step act = .ok next

theorem WorldStep.seen (hs : WorldStep w act next) (hw : WorldSound w) (hv : SeenVolume w.history v) :
    SeenVolume next.history v := by
  cases hw.store_change hs with
  | same store past =>
    rw [World.history, store, past]
    exact hv
  | write op step past own =>
    rw [World.history, past]
    exact hv.older

theorem Listed.quiet (h : Listed w uid v) (hr : WorldRun (w :: past)) (hq : Quiet uid w act next) : Listed next uid v := by
  have hs := World.step_inv hq.stepped
  refine ⟨hs.seen (WorldRun.sound hr w (by simp)) h.seen, fun x hx href => ?_⟩
  rcases hs.refers hr hq.admits hx href with ⟨y, hy, hbefore⟩ | ⟨-, -, -, -, -, -, -, -, -, hover⟩
  · exact h.stayed y hy hbefore
  · simp [hq.handsOver] at hover

theorem Listing.quiet (h : Listing worlds uid listed) (hw : worlds.find w.volumeID = some w) (hr : WorldRun (w :: past))
    (hq : Quiet uid w act next) : Listing (worlds.put next) uid listed := by
  have hid := (World.step_inv hq.stepped).volumeID_eq (WorldRun.sound hr w (by simp))
  have hnext : WorldRun (next :: w :: past) := hr.next (Run.onHead_cons.mpr hq.stepped)
  refine ⟨fun id hunused => ?_, fun u hu object hfind => ?_, fun u hu hfind => ?_⟩
  · by_cases hsame : next.volumeID = id
    · subst hsame
      simp at hunused
    · exact h.known id (Table.find_put_ne hsame ▸ hunused)
  · rcases List.mem_cons.mp hu with rfl | hu
    · exact (h.present w (Table.mem_of_find hw) object (hid ▸ hfind)).quiet hr hq
    · exact h.present u (List.mem_of_mem_filter hu) object hfind
  · rcases List.mem_cons.mp hu with rfl | hu
    · have hle := (World.step_inv hq.stepped).held_le hr hq.admits
      rw [h.absent w (Table.mem_of_find hw) (hid ▸ hfind)] at hle
      exact hle.antisymm (World.held_nonneg hnext)
    · exact h.absent u (List.mem_of_mem_filter hu) hfind

theorem heldBytes_quiet (hw : worlds.find w.volumeID = some w) (hr : WorldRun (w :: past)) (hs : w.step act = .ok next)
    (hadmits : act.admits uid = false) : heldBytes (worlds.put next) uid ≤ heldBytes worlds uid := by
  have hstep := World.step_inv hs
  have hid := hstep.volumeID_eq (WorldRun.sound hr w (by simp))
  have hput : heldBytes (worlds.put next) uid + w.held uid = heldBytes worlds uid + next.held uid := heldBytes_put (hid ▸ hw)
  have hle := hstep.held_le hr hadmits
  omega

theorem World.bound_bytes {pool : PoolReference} (h : w.step (.external (.volume (.bindInitialPool v pool))) = .ok next)
    (hx : next.store.volume = some x) : x.capacityBytes = v.capacityBytes := by
  have hstored : ∀ {t : Store}, w.store.apply (.volume (.bindInitialPool v pool)) = .ok t → t.volume = some x →
      x.capacityBytes = v.capacityBytes := by
    intro t happlied ht
    cases Store.apply_inv happlied with
    | volume current accepted =>
      obtain rfl := Option.some.inj ht
      simp only [applyVolumeWrite, bindInitialPool, seq_ok, require_ok, pure_ok] at accepted
      obtain ⟨⟨-, -, -, -, hbytes⟩, -, rfl⟩ := accepted
      exact hbytes
  cases World.step_inv h with
  | external allowed applied => exact hstored applied hx

theorem World.opened_held (h : v.unstartedCreation) (hforeign : ∀ pool, v.initialPool = some pool → pool.uid ≠ uid) :
    (World.opened id v).held uid = 0 := by
  rw [World.held, if_neg]
  rintro (⟨x, hx, href⟩ | ⟨name, m, hm, -⟩)
  · obtain rfl : v = x := Option.some.inj hx
    rcases State.refersTo_iff.mp href with ⟨-, pool, hpool, huid⟩ | ⟨copy, hcopy, -⟩
    · exact hforeign pool hpool huid
    · simp [not_unstarted_of_copy hcopy] at h
  · simp [World.opened] at hm

theorem Listing.opened (h : Listing worlds uid listed) (hunused : worlds.find id = none) (hheld : (World.opened id v).held uid = 0) :
    Listing (worlds.put (.opened id v)) uid listed := by
  refine ⟨fun other hother => ?_, fun u hu object hfind => ?_, fun u hu hfind => ?_⟩
  · by_cases hsame : (World.opened id v).volumeID = other
    · subst hsame
      simp at hother
    · exact h.known other (Table.find_put_ne hsame ▸ hother)
  · rcases List.mem_cons.mp hu with rfl | hu
    · exact absurd (hfind.symm.trans (h.known id hunused)) (by simp)
    · exact h.present u (List.mem_of_mem_filter hu) object hfind
  · rcases List.mem_cons.mp hu with rfl | hu
    · exact hheld
    · exact h.absent u (List.mem_of_mem_filter hu) hfind

/-! ### Critical sections -/

def Holder.Counted (home : PoolHome) (limit : Int) (worlds : Table World.volumeID) : Holder → Prop
  | .create pool request stage => pool.uid = home.uid ∧
    match stage with
    | .locked => True
    | .volumes listed => Listing worlds home.uid listed
    | .fits | .placed => 0 < request.capacityBytes ∧ heldBytes worlds home.uid + request.capacityBytes ≤ limit
  | .grant pool _ _ stage => pool.uid = home.uid ∧
    match stage with
    | .locked => True
    | .ready current => current.uid = home.uid
    | .volumes current listed => current.uid = home.uid ∧ Listing worlds home.uid listed
    | .moves current listed moves => current.uid = home.uid ∧ Listing worlds home.uid listed ∧
      ∀ reserved, reservedBytesForPool listed moves home.uid = .ok reserved → heldBytes worlds home.uid ≤ reserved
  | .deletion _ _ => True

/-- What a section knows stays true while the lists stay good and nothing is added to the Pool. -/
theorem Holder.Counted.mono {holder : Holder} {worlds' : Table World.volumeID} (h : holder.Counted home limit worlds)
    (hlisting : ∀ listed, Listing worlds home.uid listed → Listing worlds' home.uid listed)
    (hheld : heldBytes worlds' home.uid ≤ heldBytes worlds home.uid) : holder.Counted home limit worlds' := by
  cases holder with
  | create pool request stage =>
    refine ⟨h.1, ?_⟩
    have hstage := h.2
    cases stage with
    | locked => trivial
    | volumes listed => exact hlisting listed hstage
    | fits | placed => exact ⟨hstage.1, (by omega : _ ≤ heldBytes worlds home.uid + request.capacityBytes).trans hstage.2⟩
  | grant pool volumeID name stage =>
    refine ⟨h.1, ?_⟩
    have hstage := h.2
    cases stage with
    | locked => trivial
    | ready current => exact hstage
    | volumes current listed => exact ⟨hstage.1, hlisting listed hstage.2⟩
    | moves current listed moves =>
      exact ⟨hstage.1, hlisting listed hstage.2.1, fun reserved hread => hheld.trans (hstage.2.2 reserved hread)⟩
  | deletion pool stage => trivial

/-- The Pool is not over-reserved, and the section that holds its lock has counted right. -/
structure Fleet.Counted (home : PoolHome) (limit : Int) (f : Fleet) : Prop where
  fits : heldBytes f.worlds home.uid ≤ max 0 limit
  holder : ∀ holder, f.lock = some holder → holder.Counted home limit f.worlds

theorem Fleet.Counted.hold (h : f.Counted home limit) {pools : List RegisteredPool} {lock : Option Holder}
    (hlock : ∀ holder, lock = some holder → holder.Counted home limit f.worlds) :
    Fleet.Counted home limit { f with pools, lock } := ⟨h.fits, hlock⟩

theorem FleetStep.counted {act : FleetAct} (hs : FleetStep home limit f act f') (hrunning : f.Running)
    (h : f.Counted home limit) : f'.Counted home limit := by
  have hfound : ∀ {id w}, f.worlds.find id = some w → f.worlds.find w.volumeID = some w ∧ ∃ past, WorldRun (w :: past) := by
    intro id w hfind
    exact ⟨Table.find_of_mem (Table.mem_of_find hfind), hrunning w (Table.mem_of_find hfind)⟩
  -- an admission adds what its own volume holds
  have hadmit : ∀ {id w next act} {requested : Int}, f.worlds.find id = some w → w.step act = .ok next →
      (∀ x, next.store.volume = some x → x.capacityBytes = requested) → 0 < requested →
      heldBytes f.worlds home.uid + requested ≤ limit →
      Fleet.Counted home limit { f with worlds := f.worlds.put next, lock := none } := by
    intro id w next act requested hfind hstep hbytes hpositive hfits
    obtain ⟨hw, past, hr⟩ := hfound hfind
    have hid := (World.step_inv hstep).volumeID_eq (WorldRun.sound hr w (by simp))
    have hnext : WorldRun (next :: w :: past) := hr.next (Run.onHead_cons.mpr hstep)
    have hheld : next.held home.uid ≤ requested := by
      cases hx : next.store.volume with
      | none =>
        rw [World.held_none hx]
        exact hpositive.le
      | some x => exact hbytes x hx ▸ World.held_le hnext hx
    have hput : heldBytes (f.worlds.put next) home.uid + w.held home.uid = _ := heldBytes_put (hid ▸ hw)
    have hnonneg : 0 ≤ w.held home.uid := World.held_nonneg hr
    refine ⟨?_, by simp⟩
    show heldBytes (f.worlds.put next) home.uid ≤ max 0 limit
    omega
  cases hs with
  | register registered => exact h.hold h.holder
  | @appear volumeID state foreign unused unstarted =>
    have hheld : (World.opened volumeID state).held home.uid = 0 := World.opened_held unstarted foreign
    have hsame : heldBytes (f.worlds.put (.opened volumeID state)) home.uid = heldBytes f.worlds home.uid := by
      rw [heldBytes_new unused, hheld, zero_add]
    exact ⟨hsame.trans_le h.fits, fun holder hlock =>
      (h.holder holder hlock).mono (fun listed hlisting => hlisting.opened unused hheld) hsame.le⟩
  | step plain found exclusive stepped =>
    obtain ⟨hw, past, hr⟩ := hfound found
    have hheld := heldBytes_quiet hw hr stepped plain
    refine ⟨hheld.trans h.fits, fun holder hlock => (h.holder holder hlock).mono (fun listed hlisting => ?_) hheld⟩
    refine hlisting.quiet hw hr ⟨plain, ?_, stepped⟩
    by_contra hover
    rw [exclusive (by simpa using hover)] at hlock
    cases hlock
  | beginCreate own unlocked | beginGrant own unlocked => exact h.hold (by rintro holder ⟨⟩; exact ⟨own.uid, trivial⟩)
  | createVolumes locked =>
    have hholder := h.holder _ locked
    exact h.hold (by rintro holder ⟨⟩; exact ⟨hholder.1, f.listing⟩)
  | createMoves locked read fits =>
    have hholder := h.holder _ locked
    rw [hholder.1] at read
    have hreserved := heldBytes_le_reserved hrunning hholder.2 read
    simp only [fitsReservation, Bool.and_eq_true, decide_eq_true_eq] at fits
    exact h.hold (by rintro holder ⟨⟩; exact ⟨hholder.1, fits.1.1.1, by omega⟩)
  | createPlace locked ready =>
    have hholder := h.holder _ locked
    exact h.hold (by rintro holder ⟨⟩; exact hholder)
  | @createVolume pool request uid locked unused unstarted =>
    obtain ⟨-, hpositive, hfits⟩ := h.holder _ locked
    have hheld : (World.opened request.volumeID (newVolumeObject request pool uid)).held home.uid ≤ request.capacityBytes :=
      World.held_le (World.opened_run unstarted) rfl
    refine ⟨?_, by simp⟩
    rw [heldBytes_new unused]
    omega
  | createBind locked requested found stepped =>
    obtain ⟨-, hpositive, hfits⟩ := h.holder _ locked
    refine hadmit found stepped (fun x hx => ?_) hpositive hfits
    rw [World.bound_bytes stepped hx, requested.1]
  | grantReady locked ready =>
    have hholder := h.holder _ locked
    exact h.hold (by rintro holder ⟨⟩; exact ⟨hholder.1, (readyPoolForIdentity_inv ready).2.2.1.trans hholder.1⟩)
  | grantVolumes locked found stepped =>
    obtain ⟨hpool, hcurrent⟩ := h.holder _ locked
    obtain ⟨hw, past, hr⟩ := hfound found
    refine ⟨(heldBytes_quiet hw hr stepped rfl).trans h.fits, ?_⟩
    rintro holder ⟨⟩
    exact ⟨hpool, hcurrent, f.listing.quiet hw hr ⟨rfl, rfl, stepped⟩⟩
  | grantMoves locked =>
    obtain ⟨hpool, hcurrent, hlisting⟩ := h.holder _ locked
    exact h.hold (by
      rintro holder ⟨⟩
      exact ⟨hpool, hcurrent, hlisting, fun reserved hread => heldBytes_le_reserved hrunning hlisting hread⟩)
  | grantWrite locked source read fits found stepped =>
    obtain ⟨-, hcurrent, hlisting, hcounted⟩ := h.holder _ locked
    rw [hcurrent] at read
    have hreserved := hcounted _ read
    refine hadmit found stepped (fun x hx => ?_) fits.1 (by omega)
    obtain ⟨hw, past, hr⟩ := hfound found
    obtain ⟨v, hv, hkept, -⟩ := (World.step_inv stepped).account hx
    have hseen := (hlisting.present _ (Table.mem_of_find found) _ (Table.key_of_find found ▸ source)).seen
    rw [hkept.bytes]
    exact (WorldRun.accounted hr _ (by simp)).constant v _ (.head hv) hseen
  | beginDeletion own stamped unlocked | deletionVolumes locked exact' | deletionMoves locked =>
    exact h.hold (by rintro holder ⟨⟩; trivial)
  | removeFinalizer locked | unlock => exact h.hold (by simp)

theorem FleetRun.counted {l : List Fleet} (hr : FleetRun home limit l) : ∀ f ∈ l, f.Counted home limit := by
  refine Run.forall_mem ?_ ?_ hr
  · rintro f ⟨hempty, hunlocked, -⟩
    refine ⟨?_, by simp [hunlocked]⟩
    rw [heldBytes, hempty, List.map_nil, List.sum_nil]
    exact le_max_left _ _
  · intro f f' past act hr ih hs
    exact (Fleet.step_inv (Run.onHead_cons.mp hs)).counted (FleetRun.running hr f (by simp)) (ih f (by simp))

/-- However the steps of all volumes are interleaved with the admissions of a Pool, the ledger of the Pool stays within
    its limit, and what an admission reads, if the read succeeds, is no less than what the ledger charges the Pool. -/
theorem no_over_reservation (home : PoolHome) (limit : Int) (hne : home.uid ≠ "") (f : Fleet) (past : List Fleet)
    (hr : FleetRun home limit (f :: past)) :
    ledgerSum f.volumes f.moves home.uid ≤ max 0 limit ∧
      (∀ pool request listed reserved, f.lock = some (.create pool request (.volumes listed)) →
        reservedBytesForPool listed f.moves pool.uid = .ok reserved → ledgerSum f.volumes f.moves home.uid ≤ reserved) ∧
      (∀ pool volumeID name current listed moves reserved,
        f.lock = some (.grant pool volumeID name (.moves current listed moves)) →
        reservedBytesForPool listed moves current.uid = .ok reserved → ledgerSum f.volumes f.moves home.uid ≤ reserved) := by
  have hrunning := FleetRun.running hr f (by simp)
  have hcounted := FleetRun.counted hr f (by simp)
  have hledger := ledgerSum_le_heldBytes hrunning hne
  refine ⟨hledger.trans hcounted.fits, ?_, ?_⟩
  · intro pool request listed reserved hlock hread
    obtain ⟨hpool, hlisting⟩ := hcounted.holder _ hlock
    rw [hpool] at hread
    exact hledger.trans (heldBytes_le_reserved hrunning hlisting hread)
  · intro pool volumeID name current listed moves reserved hlock hread
    obtain ⟨-, hcurrent, -, hreserved⟩ := hcounted.holder _ hlock
    rw [hcurrent] at hread
    exact hledger.trans (hreserved reserved hread)

def admittingHome : PoolHome := { name := "pool", uid := "pool", nodeName := "node" }

def sourceHome : PoolHome := { name := "pool-a", uid := "pool-a-uid", nodeName := "node-a" }

/-- Two creations. Between the two lists of the second one a Move hands the first volume over to another Pool. -/
def admittingActs : List FleetAct :=
  let steps (acts : List WorldAct) : List FleetAct := acts.map (.step sampleVolumeID)
  [.beginCreate sourcePool { volumeID := sampleVolumeID, requestName := "pvc-1", capacityBytes := 10 }, .createVolumes,
    .createMoves, .createPlace sampleReader, .createVolume "volume-1"] ++
  steps (creationActs ++ claimActs "move" "move-1" "node-a" ++ approvalActs "move" samplePreparation.pool "node-b" ++
    recorded "move" settledCluster [] ++ recorded "move" settledCluster [.evidence "move" .promotion] ++
    [.start "move", .observe "move" settledCluster]) ++
  [.beginCreate sourcePool { volumeID := "second", requestName := "pvc-2", capacityBytes := 8 }, .createVolumes,
    .step sampleVolumeID (.write "move")]

def admittingFleets : List Fleet :=
  Run.replay (fun f act => f.step sourceHome 20 act) { pools := [sourcePool], worlds := .empty World.volumeID, lock := none } []
    admittingActs

theorem no_over_reservation_created : ∃ f past, admittingFleets = f :: past ∧
    (f.volumes.find sampleVolumeID).any (·.state.ownerNode = "node-b") ∧ ledgerSum f.volumes f.moves sourceHome.uid = 10 ∧
    ledgerSum f.volumes f.moves sourceHome.uid ≤ max 0 20 := by
  have hcheck : (admittingFleets.head?.any fun f => (f.volumes.find sampleVolumeID).any (·.state.ownerNode = "node-b") &&
      decide (ledgerSum f.volumes f.moves sourceHome.uid = 10)) = true := by
    decide +kernel
  obtain ⟨f, past, hl, hf⟩ := Run.exists_head hcheck
  obtain ⟨hmoved, hsum⟩ := Bool.and_eq_true_iff.mp hf
  have hinitial : Fleet.Initial sourceHome { pools := [sourcePool], worlds := .empty World.volumeID, lock := none } :=
    ⟨rfl, rfl, by simp [sourcePool, sourceHome, fixedPool]⟩
  have hr : FleetRun sourceHome 20 (f :: past) := Run.replay_run (.start hinitial) hl
  exact ⟨f, past, hl, hmoved, of_decide_eq_true hsum, (no_over_reservation sourceHome 20 (by decide) f past hr).1⟩

end ShiftPV
