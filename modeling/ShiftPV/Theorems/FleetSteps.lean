import ShiftPV.PoolAdmission
import ShiftPV.Theorems.LedgerAvailable

/-! What a step of the installation does: a step of one volume, a new volume, or a step of the section that holds the lock
    of the Pool. -/

namespace ShiftPV
open Check

structure RegisteredPool.Is (pool : RegisteredPool) (home : PoolHome) : Prop where
  uid : pool.uid = home.uid
  name : pool.name = home.name
  nodeName : pool.nodeName = home.nodeName

def World.opened (volumeID : String) (state : State) : World where
  store := { volumeID, volume := some state, cleanup := none, moves := .empty Move.name }
  past := []
  passes := fun _ => none

inductive FleetStep (home : PoolHome) (limit : Int) (f : Fleet) : FleetAct → Fleet → Prop where
  | register {pools : List RegisteredPool} (registered : f.registered home pools) :
      FleetStep home limit f (.register pools) { f with pools }
  | appear {volumeID : String} {state : State} (foreign : ∀ pool, state.initialPool = some pool → pool.uid ≠ home.uid)
      (unused : f.worlds.find volumeID = none) (unstarted : state.unstartedCreation) :
      FleetStep home limit f (.appear volumeID state) { f with worlds := f.worlds.put (.opened volumeID state) }
  | step {volumeID : String} {act : WorldAct} {w next : World} (plain : act.admits home.uid = false)
      (found : f.worlds.find volumeID = some w) (exclusive : w.handsOver home.uid act → f.lock = none)
      (stepped : w.step act = .ok next) :
      FleetStep home limit f (.step volumeID act) { f with worlds := f.worlds.put next }
  | beginCreate {pool : RegisteredPool} {request : CreationRequest} (own : pool.Is home) (unlocked : f.lock = none) :
      FleetStep home limit f (.beginCreate pool request) { f with lock := some (.create pool request .locked) }
  | createVolumes {pool : RegisteredPool} {request : CreationRequest} (locked : f.lock = some (.create pool request .locked)) :
      FleetStep home limit f .createVolumes { f with lock := some (.create pool request (.volumes f.volumes)) }
  | createMoves {pool : RegisteredPool} {request : CreationRequest} {listed : Table VolumeObject.id} {reserved : Int}
      (locked : f.lock = some (.create pool request (.volumes listed)))
      (read : reservedBytesForPool listed f.moves pool.uid = .ok reserved)
      (fits : fitsReservation request.capacityBytes reserved limit) :
      FleetStep home limit f .createMoves { f with lock := some (.create pool request .fits) }
  | createPlace {pool current : RegisteredPool} {request : CreationRequest} {reader : PoolReader}
      (locked : f.lock = some (.create pool request .fits))
      (ready : reader.readyPoolForIdentity f.pools pool.name pool.uid pool.nodeName = .ok current) :
      FleetStep home limit f (.createPlace reader) { f with lock := some (.create pool request .placed) }
  | createVolume {pool : RegisteredPool} {request : CreationRequest} {uid : String}
      (locked : f.lock = some (.create pool request .placed)) (unused : f.worlds.find request.volumeID = none)
      (unstarted : (newVolumeObject request pool uid).unstartedCreation) :
      FleetStep home limit f (.createVolume uid)
        { f with worlds := f.worlds.put (.opened request.volumeID (newVolumeObject request pool uid)), lock := none }
  | createBind {pool : RegisteredPool} {request : CreationRequest} {expected : State} {w next : World}
      (locked : f.lock = some (.create pool request .placed))
      (requested : expected.capacityBytes = request.capacityBytes ∧ expected.initialNode = pool.nodeName)
      (found : f.worlds.find request.volumeID = some w)
      (stepped : w.step (.external (.volume (.bindInitialPool expected { name := pool.name, uid := pool.uid }))) = .ok next) :
      FleetStep home limit f (.createBind expected) { f with worlds := f.worlds.put next, lock := none }
  | beginGrant {pool : RegisteredPool} {volumeID name : String} (own : pool.Is home) (unlocked : f.lock = none) :
      FleetStep home limit f (.beginGrant pool volumeID name) { f with lock := some (.grant pool volumeID name .locked) }
  | grantReady {pool current : RegisteredPool} {volumeID name : String} {reader : PoolReader}
      (locked : f.lock = some (.grant pool volumeID name .locked))
      (ready : reader.readyPoolForIdentity f.pools pool.name pool.uid pool.nodeName = .ok current) :
      FleetStep home limit f (.grantReady reader) { f with lock := some (.grant pool volumeID name (.ready current)) }
  | grantVolumes {pool current : RegisteredPool} {volumeID name : String} {w next : World}
      (locked : f.lock = some (.grant pool volumeID name (.ready current)))
      (found : f.worlds.find volumeID = some w) (stepped : w.step (.reread name) = .ok next) :
      FleetStep home limit f .grantVolumes
        { f with worlds := f.worlds.put next, lock := some (.grant pool volumeID name (.volumes current f.volumes)) }
  | grantMoves {pool current : RegisteredPool} {volumeID name : String} {listed : Table VolumeObject.id}
      (locked : f.lock = some (.grant pool volumeID name (.volumes current listed))) :
      FleetStep home limit f .grantMoves
        { f with lock := some (.grant pool volumeID name (.moves current listed f.moves)) }
  | grantWrite {pool current : RegisteredPool} {volumeID name placementPodUID : String} {listed : Table VolumeObject.id}
      {moves : List Move} {volume : VolumeObject} {reserved : Int} {w next : World}
      (locked : f.lock = some (.grant pool volumeID name (.moves current listed moves)))
      (source : listed.find volumeID = some volume) (read : reservedBytesForPool listed moves current.uid = .ok reserved)
      (fits : 0 < volume.state.capacityBytes ∧ volume.state.capacityBytes ≤ limit - reserved)
      (found : f.worlds.find volumeID = some w)
      (stepped : w.step (.evidence name (.grant { name := current.name, uid := current.uid } current.nodeName
        placementPodUID)) = .ok next) :
      FleetStep home limit f (.grantWrite placementPodUID) { f with worlds := f.worlds.put next, lock := none }
  | beginDeletion {pool : RegisteredPool} (own : pool.uid = home.uid ∧ pool.name = home.name)
      (stamped : ∀ registered ∈ f.pools, registered.uid = home.uid → registered.isDeleting) (unlocked : f.lock = none) :
      FleetStep home limit f (.beginDeletion pool) { f with lock := some (.deletion pool .locked) }
  | deletionVolumes {pool target : RegisteredPool} (locked : f.lock = some (.deletion pool .locked))
      (exact : exactPool f.pools pool.name pool.uid = .ok target) :
      FleetStep home limit f .deletionVolumes { f with lock := some (.deletion pool (.volumes target f.volumes)) }
  | deletionMoves {pool target : RegisteredPool} {listed : Table VolumeObject.id} {others : List Blocker}
      (locked : f.lock = some (.deletion pool (.volumes target listed))) :
      FleetStep home limit f (.deletionMoves others)
        { f with lock := some (.deletion pool (.checked (safeReport (checkPoolDeleteAfter listed f.moves others target)))) }
  | removeFinalizer {pool : RegisteredPool} (locked : f.lock = some (.deletion pool (.checked true))) :
      FleetStep home limit f .removeFinalizer
        { f with pools := f.pools.filterMap (removePoolFinalizer pool.uid), lock := none }
  | unlock : FleetStep home limit f .unlock { f with lock := none }

variable {home : PoolHome} {limit : Int} {f f' : Fleet} {act : FleetAct} {w next : World}

theorem Fleet.advance_inv {volumeID : String} {act : WorldAct} (h : f.advance volumeID act = .ok f') :
    ∃ w next, f.worlds.find volumeID = some w ∧ w.step act = .ok next ∧ f' = { f with worlds := f.worlds.put next } := by
  rw [Fleet.advance, bind_ok] at h
  obtain ⟨w, hw, h⟩ := h
  rw [bind_ok] at h
  obtain ⟨next, hnext, h⟩ := h
  refine ⟨w, next, ?_, hnext, (pure_ok.mp h).symm⟩
  unfold Fleet.world at hw
  split at hw
  · rename_i hfound
    exact pure_ok.mp hw ▸ hfound
  · simp at hw

theorem Fleet.add_inv {volumeID : String} {state : State} (h : f.add volumeID state = .ok f') :
    f.worlds.find volumeID = none ∧ state.unstartedCreation ∧
      f' = { f with worlds := f.worlds.put (.opened volumeID state) } := by
  simp only [Fleet.add, seq_ok, require_ok, pure_ok] at h
  exact ⟨h.1, h.2.1, h.2.2.symm⟩

theorem Fleet.hold_inv {holder : Holder} (h : f.hold holder = .ok f') : f.lock = none ∧ f' = { f with lock := some holder } := by
  simp only [Fleet.hold, seq_ok, require_ok, pure_ok] at h
  exact ⟨Option.isNone_iff_eq_none.mp h.1, h.2.symm⟩

theorem Fleet.step_inv (h : f.step home limit act = .ok f') : FleetStep home limit f act f' := by
  cases act with
  | register pools =>
    simp only [Fleet.step, seq_ok, require_ok, pure_ok] at h
    obtain ⟨hregistered, rfl⟩ := h
    exact .register hregistered
  | appear volumeID state =>
    rw [Fleet.step, seq_ok, require_ok] at h
    obtain ⟨hforeign, h⟩ := h
    obtain ⟨hunused, hunstarted, rfl⟩ := Fleet.add_inv h
    exact .appear (fun pool hpool => by simpa [hpool] using hforeign) hunused hunstarted
  | step volumeID act =>
    rw [Fleet.step, seq_ok, require_ok, bind_ok] at h
    obtain ⟨hplain, u, hu, h⟩ := h
    rw [seq_ok, require_ok] at h
    obtain ⟨hexclusive, h⟩ := h
    obtain ⟨w, next, hfound, hstepped, rfl⟩ := Fleet.advance_inv h
    obtain rfl : w = u := by
      rw [Fleet.world, hfound] at hu
      exact pure_ok.mp hu
    exact .step (by simpa using hplain) hfound (fun hover => Option.isNone_iff_eq_none.mp (hexclusive hover)) hstepped
  | beginCreate pool request =>
    rw [Fleet.step, seq_ok, require_ok] at h
    obtain ⟨⟨huid, hname, hnode⟩, h⟩ := h
    obtain ⟨hunlocked, rfl⟩ := Fleet.hold_inv h
    exact .beginCreate ⟨huid, hname, hnode⟩ hunlocked
  | createVolumes =>
    rw [Fleet.step] at h
    split at h
    · rename_i hlocked
      obtain rfl := pure_ok.mp h
      exact .createVolumes hlocked
    · simp at h
  | createMoves =>
    rw [Fleet.step] at h
    split at h
    · rename_i hlocked
      rw [bind_ok] at h
      obtain ⟨reserved, hread, h⟩ := h
      rw [seq_ok, require_ok] at h
      obtain ⟨hfits, h⟩ := h
      obtain rfl := pure_ok.mp h
      exact .createMoves hlocked hread hfits
    · simp at h
  | createPlace reader =>
    rw [Fleet.step] at h
    split at h
    · rename_i hlocked
      rw [bind_ok] at h
      obtain ⟨current, hready, h⟩ := h
      obtain rfl := pure_ok.mp h
      exact .createPlace hlocked hready
    · simp at h
  | createVolume uid =>
    rw [Fleet.step] at h
    split at h
    · rename_i hlocked
      rw [bind_ok] at h
      obtain ⟨g, hg, h⟩ := h
      obtain ⟨hunused, hunstarted, rfl⟩ := Fleet.add_inv hg
      obtain rfl := pure_ok.mp h
      exact .createVolume hlocked hunused hunstarted
    · simp at h
  | createBind expected =>
    rw [Fleet.step] at h
    split at h
    · rename_i hlocked
      rw [seq_ok, require_ok, bind_ok] at h
      obtain ⟨hrequested, g, hg, h⟩ := h
      obtain ⟨w, next, hfound, hstepped, rfl⟩ := Fleet.advance_inv hg
      obtain rfl := pure_ok.mp h
      exact .createBind hlocked hrequested hfound hstepped
    · simp at h
  | beginGrant pool volumeID name =>
    rw [Fleet.step, seq_ok, require_ok] at h
    obtain ⟨⟨huid, hname, hnode⟩, h⟩ := h
    obtain ⟨hunlocked, rfl⟩ := Fleet.hold_inv h
    exact .beginGrant ⟨huid, hname, hnode⟩ hunlocked
  | grantReady reader =>
    rw [Fleet.step] at h
    split at h
    · rename_i hlocked
      rw [bind_ok] at h
      obtain ⟨current, hready, h⟩ := h
      obtain rfl := pure_ok.mp h
      exact .grantReady hlocked hready
    · simp at h
  | grantVolumes =>
    rw [Fleet.step] at h
    split at h
    · rename_i hlocked
      rw [bind_ok] at h
      obtain ⟨g, hg, h⟩ := h
      obtain ⟨w, next, hfound, hstepped, rfl⟩ := Fleet.advance_inv hg
      obtain rfl := pure_ok.mp h
      exact .grantVolumes hlocked hfound hstepped
    · simp at h
  | grantMoves =>
    rw [Fleet.step] at h
    split at h
    · rename_i hlocked
      obtain rfl := pure_ok.mp h
      exact .grantMoves hlocked
    · simp at h
  | grantWrite placementPodUID =>
    rw [Fleet.step] at h
    split at h
    · rename_i hlocked
      split at h
      · simp at h
      · rename_i hvolume
        rw [bind_ok] at h
        obtain ⟨reserved, hread, h⟩ := h
        rw [seq_ok, require_ok, seq_ok, bind_ok] at h
        obtain ⟨hfits, -, g, hg, h⟩ := h
        obtain ⟨w, next, hfound, hstepped, rfl⟩ := Fleet.advance_inv hg
        obtain rfl := pure_ok.mp h
        exact .grantWrite hlocked hvolume hread hfits hfound hstepped
    · simp at h
  | beginDeletion pool =>
    rw [Fleet.step, seq_ok, require_ok, seq_ok, require_ok] at h
    obtain ⟨⟨huid, hname, -⟩, hstamped, h⟩ := h
    obtain ⟨hunlocked, rfl⟩ := Fleet.hold_inv h
    refine .beginDeletion ⟨huid, hname⟩ ?_ hunlocked
    intro registered hmem hown
    simpa [hown] using List.all_eq_true.mp hstamped registered hmem
  | deletionVolumes =>
    rw [Fleet.step] at h
    split at h
    · rename_i hlocked
      rw [bind_ok] at h
      obtain ⟨target, hexact, h⟩ := h
      obtain rfl := pure_ok.mp h
      exact .deletionVolumes hlocked hexact
    · simp at h
  | deletionMoves others =>
    rw [Fleet.step] at h
    split at h
    · rename_i hlocked
      obtain rfl := pure_ok.mp h
      exact .deletionMoves hlocked
    · simp at h
  | removeFinalizer =>
    rw [Fleet.step] at h
    split at h
    · rename_i hlocked
      obtain rfl := pure_ok.mp h
      exact .removeFinalizer hlocked
    · simp at h
  | unlock =>
    rw [Fleet.step] at h
    obtain rfl := pure_ok.mp h
    exact .unlock

/-! ### The volumes -/

inductive WorldsChange (f f' : Fleet) : Prop where
  | kept (same : f'.worlds = f.worlds)
  | opened (volumeID : String) (state : State) (unused : f.worlds.find volumeID = none) (unstarted : state.unstartedCreation)
      (worlds : f'.worlds = f.worlds.put (.opened volumeID state))
  | stepped (act : WorldAct) (w next : World) (mem : w ∈ f.worlds.rows) (step : w.step act = .ok next)
      (worlds : f'.worlds = f.worlds.put next)

theorem FleetStep.worlds_change (h : FleetStep home limit f act f') : WorldsChange f f' := by
  cases h with
  | appear foreign unused unstarted | createVolume locked unused unstarted => exact .opened _ _ unused unstarted rfl
  | step plain found exclusive stepped | createBind locked requested found stepped | grantVolumes locked found stepped
  | grantWrite locked source read fits found stepped => exact .stepped _ _ _ (Table.mem_of_find found) stepped rfl
  | _ => exact .kept rfl

def Fleet.Running (f : Fleet) : Prop := ∀ w ∈ f.worlds.rows, ∃ past, WorldRun (w :: past)

theorem World.opened_run {volumeID : String} {state : State} (h : state.unstartedCreation) :
    WorldRun [World.opened volumeID state] :=
  .start ⟨⟨state, rfl, h, rfl, rfl⟩, rfl, fun _ => rfl⟩

theorem Fleet.Running.put (h : f.Running) {past : List World} (hr : WorldRun (next :: past)) :
    ∀ w ∈ (f.worlds.put next).rows, ∃ past, WorldRun (w :: past) := by
  intro w hw
  rcases List.mem_cons.mp hw with rfl | hw
  · exact ⟨past, hr⟩
  · exact h w (List.mem_of_mem_filter hw)

theorem WorldsChange.running (hs : WorldsChange f f') (h : f.Running) : f'.Running := by
  cases hs with
  | kept same => exact fun w hw => h w (same ▸ hw)
  | opened volumeID state unused unstarted worlds =>
    exact fun w hw => h.put (World.opened_run unstarted) w (worlds ▸ hw)
  | stepped act w next mem step worlds =>
    obtain ⟨past, hw⟩ := h w mem
    exact fun u hu => h.put (hw.next (Run.onHead_cons.mpr step)) u (worlds ▸ hu)

theorem FleetRun.running {l : List Fleet} (hr : FleetRun home limit l) : ∀ f ∈ l, f.Running := by
  refine Run.forall_mem ?_ ?_ hr
  · rintro f ⟨hempty, -⟩ w hw
    simp [hempty] at hw
  · intro f f' past act _ ih hs
    exact (Fleet.step_inv (Run.onHead_cons.mp hs)).worlds_change.running (ih f (by simp))

theorem WorldStep.volumeID_eq {act : WorldAct} (hs : WorldStep w act next) (hw : WorldSound w) :
    next.volumeID = w.volumeID := by
  cases hw.store_change hs with
  | same store past => rw [World.volumeID, store, World.volumeID]
  | write op step past own => exact (Store.apply_inv (staleStep_cons.mp step).2).volumeID_eq

/-! ### The Pool -/

theorem readyPoolForIdentity_inv {reader : PoolReader} {stored : List RegisteredPool} {name uid nodeName : String}
    {pool : RegisteredPool} (h : reader.readyPoolForIdentity stored name uid nodeName = .ok pool) :
    pool ∈ stored ∧ pool.name = name ∧ pool.uid = uid ∧ pool.nodeName = nodeName ∧ pool.isDeleting = false := by
  rw [PoolReader.readyPoolForIdentity, bind_ok] at h
  obtain ⟨found, hfound, h⟩ := h
  rw [PoolReader.poolForIdentity, seq_ok] at hfound
  obtain ⟨-, hfound⟩ := hfound
  split at hfound
  · simp at hfound
  · rename_i stored' hfind
    rw [seq_ok, require_ok, seq_ok] at hfound
    obtain ⟨⟨huid, hnode⟩, -, hfound⟩ := hfound
    obtain rfl := pure_ok.mp hfound
    split at h
    · simp at h
    · rename_i hready
      rw [seq_ok] at h
      obtain ⟨-, h⟩ := h
      obtain rfl := pure_ok.mp h
      rw [PoolReader.poolReady, seq_ok, bind_ok] at hready
      obtain ⟨-, reason, hready, -⟩ := hready
      rw [RegisteredPool.readyAt, seq_ok, seq_ok, seq_ok, require_ok] at hready
      exact ⟨List.mem_of_find?_eq_some hfind, by simpa using List.find?_some hfind, huid, hnode, by simpa using hready.2.2.1⟩

end ShiftPV
