import ShiftPV.History
import ShiftPV.Theorems.VolumeInvariant

/-! Coherence of a history: every version of the Volume and of its Moves that was ever stored agrees with
    what is stored now, so a late write acts on a record it already knows the plan of. -/

namespace ShiftPV
open Check

/-! ### One operation -/

inductive StoreStep (s : Store) : Op → Store → Prop where
  | volume {write : VolumeWrite} {v w : State} (current : s.volume = some v)
      (accepted : applyVolumeWrite s.volumeID write v = .ok w) :
      StoreStep s (.volume write) { s with volume := some w }
  | move {name : String} {write : MoveWrite} {m n : Move} (current : s.moves.find name = some m)
      (accepted : applyMoveWrite write m = .ok n) : StoreStep s (.move name write) { s with moves := s.moves.put n }
  | create {name uid sourceNode : String} (named : name ≠ "") (identified : uid ≠ "") (absent : s.moves.find name = none)
      (unique : ∀ m ∈ s.moves.rows, m.uid ≠ uid) :
      StoreStep s (.createMove name uid sourceNode)
        { s with moves := s.moves.put (ShiftPV.createMove name uid s.volumeID sourceNode) }
  | ensureCleanup {spec : CleanupSpec} {v : State} {journal : Journal} (current : s.volume = some v)
      (deleting : v.phase = .deleting) (operation : spec.operationID = v.deletionOperationID)
      (target : v.currentCopy = some spec.target) (accepted : (s.cleanupParent v).ensure spec = .ok journal) :
      StoreStep s (.ensureVolumeCleanup spec)
        { s with cleanup := some journal, volume := some { v with hasCleanup := true } }
  | updateCleanup {expected : CleanupSpec} {next : CleanupStatus} {v : State} {journal : Journal}
      (current : s.volume = some v) (accepted : (s.cleanupParent v).updateStatus expected next = .ok journal) :
      StoreStep s (.updateVolumeCleanup expected next) { s with cleanup := some journal }
  | remove {v : State} (current : s.volume = some v) (removable : s.removable v) :
      StoreStep s .removeVolume { s with volume := none }

theorem Store.current_inv {s : Store} {v : State} (h : s.current = .ok v) : s.volume = some v := by
  unfold Store.current at h
  split at h
  · rename_i state hs
    rw [hs, pure_ok.mp h]
  · simp at h

theorem Store.move_inv {s : Store} {name : String} {m : Move} (h : s.move name = .ok m) :
    s.moves.find name = some m := by
  unfold Store.move at h
  split at h
  · rename_i move hs
    rw [hs, pure_ok.mp h]
  · simp at h

theorem Store.apply_inv {s t : Store} {op : Op} (h : s.apply op = .ok t) : StoreStep s op t := by
  cases op with
  | volume write =>
    simp only [Store.apply, bind_ok, pure_ok] at h
    obtain ⟨v, hv, w, hw, rfl⟩ := h
    exact .volume (Store.current_inv hv) hw
  | move name write =>
    simp only [Store.apply, bind_ok, pure_ok] at h
    obtain ⟨m, hm, n, hn, rfl⟩ := h
    exact .move (Store.move_inv hm) hn
  | createMove name uid sourceNode =>
    simp only [Store.apply, seq_ok, require_ok, pure_ok] at h
    obtain ⟨⟨hname, huid⟩, habsent, hunique, rfl⟩ := h
    exact .create hname huid habsent hunique
  | ensureVolumeCleanup spec =>
    rw [Store.apply, bind_ok] at h
    obtain ⟨v, hv, h⟩ := h
    rw [seq_ok, require_ok, bind_ok] at h
    obtain ⟨⟨hphase, hop, htarget⟩, journal, hjournal, h⟩ := h
    obtain rfl := pure_ok.mp h
    exact .ensureCleanup (Store.current_inv hv) hphase hop htarget hjournal
  | updateVolumeCleanup expected next =>
    simp only [Store.apply, bind_ok, pure_ok] at h
    obtain ⟨v, hv, journal, hjournal, rfl⟩ := h
    exact .updateCleanup (Store.current_inv hv) hjournal
  | removeVolume =>
    rw [Store.apply, bind_ok] at h
    obtain ⟨v, hv, h⟩ := h
    rw [seq_ok, require_ok, pure_ok] at h
    obtain ⟨hrem, rfl⟩ := h
    exact .remove (Store.current_inv hv) hrem

/-! ### Runs -/

/-- What every stored Move satisfies, next to its own soundness. -/
structure MoveBound (volumeID : String) (m : Move) : Prop where
  sound : MoveSound m
  volumeID : m.spec.volumeID = volumeID
  named : m.name ≠ ""
  identified : m.uid ≠ ""
  apart : m.Apart

structure Coherent (s : Store) (h : List Store) : Prop where
  sound : ∀ v, SeenVolume h v → StateSound s.volumeID v
  uid : ∀ v w, SeenVolume h v → SeenVolume h w → v.uid = w.uid
  moves : ∀ m, SeenMove h m → ∃ n, s.moves.find m.name = some n ∧ Continues m n
  bound : ∀ name m, s.moves.find name = some m → MoveBound s.volumeID m
  lock : ∀ v, SeenVolume h v → v.activeMove ≠ "" → ∃ m, s.moves.find v.activeMove = some m ∧ Owns m v

variable {s t : Store} {past : List Store} {op : Op} {m n : Move} {v w : State}

theorem coherent_initial (h : s.Initial) : Coherent s [s] := by
  obtain ⟨v, hv, hstart, -, hmoves⟩ := h
  have hempty : ∀ name, s.moves.find name = none := by simp [Table.find, hmoves]
  have hseen : ∀ w, SeenVolume [s] w → w = v := by
    rintro w ⟨u, hu, hw⟩
    rw [List.mem_singleton] at hu
    subst hu
    exact Option.some.inj (hw.symm.trans hv)
  refine ⟨?_, ?_, ?_, ?_, ?_⟩
  · intro w hw
    exact hseen w hw ▸ stateSound_unstarted hstart
  · intro w x hw hx
    rw [hseen w hw, hseen x hx]
  · rintro m ⟨u, hu, hm⟩
    rw [List.mem_singleton] at hu
    subst hu
    simp [hempty] at hm
  · intro name m hm
    simp [hempty] at hm
  · intro w hw hactive
    rw [hseen w hw] at hactive
    exact absurd (unstartedCreation_inv hstart).2.2.2.2.1 hactive

theorem StoreStep.volumeID_eq (h : StoreStep s op t) : t.volumeID = s.volumeID := by
  cases h <;> rfl

theorem StoreStep.find_move (h : StoreStep s op t) {name : String} {m : Move} (hm : s.moves.find name = some m) :
    ∃ n, t.moves.find name = some n ∧ Continues m n := by
  cases h with
  | @move name' write m' n current accepted =>
    have hk := (applyMoveWrite_inv accepted).continues
    by_cases hname : name = name'
    · subst hname
      obtain rfl : m' = m := Option.some.inj (current.symm.trans hm)
      refine ⟨n, ?_, hk⟩
      rw [← Table.key_of_find current, ← hk.name]
      exact Table.find_put_self
    · refine ⟨m, ?_, .refl m⟩
      rw [Table.find_put_ne, hm]
      rw [hk.name, Table.key_of_find current]
      exact Ne.symm hname
  | @create name' uid node named identified absent unique =>
    refine ⟨m, ?_, .refl m⟩
    rw [Table.find_put_ne, hm]
    rintro rfl
    simp [show (ShiftPV.createMove name' uid s.volumeID node).name = name' from rfl, absent] at hm
  | _ => exact ⟨m, hm, .refl m⟩

theorem StoreStep.find_back (h : StoreStep s op t) {name : String} (hn : t.moves.find name = some n) :
    s.moves.find name = some n ∨ t.volume = s.volume ∧
      ((∃ m write, s.moves.find name = some m ∧ applyMoveWrite write m = .ok n) ∨
        s.moves.find name = none ∧ ∃ uid sourceNode, n = ShiftPV.createMove name uid s.volumeID sourceNode ∧
          ∀ m ∈ s.moves.rows, m.uid ≠ uid) := by
  cases h with
  | @move name' write m n' current accepted =>
    rw [Table.find_put] at hn
    split at hn
    · rename_i hname
      obtain rfl : n' = n := Option.some.inj hn
      rw [(applyMoveWrite_inv accepted).continues.name, Table.key_of_find current] at hname
      subst hname
      exact Or.inr ⟨rfl, Or.inl ⟨m, write, current, accepted⟩⟩
    · exact Or.inl hn
  | @create name' uid node named identified absent unique =>
    rw [Table.find_put] at hn
    split at hn
    · rename_i hname
      obtain rfl := Option.some.inj hn
      have hname : name' = name := hname
      subst hname
      exact Or.inr ⟨rfl, Or.inr ⟨absent, uid, node, rfl, unique⟩⟩
    · exact Or.inl hn
  | _ => exact Or.inl hn

theorem Move.Apart.step {write : MoveWrite} (h : m.Apart) (hw : applyMoveWrite write m = .ok n) : n.Apart := by
  have hk := (applyMoveWrite_inv hw).continues
  unfold Move.Apart at h ⊢
  rw [hk.sourceNode]
  rcases applyMoveWrite_node hw with hsame | hne
  · rw [hsame]
    exact h
  · exact Or.inr hne

theorem StoreStep.bound (h : StoreStep s op t) (hb : ∀ name m, s.moves.find name = some m → MoveBound s.volumeID m) :
    ∀ name m, t.moves.find name = some m → MoveBound t.volumeID m := by
  rw [h.volumeID_eq]
  cases h with
  | @move name' write m' n current accepted =>
    intro name m hm
    rw [Table.find_put] at hm
    split at hm
    · obtain rfl : n = m := Option.some.inj hm
      have hstep := applyMoveWrite_inv accepted
      have hk := hstep.continues
      have hold := hb name' m' current
      exact
        { sound := hstep.sound hold.sound
          volumeID := by rw [hk.volumeID, hold.volumeID]
          named := by rw [hk.name]; exact hold.named
          identified := by rw [hk.uid]; exact hold.identified
          apart := hold.apart.step accepted }
    · exact hb name m hm
  | @create name' uid node named identified absent unique =>
    intro name m hm
    rw [Table.find_put] at hm
    split at hm
    · obtain rfl := Option.some.inj hm
      exact
        { sound := moveSound_createMove
          volumeID := rfl
          named := named
          identified := identified
          apart := Or.inl rfl }
    · exact hb name m hm
  | _ => exact hb

theorem Coherent.effect (hc : Coherent s (s :: past)) {write : MobilityWrite} {m' : Move} {o : State}
    (hm : SeenMove (s :: past) m') (ho : SeenVolume (s :: past) o) (hv : s.volume = some v)
    (hw : applyMobilityWrite write m' o v = .ok w) :
    ∃ m, s.moves.find m'.name = some m ∧ Continues m' m ∧ MobilityEffect s.volumeID m v w write := by
  obtain ⟨m, hfind, hk⟩ := hc.moves m' hm
  have hb := hc.bound _ m hfind
  have hlocked : ∀ x, SeenVolume (s :: past) x → x.activeMove = m.name → Owns m x := by
    intro x hx hactive
    obtain ⟨k, hfk, hown⟩ := hc.lock x hx (by rw [hactive]; exact hb.named)
    rw [hactive, hk.name, hfind] at hfk
    exact (Option.some.inj hfk) ▸ hown
  refine ⟨m, hfind, hk, ?_⟩
  exact (applyMobilityWrite_inv hw).effect (hc.sound v (.head hv)) (hc.sound o ho)
    (by rw [← hb.volumeID, hk.volumeID]) hk hb.apart (hlocked v (.head hv)) (hlocked o ho)

/-- The volume written by one accepted operation: sound, of the same object, and locked only by a Move that
    owns it. -/
theorem Coherent.volume_step (hc : Coherent s (s :: past)) (hs : StaleStep (s :: past) op t) (hw : t.volume = some w) :
    ∃ v, s.volume = some v ∧ w.uid = v.uid ∧ StateSound s.volumeID w ∧
      (w.activeMove ≠ "" → ∃ m, s.moves.find w.activeMove = some m ∧ Owns m w) := by
  rw [staleStep_cons] at hs
  obtain ⟨hobs, happly⟩ := hs
  have hkeep : ∀ {v}, s.volume = some v → ∀ {x}, OwnerUnchanged v x → StateSound s.volumeID v →
      x.activeMove ≠ "" → ∃ m, s.moves.find x.activeMove = some m ∧ Owns m x := by
    intro v hv x hx hsound hactive
    rw [hx.lock] at hactive ⊢
    obtain ⟨m, hm, hown⟩ := hc.lock v (.head hv) hactive
    have hset : v.phase ≠ .unset := fun hu => hactive (hsound.unset hu).1
    exact ⟨m, hm, hown.of_same hx.uid (hx.owner hset) (hx.copy (hsound.present hset))⟩
  cases Store.apply_inv happly with
  | @volume write v x current accepted =>
    obtain rfl : x = w := Option.some.inj hw
    have hv := hc.sound v (.head current)
    refine ⟨v, current, ?_⟩
    by_cases hmob : ∃ k m o, write = .mobility k m o
    · obtain ⟨k, m', o, rfl⟩ := hmob
      obtain ⟨m, hfind, hk, heff⟩ := hc.effect hobs.1 hobs.2 current accepted
      refine ⟨heff.uid, heff.sound, fun hactive => ?_⟩
      obtain ⟨hname, hown⟩ := heff.locked hactive
      exact ⟨m, by rw [hname, hk.name, hfind], hown⟩
    · have hmob : ∀ k m o, write ≠ .mobility k m o := fun k m o h => hmob ⟨k, m, o, h⟩
      obtain ⟨hsound, hsame⟩ := applyVolumeWrite_sound accepted hv hmob
      exact ⟨hsame.uid, hsound, hkeep current hsame hv⟩
  | move current accepted | create named identified absent unique | updateCleanup current accepted =>
    exact ⟨w, hw, rfl, hc.sound w (.head hw), hc.lock w (.head hw)⟩
  | @ensureCleanup spec v journal current deleting operation target accepted =>
    obtain rfl := Option.some.inj hw
    have hv := hc.sound v (.head current)
    exact ⟨v, current, rfl, ⟨hv.published, hv.copy, hv.present, hv.unset, hv.creating, hv.fenced, hv.deleting⟩,
      hkeep current (.of_eq rfl rfl rfl rfl) hv⟩
  | remove current removable => simp at hw

/-- Only an owner commit changes the owner or the copy of an initialized volume. -/
theorem Coherent.owner_kept (hc : Coherent s (s :: past)) (hs : StaleStep (s :: past) op t) (hv : s.volume = some v)
    (hw : t.volume = some w) (hset : v.phase ≠ .unset)
    (hcommit : ∀ m o, op ≠ .volume (.mobility .commitOwner m o)) :
    w.ownerNode = v.ownerNode ∧ w.currentCopy = v.currentCopy := by
  obtain ⟨hobs, happly⟩ := staleStep_cons.mp hs
  have hsame : t.volume = s.volume → w.ownerNode = v.ownerNode ∧ w.currentCopy = v.currentCopy := by
    intro h
    rw [hw, hv] at h
    obtain rfl := Option.some.inj h
    exact ⟨rfl, rfl⟩
  cases Store.apply_inv happly with
  | @volume write x y current accepted =>
    obtain rfl : x = v := Option.some.inj (current.symm.trans hv)
    obtain rfl : y = w := Option.some.inj hw
    by_cases hmob : ∃ k m o, write = .mobility k m o
    · obtain ⟨k, m', o, rfl⟩ := hmob
      obtain ⟨m, -, -, heff⟩ := hc.effect hobs.1 hobs.2 hv accepted
      have hk : k ≠ .commitOwner := by
        rintro rfl
        exact hcommit m' o rfl
      exact ⟨(heff.kept hk).1, (heff.kept hk).2.1⟩
    · have hmob : ∀ k m o, write ≠ .mobility k m o := fun k m o h => hmob ⟨k, m, o, h⟩
      have hsound := hc.sound x (.head hv)
      obtain ⟨-, hsame⟩ := applyVolumeWrite_sound accepted hsound hmob
      exact ⟨hsame.owner hset, hsame.copy (hsound.present hset)⟩
  | move current accepted => exact hsame rfl
  | create named identified absent unique => exact hsame rfl
  | @ensureCleanup spec x journal current deleting operation target accepted =>
    obtain rfl : x = v := Option.some.inj (current.symm.trans hv)
    obtain rfl := Option.some.inj hw
    exact ⟨rfl, rfl⟩
  | updateCleanup current accepted => exact hsame rfl
  | remove current removable => simp at hw

theorem Coherent.step (hc : Coherent s (s :: past)) (hs : StaleStep (s :: past) op t) : Coherent t (t :: s :: past) := by
  have hstep : StoreStep s op t := Store.apply_inv (staleStep_cons.mp hs).2
  have hid := hstep.volumeID_eq
  refine ⟨?_, ?_, ?_, hstep.bound hc.bound, ?_⟩
  · intro x hx
    rw [hid]
    rcases seenVolume_cons.mp hx with hx | hx
    · obtain ⟨-, -, -, hsound, -⟩ := hc.volume_step hs hx
      exact hsound
    · exact hc.sound x hx
  · have huid : ∀ x, SeenVolume (t :: s :: past) x → ∃ y, SeenVolume (s :: past) y ∧ x.uid = y.uid := by
      intro x hx
      rcases seenVolume_cons.mp hx with hx | hx
      · obtain ⟨v, hv, huid, -⟩ := hc.volume_step hs hx
        exact ⟨v, .head hv, huid⟩
      · exact ⟨x, hx, rfl⟩
    intro x y hx hy
    obtain ⟨x', hx', hxu⟩ := huid x hx
    obtain ⟨y', hy', hyu⟩ := huid y hy
    rw [hxu, hyu, hc.uid x' y' hx' hy']
  · intro m hm
    rcases seenMove_cons.mp hm with hm | hm
    · exact ⟨m, hm, .refl m⟩
    · obtain ⟨n, hn, hk⟩ := hc.moves m hm
      obtain ⟨k, hfind, hk'⟩ := hstep.find_move hn
      exact ⟨k, hfind, hk.trans hk'⟩
  · intro x hx hactive
    have hold : ∃ m, s.moves.find x.activeMove = some m ∧ Owns m x := by
      rcases seenVolume_cons.mp hx with hx | hx
      · obtain ⟨-, -, -, -, hlock⟩ := hc.volume_step hs hx
        exact hlock hactive
      · exact hc.lock x hx hactive
    obtain ⟨m, hm, hown⟩ := hold
    obtain ⟨n, hn, hk⟩ := hstep.find_move hm
    exact ⟨n, hn, hown.continues hk⟩

theorem StaleRun.coherent (hr : StaleRun (s :: past)) : Coherent s (s :: past) := by
  have h := Run.invariant (I := fun h => ∀ s past, h = s :: past → Coherent s h) ?_ ?_ hr
  · exact h s past rfl
  · rintro s hs t past heq
    cases heq
    exact coherent_initial hs
  · rintro s t past op - ih hs u past' heq
    cases heq
    exact (ih s past rfl).step hs

/-! ### Publication and ownership -/

/-- Whatever the writers observed, publication stays on the owner, the current copy serves the volume from
    the owner, and owner and copy of an initialized volume are changed by owner commits only, which find the
    volume Moving and unpublished. -/
theorem publication_follows_owner {h : List Store} (hr : StaleRun h) :
    (∀ v, SeenVolume h v → (∀ node ∈ v.publishedNodes, node = v.ownerNode) ∧
      ∀ c, v.currentCopy = some c →
        c.valid ∧ c.role = .serving ∧ c.nodeName = v.ownerNode ∧ c.volumeUID = v.uid) ∧
    ∀ s op t v w, h.head? = some s → StaleStep h op t → s.volume = some v → t.volume = some w →
      (v.phase ≠ .unset → w.ownerNode ≠ v.ownerNode ∨ w.currentCopy ≠ v.currentCopy →
        ∃ m o, op = .volume (.mobility .commitOwner m o)) ∧
      ((∃ m o, op = .volume (.mobility .commitOwner m o)) → v.phase = .moving ∧ v.publishedNodes = []) := by
  obtain ⟨s, past, rfl⟩ := List.exists_cons_of_ne_nil hr.ne_nil
  have hc := StaleRun.coherent hr
  refine ⟨fun v hv => ⟨(hc.sound v hv).published, fun c hcopy => ?_⟩, ?_⟩
  · have hserves := (hc.sound v hv).copy c hcopy
    simp only [CopyIdentity.servesFor, Bool.and_eq_true, decide_eq_true_eq, and_assoc] at hserves
    obtain ⟨hvalid, hrole, -, huid, hnode⟩ := hserves
    exact ⟨hvalid, hrole, hnode, huid⟩
  · rintro s' op t v w hs hstep hv hw
    obtain rfl : s = s' := Option.some.inj hs
    refine ⟨fun hset hchange => ?_, ?_⟩
    · by_contra hcommit
      obtain ⟨howner, hcopy⟩ := hc.owner_kept hstep hv hw hset fun m o h => hcommit ⟨m, o, h⟩
      exact hchange.elim (fun h => h howner) (fun h => h hcopy)
    · rintro ⟨m', o, rfl⟩
      obtain ⟨hobs, happly⟩ := staleStep_cons.mp hstep
      cases Store.apply_inv happly with
      | @volume _ x y current accepted =>
        obtain rfl : x = v := Option.some.inj (current.symm.trans hv)
        have hcommit : applyMobilityWrite .commitOwner m' o x = .ok y := accepted
        obtain ⟨m, -, -, heff⟩ := hc.effect hobs.1 hobs.2 hv hcommit
        obtain ⟨hmoving, hpub, -⟩ := heff.commit rfl
        exact ⟨hmoving, hpub⟩

/-! A migration from its creation to its owner commit. -/

def sampleVolumeID : String := "shiftpv-0123456789abcdef0123456789abcdef"
def sampleState : State where
  uid := "volume-1"
  finalizers := [volumeProtectionFinalizer]
  requestName := "pvc-1"
  capacityBytes := 10
  initialNode := "node-a"
  initialPool := some { name := "pool-a", uid := "pool-a-uid" }
  creationClaim := none
  hasCleanup := false
  deleting := false
  phase := .unset
  ownerNode := ""
  activeMove := ""
  publishedNodes := []
  creationOperationID := ""
  deletionOperationID := ""
  currentCopy := none
  creationExecutor := none
  creationReceipt := none

def sampleStore : Store where
  volumeID := sampleVolumeID
  volume := some sampleState
  cleanup := none
  moves := .empty Move.name

def sampleCopy : CopyIdentity where
  installationID := "install"
  poolName := "pool-a"
  poolUID := "pool-a-uid"
  volumeID := sampleVolumeID
  volumeUID := "volume-1"
  copyID := "initial-volume-1"
  nodeName := "node-a"
  role := .serving

def samplePreparation : MovePreparation where
  pool := { name := "pool-b", uid := "pool-b-uid" }
  nodeName := "node-b"
  reservedBytes := 10

def mobility (write : MobilityWrite) (s : Store) : Op :=
  match s.moves.find "move", s.volume with
  | some m, some v => .volume (.mobility write m v)
  | _, _ => .removeVolume
def setStatus (f : MoveStatus → MoveStatus) (s : Store) : Op :=
  match s.moves.find "move" with
  | some m => .move "move" (.status m (f m.status))
  | none => .removeVolume

def planned (status : MoveStatus) : MoveStatus :=
  { status with
    phase := .preparing, persistentVolumeName := "pv", persistentVolumeUID := "pv-uid", claimNamespace := "ns"
    claimName := "pvc", claimUID := "pvc-uid", consumerName := "pod", consumerUID := "pod-uid"
    placementPodUID := "placement", sourceCopy := some sampleCopy, preparation := some samplePreparation }
def approved (status : MoveStatus) : MoveStatus :=
  let copies := moveTransactionCopies "move-1" sampleVolumeID (preparationAnchor sampleCopy samplePreparation)
  { status with
    preparation := none, capacityApproved := true, destinationNode := "node-b", destinationPoolUID := "pool-b-uid"
    incomingCopy := some copies.1, destinationCopy := some copies.2
    copyOperationID := moveCopyOperationID "move-1", promotionOperationID := movePromotionOperationID "move-1" }
def migrationScript : List (Store → Op) :=
  [fun _ => .volume (.recordCreationIntent "install" sampleState),
   fun _ => .volume (.completeCreate "volume-1" sampleCopy),
   fun _ => .volume (.beginPublish "node-a" sampleCopy),
   fun _ => .createMove "move" "move-1" "node-a",
   setStatus planned,
   mobility .claimSource,
   mobility .startSource,
   fun _ => .volume (.reconcilePublished "node-a" sampleCopy false),
   setStatus fun status => { status with phase := .waitingForCapacity },
   setStatus approved,
   mobility .commitOwner]

theorem sampleStore_initial : sampleStore.Initial := ⟨sampleState, rfl, by decide +kernel, rfl, rfl⟩

def migration : List Store := replayed sampleStore migrationScript

theorem migration_run : StaleRun migration := replayed_run sampleStore_initial (by decide +kernel)

theorem publication_follows_owner_migration : ∃ s v past, migration = s :: past ∧ s.volume = some v ∧
    v.ownerNode = "node-b" ∧ (∀ node ∈ v.publishedNodes, node = v.ownerNode) ∧
    ∀ c, v.currentCopy = some c → c.valid ∧ c.role = .serving ∧ c.nodeName = v.ownerNode ∧ c.volumeUID = v.uid := by
  have hcommitted : (migration.head?.bind (·.volume)).any (·.ownerNode = "node-b") = true := by decide +kernel
  obtain ⟨v, hv, howner⟩ := (Option.any_eq_true _ _).mp hcommitted
  obtain ⟨s, hs, hsv⟩ := Option.bind_eq_some_iff.mp hv
  obtain ⟨past, hpast⟩ := List.head?_eq_some_iff.mp hs
  have hseen : SeenVolume migration v := hpast ▸ .head hsv
  exact ⟨s, v, past, hpast, hsv, by simpa using howner, (publication_follows_owner migration_run).1 v hseen⟩

end ShiftPV
