import Mathlib.Data.String.Basic
import ShiftPV.Retry

/-! The fan-out of one pass is budgeted. A pass offers the capacity waits in the order of first registration, each the
    first Pool that still has room for it, and charges the Pool only when the claim was updated; so what it spends of a Pool
    stays within its room. -/

namespace ShiftPV
open Check

/-! ### The order of registration -/

theorem Waiter.before_iff {a b : Waiter} :
    (a.before b : Prop) ↔ a.firstSeen < b.firstSeen ∨ a.firstSeen = b.firstSeen ∧ a.uid ≤ b.uid := by
  simp [Waiter.before]

theorem snapshot_ordered (index : RetryIndex) : index.snapshot.Pairwise fun a b => a.before b := by
  have htotal : Std.Total fun a b : Waiter => (a.before b : Prop) := by
    refine ⟨fun a b => ?_⟩
    simp only [Waiter.before_iff]
    rcases lt_trichotomy a.firstSeen b.firstSeen with hlt | heq | hgt
    · exact .inl (.inl hlt)
    · exact (le_total a.uid b.uid).imp (.inr ⟨heq, ·⟩) (.inr ⟨heq.symm, ·⟩)
    · exact .inr (.inl hgt)
  have htrans : IsTrans Waiter fun a b => (a.before b : Prop) := by
    refine ⟨fun a b c hab hbc => ?_⟩
    simp only [Waiter.before_iff] at hab hbc ⊢
    rcases hab with hab | ⟨hab, huid⟩
    · rcases hbc with hbc | ⟨hbc, -⟩ <;> exact .inl (by omega)
    · rcases hbc with hbc | ⟨hbc, huid'⟩
      · exact .inl (by omega)
      · exact .inr ⟨hab.trans hbc, huid.trans huid'⟩
  exact List.pairwise_insertionSort _ _

theorem mem_snapshot {index : RetryIndex} {w : Waiter} : w ∈ index.snapshot ↔ w ∈ index.waiting.rows :=
  List.mem_insertionSort _

/-! ### The room of the Pools -/

section Room
variable {reader : PoolReader} {volumes : Table VolumeObject.id} {moves : List Move}

/-- The Pool has `room` bytes between what is reserved and its limit. -/
def HasRoom (reader : PoolReader) (volumes : Table VolumeObject.id) (moves : List Move) (pool : RegisteredPool) (room : Int) : Prop :=
  ∃ limit reserved, reader.parseLimitBytes pool.capacityLimit = .ok limit ∧
    reservedBytesForPool volumes moves pool.uid = .ok reserved ∧ room = max 0 (limit - reserved)

theorem addRoom_ok {free free' : String → Int} {pool : RegisteredPool}
    (h : addRoom reader volumes moves free pool = .ok free') (hnone : free pool.uid = 0) :
    HasRoom reader volumes moves pool (free' pool.uid) ∧ ∀ uid, uid ≠ pool.uid → free' uid = free uid := by
  obtain ⟨limit, hlimit, h⟩ := bind_ok.mp h
  obtain ⟨reserved, hreserved, h⟩ := bind_ok.mp h
  obtain rfl := pure_ok.mp h
  refine ⟨⟨limit, reserved, hlimit, hreserved, ?_⟩, fun uid huid => ?_⟩
  · split
    · rw [Function.update_self]
      omega
    · rw [hnone]
      omega
  · split
    · rw [Function.update_of_ne huid]
    · rfl

theorem foldlM_addRoom {pools : List RegisteredPool} {free room : String → Int} (hnodup : (pools.map (·.uid)).Nodup)
    (hnone : ∀ pool ∈ pools, free pool.uid = 0) (h : pools.foldlM (addRoom reader volumes moves) free = .ok room) :
    (∀ pool ∈ pools, HasRoom reader volumes moves pool (room pool.uid)) ∧
      ∀ uid, uid ∉ pools.map (·.uid) → room uid = free uid := by
  induction pools generalizing free with
  | nil =>
    obtain rfl : free = room := by simpa [pure, Except.pure] using h
    simp
  | cons pool pools ih =>
    rw [List.foldlM_cons] at h
    obtain ⟨free', hadd, h⟩ := bind_ok.mp h
    obtain ⟨hroom, hothers⟩ := addRoom_ok hadd (hnone pool List.mem_cons_self)
    rw [List.map_cons, List.nodup_cons] at hnodup
    have hapart : ∀ p ∈ pools, p.uid ≠ pool.uid := fun p hp heq => hnodup.1 (heq ▸ List.mem_map_of_mem hp)
    obtain ⟨hrest, hkept⟩ := ih hnodup.2
      (fun p hp => (hothers _ (hapart p hp)).trans (hnone p (List.mem_cons_of_mem _ hp))) h
    refine ⟨fun p hp => ?_, fun uid huid => ?_⟩
    · rcases List.mem_cons.mp hp with rfl | hp
      · rw [hkept _ hnodup.1]
        exact hroom
      · exact hrest p hp
    · rw [List.map_cons, List.mem_cons, not_or] at huid
      rw [hkept uid huid.2, hothers uid huid.1]

theorem poolRoom_ok {pools : Table RegisteredPool.uid} {room : String → Int} (h : poolRoom reader volumes moves pools = .ok room) :
    (∀ pool ∈ pools.rows, HasRoom reader volumes moves pool (room pool.uid)) ∧ ∀ uid, 0 ≤ room uid := by
  obtain ⟨hroom, hothers⟩ := foldlM_addRoom pools.nodup (fun _ _ => rfl) h
  refine ⟨hroom, fun uid => ?_⟩
  by_cases huid : uid ∈ pools.rows.map (·.uid)
  · obtain ⟨pool, hpool, rfl⟩ := List.mem_map.mp huid
    obtain ⟨limit, reserved, -, -, hmax⟩ := hroom pool hpool
    rw [hmax]
    exact le_max_left _ _
  · exact (hothers uid huid).ge

end Room

/-! ### Offers -/

def Offer.spends (offer : Offer) (poolUID : String) : Int :=
  if offer.notified ∧ offer.pool.map (·.uid) = some poolUID then offer.waiter.requested else 0

def spent (offers : List Offer) (poolUID : String) : Int := (offers.map (·.spends poolUID)).sum

@[simp] theorem spent_nil (poolUID : String) : spent [] poolUID = 0 := rfl

@[simp] theorem spent_cons (offer : Offer) (offers : List Offer) (poolUID : String) :
    spent (offer :: offers) poolUID = offer.spends poolUID + spent offers poolUID := List.sum_cons

def leftOf (room : String → Int) (offers : List Offer) (poolUID : String) : Int := room poolUID - spent offers poolUID

theorem leftOf_cons (room : String → Int) (offer : Offer) (offers : List Offer) :
    leftOf room (offer :: offers) = fun uid => leftOf room offers uid - offer.spends uid := by
  funext uid
  rw [leftOf, leftOf, spent_cons]
  omega

/-- The capacity waits are served in the order of first registration, and each was offered the first Pool that it matches
    and that had enough left of its room after the claims that were updated before. -/
structure FirstFitFanout (loop : CapacityLoop) (call : Option NotifyCall) (room : String → Int) : Prop where
  rooms : ∀ pool ∈ loop.pools.rows, HasRoom loop.reader loop.volumes loop.moves pool (room pool.uid)
  ordered : loop.waiting.Pairwise fun a b => a.before b
  served : (loop.offers.map (·.waiter)).reverse ++ (call.map (·.waiter)).toList ++ loop.rest =
    loop.waiting.filter fun w => ¬w.observation
  offered : Run.Traced (fun offer earlier => offer.pool = firstFit loop.pools (leftOf room earlier) offer.waiter) loop.offers
  within : ∀ pool, spent loop.offers pool ≤ room pool

/-- The same with the budget that the loop carries and the Pool that is being offered. -/
structure Budgeted (loop : CapacityLoop) (call : Option NotifyCall) (room : String → Int) : Prop
    extends FirstFitFanout loop call room where
  free : loop.free = leftOf room loop.offers
  pending : ∀ c, call = some c → c.pool = firstFit loop.pools loop.free c.waiter

section Budget
variable {loop : CapacityLoop} {call : NotifyCall} {room : String → Int} {w : Waiter} {rest : List Waiter}

theorem Budgeted.start {waiting capacityWaits : List Waiter} {pools : Table RegisteredPool.uid} {reader : PoolReader}
    {volumes : Table VolumeObject.id} {moves : List Move} (hroom : poolRoom reader volumes moves pools = .ok room)
    (hordered : waiting.Pairwise fun a b => a.before b) (hwaits : capacityWaits = waiting.filter fun w => ¬w.observation) :
    Budgeted { waiting, pools, reader, volumes, moves, free := room, rest := capacityWaits, offers := [] } none room where
  rooms := (poolRoom_ok hroom).1
  ordered := hordered
  served := hwaits
  offered := trivial
  within := (poolRoom_ok hroom).2
  free := by
    funext uid
    simp [leftOf]
  pending := by simp

theorem Budgeted.skip (h : Budgeted loop none room) (hrest : loop.rest = w :: rest)
    (hnone : firstFit loop.pools loop.free w = none) :
    Budgeted { loop with rest, offers := ⟨w, none, false⟩ :: loop.offers } none room := by
  have hspends : ∀ uid, Offer.spends ⟨w, none, false⟩ uid = 0 := fun uid => by simp [Offer.spends]
  refine ⟨⟨h.rooms, h.ordered, ?_, ⟨?_, h.offered⟩, fun uid => ?_⟩, ?_, by simp⟩
  · simpa [hrest] using h.served
  · dsimp only
    rw [← h.free, hnone]
  · rw [spent_cons, hspends, zero_add]
    exact h.within uid
  · rw [leftOf_cons, h.free]
    funext uid
    rw [hspends, sub_zero]

theorem Budgeted.offer {pool : RegisteredPool} (h : Budgeted loop none room) (hrest : loop.rest = w :: rest)
    (hfit : firstFit loop.pools loop.free w = some pool) :
    Budgeted { loop with rest } (some ⟨w, some pool, false⟩) room := by
  refine ⟨⟨h.rooms, h.ordered, ?_, h.offered, h.within⟩, h.free, ?_⟩
  · simpa [hrest] using h.served
  · rintro c hc
    obtain rfl := Option.some.inj hc
    exact hfit.symm

theorem Budgeted.fits (h : Budgeted loop (some call) room) {pool : RegisteredPool} (hpool : call.pool = some pool) :
    call.waiter.requested ≤ leftOf room loop.offers pool.uid := by
  have hfit := (h.pending call rfl).symm.trans hpool
  have := List.find?_some hfit
  simp only [Bool.and_eq_true, decide_eq_true_eq] at this
  exact h.free ▸ this.2

theorem Budgeted.returned {s : Retries} (h : Budgeted loop (some call) room) (hpass : s.pass = .capacity loop) (notified : Bool) :
    ∃ loop', (s.returned call notified).pass = .capacity loop' ∧ Budgeted loop' none room := by
  simp only [Retries.returned, hpass]
  refine ⟨_, rfl, ⟨h.rooms, h.ordered, ?_, ⟨?_, h.offered⟩, fun uid => ?_⟩, ?_, by simp⟩
  · simpa using h.served
  · dsimp only
    rw [← h.free]
    exact h.pending call rfl
  · rw [spent_cons, Offer.spends]
    split
    · rename_i hnotified
      obtain ⟨pool, hpool, rfl⟩ := Option.map_eq_some_iff.mp hnotified.2
      have hfits := h.fits hpool
      rw [leftOf] at hfits
      dsimp only
      omega
    · rw [zero_add]
      exact h.within uid
  · rw [leftOf_cons, ← h.free]
    funext uid
    cases hpool : call.pool with
    | none => simp [Offer.spends]
    | some pool =>
      by_cases huid : uid = pool.uid
      · subst huid
        cases notified <;> simp [Offer.spends]
      · have hne : pool.uid ≠ uid := fun heq => huid heq.symm
        cases notified <;> simp [Offer.spends, huid, hne]

end Budget

/-! ### Passes -/

def RetryPass.Sound (call : Option NotifyCall) : RetryPass → Prop
  | .idle => call = none
  | .pools waiting => waiting.Pairwise (fun a b => a.before b) ∧ call = none
  | .observations loop => loop.waiting.Pairwise (fun a b => a.before b) ∧
    (∃ done, loop.waiting = done ++ loop.rest ∧ loop.capacityWaits = done.filter fun w => ¬w.observation) ∧
    ∀ c, call = some c → c.waiter ∈ loop.waiting
  | .ledger waiting _ capacityWaits => waiting.Pairwise (fun a b => a.before b) ∧
    capacityWaits = waiting.filter (fun w => ¬w.observation) ∧ call = none
  | .capacity loop => ∃ room, Budgeted loop call room

section Passes
variable {s t : Retries} {call : NotifyCall}

theorem RetryPass.Sound.inLoop (h : s.pass.Sound s.call) (hcall : s.call = some call) :
    (∃ loop, s.pass = .observations loop) ∨ ∃ loop, s.pass = .capacity loop := by
  cases hpass : s.pass with
  | observations loop => exact .inl ⟨loop, rfl⟩
  | capacity loop => exact .inr ⟨loop, rfl⟩
  | idle | pools | ledger => simp [hpass, RetryPass.Sound, hcall] at h

theorem RetryPass.Sound.called (h : s.pass.Sound s.call) (hcall : s.call = some call) : call.waiter ∈ s.pass.waiting := by
  obtain ⟨loop, hpass⟩ | ⟨loop, hpass⟩ := h.inLoop hcall <;> rw [hpass] at h ⊢
  · exact h.2.2 call hcall
  · obtain ⟨room, hbudget⟩ := h
    have hserved : call.waiter ∈ loop.waiting.filter fun w => ¬w.observation := by
      rw [← hbudget.served, hcall]
      simp
    exact List.mem_of_mem_filter hserved

theorem RetryPass.Sound.taken (h : s.pass.Sound s.call) (hcall : s.call = some call) :
    s.pass.Sound (some { call with taken := true }) := by
  obtain ⟨loop, hpass⟩ | ⟨loop, hpass⟩ := h.inLoop hcall <;> rw [hpass] at h ⊢
  · refine ⟨h.1, h.2.1, fun c hc => ?_⟩
    obtain rfl := Option.some.inj hc
    exact h.2.2 call hcall
  · rw [hcall] at h
    obtain ⟨room, hbudget⟩ := h
    refine ⟨room, ⟨hbudget.rooms, hbudget.ordered, hbudget.served, hbudget.offered, hbudget.within⟩, hbudget.free, fun c hc => ?_⟩
    obtain rfl := Option.some.inj hc
    exact hbudget.pending call rfl

@[simp] theorem returned_index (notified : Bool) : (s.returned call notified).index = s.index := by
  unfold Retries.returned
  split <;> rfl

@[simp] theorem returned_call (notified : Bool) : (s.returned call notified).call = none := by
  unfold Retries.returned
  split <;> rfl

@[simp] theorem returned_waiting (notified : Bool) : (s.returned call notified).pass.waiting = s.pass.waiting := by
  unfold Retries.returned
  split
  · rename_i loop hpass
    rw [hpass]
    rfl
  · rfl

theorem returned_sound {notified : Bool} (h : s.pass.Sound s.call) (hcall : s.call = some call) (index : RetryIndex) :
    ({ s with index }.returned call notified).pass.Sound none := by
  obtain ⟨loop, hpass⟩ | ⟨loop, hpass⟩ := h.inLoop hcall
  · rw [hpass] at h
    simp only [Retries.returned, hpass]
    exact ⟨h.1, h.2.1, by simp⟩
  · rw [hpass, hcall] at h
    obtain ⟨room, hbudget⟩ := h
    obtain ⟨loop', hloop', hbudget'⟩ := hbudget.returned (s := { s with index }) hpass notified
    rw [hloop']
    exact ⟨room, hbudget'⟩

theorem readClaim_sound {read : ObjectRead RetryClaim} (h : s.pass.Sound s.call) (hcall : s.call = some call) :
    (s.readClaim call read).pass.Sound (s.readClaim call read).call := by
  have hreturned : ∀ index, ({ s with index }.returned call false).pass.Sound ({ s with index }.returned call false).call := by
    intro index
    rw [returned_call]
    exact returned_sound h hcall index
  cases read with
  | notFound => exact hreturned _
  | failed text => exact hreturned s.index
  | found claim =>
    simp only [Retries.readClaim]
    split
    · exact hreturned _
    · split
      · exact h.taken hcall
      · exact hreturned s.index

theorem observe_sound {loop : ObservationLoop} (h : s.pass.Sound s.call) (hpass : s.pass = .observations loop)
    (hcall : s.call = none) : (s.observe loop).pass.Sound (s.observe loop).call := by
  rw [hpass] at h
  obtain ⟨hordered, ⟨done, hdone, hwaits⟩, -⟩ := h
  unfold Retries.observe
  split
  · rename_i hrest
    rw [hrest, List.append_nil] at hdone
    split
    · exact hcall
    · exact ⟨hordered, hdone ▸ hwaits, hcall⟩
  · rename_i w rest hrest
    have hdone' : loop.waiting = (done ++ [w]) ++ rest := by rw [hdone, hrest, List.append_assoc, List.singleton_append]
    have hmem : w ∈ loop.waiting := by
      rw [hdone']
      simp
    split
    · rename_i hcapacity
      refine ⟨hordered, ⟨done ++ [w], hdone', ?_⟩, ?_⟩
      · dsimp only
        rw [hwaits, List.filter_append, List.filter_cons_of_pos (by simpa using hcapacity), List.filter_nil]
      · simp [hcall]
    · rename_i hobserves
      refine ⟨hordered, ⟨done ++ [w], hdone', ?_⟩, fun c hc => ?_⟩
      · dsimp only
        rw [hwaits, List.filter_append, List.filter_cons_of_neg (by simpa using hobserves), List.filter_nil, List.append_nil]
      · dsimp only at hc
        split at hc
        · obtain rfl := Option.some.inj hc
          exact hmem
        · cases hc

theorem offer_sound {loop : CapacityLoop} (h : s.pass.Sound s.call) (hpass : s.pass = .capacity loop) (hcall : s.call = none) :
    (s.offer loop).pass.Sound (s.offer loop).call := by
  rw [hpass, hcall] at h
  obtain ⟨room, hbudget⟩ := h
  unfold Retries.offer
  split
  · exact hcall
  · rename_i w rest hrest
    split
    · rename_i hnone
      dsimp only
      rw [hcall]
      exact ⟨room, hbudget.skip hrest hnone⟩
    · rename_i pool hfit
      exact ⟨room, hbudget.offer hrest hfit⟩

end Passes

end ShiftPV
