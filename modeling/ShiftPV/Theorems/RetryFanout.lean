import ShiftPV.Theorems.PoolIsolation
import ShiftPV.Theorems.RetryBudget

/-! Retries lose no waiter. A notification takes its waiter out of the index before the claim is updated and puts it back when
    the update fails, while the claim may be registered again in between. -/

namespace ShiftPV
open Check

/-! ### The index -/

section Index
variable {index : RetryIndex} {w v : Waiter} {now : Int}

theorem mem_expire : v ∈ (index.expire now).waiting.rows ↔ v ∈ index.waiting.rows ∧ now - v.lastSeen < waiterLifetime := by
  rw [RetryIndex.expire, Table.mem_restrict]
  simp

theorem length_expire_le : (index.expire now).waiting.rows.length ≤ index.waiting.rows.length := List.length_filter_le _ _

/-- A registration is refused, or stored under a new serial in place of the one for the same claim. -/
theorem registerWaiter_cases (index : RetryIndex) (claim : WaitingClaim) (requested : Int) (observation : Bool)
    (observed : ObservedPool) (now : Int) :
    let after := index.registerWaiter claim requested observation observed now
    after = index ∨ after = index.expire now ∨
      ∃ w, w.serial = index.serial + 1 ∧ after = ⟨(index.expire now).waiting.put w, index.serial + 1⟩ ∧
        ((index.expire now).waiting.find w.uid ≠ none ∨ (index.expire now).waiting.rows.length < maxWaiters) ∧
        w.uid = claim.uid ∧ w.firstSeen = (((index.expire now).waiting.find w.uid).map (·.firstSeen)).getD now := by
  unfold RetryIndex.registerWaiter
  split
  · exact .inl rfl
  · dsimp only
    split
    · exact .inr (.inl rfl)
    · rename_i hspace
      refine .inr (.inr ⟨_, ?_, rfl, ?_, ?_, ?_⟩)
      · rfl
      · by_cases hfind : (index.expire now).waiting.find claim.uid = none
        · exact .inr (by simpa [hfind] using hspace)
        · exact .inl hfind
      · rfl
      · rfl

theorem registerWaiter_length (claim : WaitingClaim) (requested : Int) (observation : Bool) (observed : ObservedPool) (now : Int)
    (h : index.waiting.rows.length ≤ maxWaiters) :
    (index.registerWaiter claim requested observation observed now).waiting.rows.length ≤ maxWaiters := by
  have hexpired : (index.expire now).waiting.rows.length ≤ maxWaiters := length_expire_le.trans h
  rcases registerWaiter_cases index claim requested observation observed now with hsame | hsame | ⟨w, -, hsame, hspace, -⟩
  · rwa [hsame]
  · rwa [hsame]
  · rw [hsame]
    rcases hspace with hfound | hspace
    · obtain ⟨v, hv⟩ := Option.ne_none_iff_exists'.mp hfound
      rwa [Table.length_put_of_find hv]
    · exact Table.length_put_le.trans hspace

theorem holds_iff : index.holds w = true ↔ ∃ v ∈ index.waiting.rows, v.uid = w.uid ∧ v.serial = w.serial := by
  rw [RetryIndex.holds, Option.any_eq_true]
  constructor
  · rintro ⟨v, hfind, hserial⟩
    exact ⟨v, Table.mem_of_find hfind, Table.key_of_find hfind, by simpa using hserial⟩
  · rintro ⟨v, hmem, huid, hserial⟩
    exact ⟨v, huid ▸ Table.find_of_mem hmem, by simpa using hserial⟩

theorem mem_of_mem_take (h : v ∈ (index.take w).waiting.rows) : v ∈ index.waiting.rows := by
  unfold RetryIndex.take at h
  split at h
  · exact (Table.mem_erase.mp h).1
  · exact h

@[simp] theorem take_serial : (index.take w).serial = index.serial := by
  unfold RetryIndex.take
  split <;> rfl

theorem take_length_le : (index.take w).waiting.rows.length ≤ index.waiting.rows.length := by
  unfold RetryIndex.take
  split
  · exact List.length_filter_le _ _
  · exact le_rfl

theorem mem_take (h : v ∈ index.waiting.rows) : v ∈ (index.take w).waiting.rows ∨ v.uid = w.uid ∧ v.serial = w.serial := by
  by_cases hholds : index.holds w = true
  · obtain ⟨u, hmem, huid, hserial⟩ := holds_iff.mp hholds
    by_cases hv : v.uid = w.uid
    · have : u = v := Option.some.inj ((Table.find_of_mem hmem).symm.trans (huid.trans hv.symm ▸ Table.find_of_mem h))
      exact .inr ⟨hv, this ▸ hserial⟩
    · rw [RetryIndex.take, if_pos hholds]
      exact .inl (Table.mem_erase.mpr ⟨h, hv⟩)
  · rw [RetryIndex.take, if_neg hholds]
    exact .inl h

@[simp] theorem putBack_serial : (index.putBack w).serial = index.serial := by
  unfold RetryIndex.putBack
  split <;> rfl

theorem mem_of_mem_putBack (h : v ∈ (index.putBack w).waiting.rows) : v = w ∨ v ∈ index.waiting.rows := by
  unfold RetryIndex.putBack at h
  split at h
  · exact (Table.mem_put.mp h).imp_right And.left
  · exact .inr h

theorem mem_putBack (h : v ∈ index.waiting.rows) : v ∈ (index.putBack w).waiting.rows := by
  unfold RetryIndex.putBack
  split
  · rename_i hspace
    refine Table.mem_put.mpr (.inr ⟨h, fun huid => ?_⟩)
    rw [← huid, Table.find_of_mem h] at hspace
    exact absurd hspace.1 (by simp)
  · exact h

theorem putBack_length_le (h : index.waiting.rows.length ≤ maxWaiters) : (index.putBack w).waiting.rows.length ≤ maxWaiters := by
  unfold RetryIndex.putBack
  split
  · rename_i hspace
    exact Table.length_put_le.trans hspace.2
  · exact h

/-- A waiter is put back unless its claim was registered again or the index is full. -/
theorem putBack_cases (index : RetryIndex) (w : Waiter) : w ∈ (index.putBack w).waiting.rows ∨
    (∃ v ∈ index.waiting.rows, v.uid = w.uid) ∨ index.waiting.rows.length ≥ maxWaiters := by
  by_cases hfind : index.waiting.find w.uid = none
  · by_cases hspace : index.waiting.rows.length < maxWaiters
    · rw [RetryIndex.putBack, if_pos ⟨hfind, hspace⟩]
      exact .inl (Table.mem_put.mpr (.inl rfl))
    · exact .inr (.inr (not_lt.mp hspace))
  · obtain ⟨v, hv⟩ := Option.ne_none_iff_exists'.mp hfind
    exact .inr (.inl ⟨v, Table.mem_of_find hv, Table.key_of_find hv⟩)

end Index

/-! ### Steps -/

def RetryAct.moment : RetryAct → Option Int
  | .register _ _ now | .registerObservation _ _ now | .reconcile now => some now
  | _ => none

def RetryAct.registers : RetryAct → Option (String × Int)
  | .register claim _ now | .registerObservation claim _ now => some (claim.uid, now)
  | _ => none

def Waiter.goneBy (w : Waiter) : ObjectRead RetryClaim → Bool
  | .notFound => true
  | .failed _ => false
  | .found claim => w.settledBy claim

/-- What a step does to the index, to the waiters that the pass has listed and to the call. -/
inductive IndexStep (s t : Retries) : RetryAct → Prop where
  | registered {act : RetryAct} {claim : WaitingClaim} {requested : Int} {observation : Bool} {observed : ObservedPool} {now : Int}
      (hmoment : act.moment = some now) (hregisters : act.registers = some (claim.uid, now))
      (hindex : t.index = s.index.registerWaiter claim requested observation observed now)
      (hpass : t.pass = s.pass) (hcall : t.call = s.call) : IndexStep s t act
  | listed {now : Int} (hcall : s.call = none) (hindex : t.index = s.index.expire now)
      (hlisted : ∀ w ∈ t.pass.waiting, w ∈ t.index.waiting.rows) (hcall' : t.call = none) : IndexStep s t (.reconcile now)
  | advanced {act : RetryAct} (huntaken : ∀ c, s.call = some c → c.taken = false) (hindex : t.index = s.index)
      (hlisted : ∀ w ∈ t.pass.waiting, w ∈ s.pass.waiting) (huntaken' : ∀ c, t.call = some c → c.taken = false) :
      IndexStep s t act
  | dropped {call : NotifyCall} {read : ObjectRead RetryClaim} (hcall : s.call = some call) (huntaken : call.taken = false)
      (hgone : call.waiter.goneBy read = true) (hindex : t.index = s.index.take call.waiter)
      (hlisted : t.pass.waiting = s.pass.waiting) (hcall' : t.call = none) : IndexStep s t (.readClaim read)
  | took {act : RetryAct} {call : NotifyCall} (hcall : s.call = some call) (huntaken : call.taken = false)
      (hholds : s.index.holds call.waiter = true) (hindex : t.index = s.index.take call.waiter) (hpass : t.pass = s.pass)
      (hcall' : t.call = some { call with taken := true }) : IndexStep s t act
  | answered {call : NotifyCall} {succeeds : Bool} (hcall : s.call = some call) (htaken : call.taken = true)
      (hindex : t.index = if succeeds then s.index else s.index.putBack call.waiter)
      (hlisted : t.pass.waiting = s.pass.waiting) (hcall' : t.call = none) : IndexStep s t (.updateClaim succeeds)

section Steps
variable {s t : Retries} {act : RetryAct} {w : Waiter}

theorem observe_step {loop : ObservationLoop} (hpass : s.pass = .observations loop) (hcall : s.call = none) :
    IndexStep s (s.observe loop) act := by
  have hold : ∀ c, s.call = some c → c.taken = false := by simp [hcall]
  unfold Retries.observe
  split
  · split
    · exact .advanced hold rfl (by simp [RetryPass.waiting]) hold
    · exact .advanced hold rfl (by simp [RetryPass.waiting, hpass]) hold
  · split
    · exact .advanced hold rfl (by simp [RetryPass.waiting, hpass]) hold
    · refine .advanced hold rfl (by simp [RetryPass.waiting, hpass]) fun c hc => ?_
      dsimp only at hc
      split at hc
      · obtain rfl := Option.some.inj hc
        rfl
      · cases hc

theorem offer_step {loop : CapacityLoop} (hpass : s.pass = .capacity loop) (hcall : s.call = none) :
    IndexStep s (s.offer loop) act := by
  have hold : ∀ c, s.call = some c → c.taken = false := by simp [hcall]
  unfold Retries.offer
  split
  · exact .advanced hold rfl (by simp [RetryPass.waiting]) hold
  · split
    · exact .advanced hold rfl (by simp [RetryPass.waiting, hpass]) hold
    · refine .advanced hold rfl (by simp [RetryPass.waiting, hpass]) fun c hc => ?_
      obtain rfl := Option.some.inj hc
      rfl

theorem readClaim_step {call : NotifyCall} {read : ObjectRead RetryClaim} (hcall : s.call = some call)
    (huntaken : call.taken = false) : IndexStep s (s.readClaim call read) (.readClaim read) := by
  have hold : ∀ c, s.call = some c → c.taken = false := by
    intro c hc
    rwa [← Option.some.inj (hcall.symm.trans hc)]
  have hreturned : IndexStep s (s.returned call false) (.readClaim read) :=
    .advanced hold (returned_index _) (by simp) (by simp)
  cases read with
  | notFound => exact .dropped hcall huntaken rfl (returned_index _) (returned_waiting _) (returned_call _)
  | failed text => exact hreturned
  | found claim =>
    simp only [Retries.readClaim]
    split
    · exact .dropped hcall huntaken ‹_› (returned_index _) (returned_waiting _) (returned_call _)
    · split
      · exact .took hcall huntaken ‹_› rfl rfl rfl
      · exact hreturned

/-- What a step does to the index, and that the pass stays sound. -/
theorem Retries.next_step (hnext : s.next act = .ok t) :
    IndexStep s t act ∧ (s.pass.Sound s.call → t.pass.Sound t.call) := by
  cases act with
  | register claim requested now | registerObservation claim observed now =>
    obtain rfl := Except.ok.inj hnext
    exact ⟨.registered rfl rfl rfl rfl rfl, id⟩
  | reconcile now =>
    simp only [Retries.next] at hnext
    split at hnext
    · rename_i hcall
      obtain rfl := Except.ok.inj hnext
      refine ⟨.listed hcall rfl (fun w hw => ?_) hcall, fun _ => ?_⟩
      · dsimp only at hw ⊢
        split at hw
        · cases hw
        · exact mem_snapshot.mp hw
      · dsimp only
        split
        · exact hcall
        · exact ⟨snapshot_ordered _, hcall⟩
    · cases hnext
  | readyPools pools =>
    simp only [Retries.next] at hnext
    split at hnext
    · rename_i waiting hpass hcall
      obtain rfl := Except.ok.inj hnext
      refine ⟨.advanced (by simp [hcall]) rfl (by simp [RetryPass.waiting, hpass]) (by simp [hcall]), fun h => ?_⟩
      rw [hpass] at h
      exact ⟨h.1, ⟨[], rfl, rfl⟩, by simp [hcall]⟩
    · cases hnext
  | observe =>
    simp only [Retries.next] at hnext
    split at hnext
    · rename_i hpass hcall
      obtain rfl := Except.ok.inj hnext
      exact ⟨observe_step hpass hcall, fun h => observe_sound h hpass hcall⟩
    · cases hnext
  | readLedger reader volumes moves =>
    simp only [Retries.next] at hnext
    split at hnext
    · rename_i hpass hcall
      split at hnext
      · obtain rfl := Except.ok.inj hnext
        exact ⟨.advanced (by simp [hcall]) rfl (by simp [RetryPass.waiting]) (by simp [hcall]), fun _ => hcall⟩
      · rename_i free hroom
        obtain rfl := Except.ok.inj hnext
        refine ⟨.advanced (by simp [hcall]) rfl (by simp [RetryPass.waiting, hpass]) (by simp [hcall]), fun h => ?_⟩
        rw [hpass] at h
        dsimp only
        rw [hcall]
        exact ⟨free, .start hroom h.1 h.2.1⟩
    · cases hnext
  | offer =>
    simp only [Retries.next] at hnext
    split at hnext
    · rename_i hpass hcall
      obtain rfl := Except.ok.inj hnext
      exact ⟨offer_step hpass hcall, fun h => offer_sound h hpass hcall⟩
    · cases hnext
  | readClaim read =>
    simp only [Retries.next] at hnext
    split at hnext
    · rename_i call hcall
      split at hnext
      · cases hnext
      · rename_i huntaken
        obtain rfl := Except.ok.inj hnext
        exact ⟨readClaim_step hcall (Bool.not_eq_true _ ▸ huntaken), fun h => readClaim_sound h hcall⟩
    · cases hnext
  | updateClaim succeeds =>
    simp only [Retries.next] at hnext
    split at hnext
    · rename_i call hcall
      split at hnext
      · cases hnext
      · rename_i htaken
        split at hnext
        · rename_i hsucceeds
          obtain rfl := Except.ok.inj hnext
          exact ⟨.answered hcall (not_not.mp htaken) (by rw [returned_index, if_pos hsucceeds]) (returned_waiting _)
            (returned_call _), fun h => returned_call (s := _) _ ▸ returned_sound h hcall _⟩
        · rename_i hfails
          obtain rfl := Except.ok.inj hnext
          exact ⟨.answered hcall (not_not.mp htaken) (by rw [returned_index, if_neg hfails]) (returned_waiting _)
            (returned_call _), fun h => returned_call (s := _) _ ▸ returned_sound h hcall _⟩
    · cases hnext
  | giveUp =>
    simp only [Retries.next] at hnext
    split at hnext
    · cases hnext
    · rename_i huntaken
      obtain rfl := Except.ok.inj hnext
      refine ⟨.advanced (fun c hc => ?_) rfl (by simp [RetryPass.waiting]) (by simp), fun _ => rfl⟩
      simpa [hc] using huntaken

/-! ### No waiter is lost -/

def Retries.Knows (s : Retries) (w : Waiter) : Prop := w ∈ s.index.waiting.rows ∨ w ∈ s.pass.waiting

/-- What the serials tell: they differ, and a claim that is registered while it is updated has a newer one. -/
structure Serialized (s : Retries) : Prop where
  bounded : s.index.waiting.rows.length ≤ maxWaiters
  known : ∀ {w}, s.Knows w → w.serial ≤ s.index.serial
  apart : ∀ {w v}, s.Knows w → s.Knows v → w.serial = v.serial → w = v
  newer : ∀ {call w}, s.call = some call → call.taken = true → w ∈ s.index.waiting.rows → w.uid = call.waiter.uid →
    call.waiter.serial < w.serial

theorem Serialized.of_known (h : Serialized s) (hbounded : t.index.waiting.rows.length ≤ maxWaiters)
    (hserial : t.index.serial = s.index.serial) (hknows : ∀ w, t.Knows w → s.Knows w)
    (hnewer : ∀ {call w}, t.call = some call → call.taken = true → w ∈ t.index.waiting.rows → w.uid = call.waiter.uid →
      call.waiter.serial < w.serial) : Serialized t where
  bounded := hbounded
  known hw := hserial ▸ h.known (hknows _ hw)
  apart hw hv := h.apart (hknows _ hw) (hknows _ hv)
  newer := hnewer

theorem Serialized.register (h : Serialized s) (hpass : s.pass.Sound s.call) {table : Table Waiter.uid}
    (hnew : w.serial = s.index.serial + 1) (htable : ∀ v ∈ table.rows, v ∈ s.index.waiting.rows)
    (hindex : t.index = ⟨table.put w, s.index.serial + 1⟩) (hpass' : t.pass = s.pass) (hcall' : t.call = s.call)
    (hbounded : t.index.waiting.rows.length ≤ maxWaiters) : Serialized t := by
  have hmem : ∀ v ∈ t.index.waiting.rows, v = w ∨ v ∈ s.index.waiting.rows := by
    intro v hv
    rw [hindex] at hv
    exact (Table.mem_put.mp hv).imp_right fun hv => htable v hv.1
  have hcases : ∀ v, t.Knows v → v = w ∨ s.Knows v := by
    rintro v (hv | hv)
    · exact (hmem v hv).imp_right .inl
    · exact .inr (.inr (hpass' ▸ hv))
  have hserial : t.index.serial = s.index.serial + 1 := by rw [hindex]
  refine ⟨hbounded, fun {v} hv => ?_, fun {u v} hu hv heq => ?_, fun {call v} hcall htaken hv huid => ?_⟩
  · rcases hcases v hv with rfl | hv
    · exact (hnew.trans hserial.symm).le
    · exact hserial ▸ Nat.le_succ_of_le (h.known hv)
  · rcases hcases u hu with rfl | hu <;> rcases hcases v hv with rfl | hv
    · rfl
    · exact absurd (h.known hv) (by omega)
    · exact absurd (h.known hu) (by omega)
    · exact h.apart hu hv heq
  · rw [hcall'] at hcall
    rcases hmem v hv with rfl | hv
    · rw [hnew]
      exact Nat.lt_succ_of_le (h.known (.inr (hpass.called hcall)))
    · exact h.newer hcall htaken hv huid

theorem Serialized.step (h : Serialized s) (hpass : s.pass.Sound s.call) (hstep : IndexStep s t act) : Serialized t := by
  cases hstep with
  | @registered _ claim requested observation observed now _ _ hindex hpass' hcall' =>
    have hbounded : t.index.waiting.rows.length ≤ maxWaiters := hindex ▸ registerWaiter_length _ _ _ _ _ h.bounded
    rcases registerWaiter_cases s.index claim requested observation observed now with hsame | hsame | ⟨w, hnew, hsame, -⟩
    · rw [hsame] at hindex
      refine h.of_known hbounded (by rw [hindex]) (fun w hw => ?_) ?_
      · rwa [Retries.Knows, hindex, hpass'] at hw
      · rw [hindex, hcall']
        exact h.newer
    · rw [hsame] at hindex
      refine h.of_known hbounded (by rw [hindex]; rfl) (fun w hw => ?_) fun {call w} hcall htaken hw => ?_
      · rw [Retries.Knows, hindex, hpass'] at hw
        exact hw.imp_left fun hw => (mem_expire.mp hw).1
      · rw [hindex] at hw
        exact h.newer (hcall' ▸ hcall) htaken (mem_expire.mp hw).1
    · exact h.register hpass hnew (fun v hv => (mem_expire.mp hv).1) (hindex.trans hsame) hpass' hcall' hbounded
  | listed hcall hindex hlisted hcall' =>
    have hmem : ∀ w ∈ t.index.waiting.rows, w ∈ s.index.waiting.rows := by
      intro w hw
      rw [hindex] at hw
      exact (mem_expire.mp hw).1
    refine h.of_known ?_ (by rw [hindex]; rfl) (fun w hw => .inl ?_) (by simp [hcall'])
    · rw [hindex]
      exact length_expire_le.trans h.bounded
    · exact hmem w (hw.elim id (hlisted w))
  | advanced huntaken hindex hlisted huntaken' =>
    refine h.of_known (hindex ▸ h.bounded) (by rw [hindex]) (fun w hw => ?_) fun {call w} hcall htaken => ?_
    · rw [Retries.Knows, hindex] at hw
      exact hw.imp_right (hlisted w)
    · rw [huntaken' call hcall] at htaken
      cases htaken
  | dropped hcall huntaken hgone hindex hlisted hcall' =>
    refine h.of_known ?_ (by rw [hindex, take_serial]) (fun w hw => ?_) (by simp [hcall'])
    · rw [hindex]
      exact take_length_le.trans h.bounded
    · rw [Retries.Knows, hindex, hlisted] at hw
      exact hw.imp_left mem_of_mem_take
  | @took _ call hcall huntaken hholds hindex hpass' hcall' =>
    refine h.of_known ?_ (by rw [hindex, take_serial]) (fun w hw => ?_) fun {call' w} hcall'' _ hw huid => ?_
    · rw [hindex]
      exact take_length_le.trans h.bounded
    · rw [Retries.Knows, hindex, hpass'] at hw
      exact hw.imp_left mem_of_mem_take
    · -- Nothing is left under the UID of the waiter.
      obtain rfl := Option.some.inj (hcall'.symm.trans hcall'')
      rw [hindex, RetryIndex.take, if_pos hholds] at hw
      exact absurd huid (Table.mem_erase.mp hw).2
  | @answered call succeeds hcall htaken hindex hlisted hcall' =>
    have hmem : ∀ w ∈ t.index.waiting.rows, w = call.waiter ∨ w ∈ s.index.waiting.rows := by
      intro w hw
      rw [hindex] at hw
      split at hw
      · exact .inr hw
      · exact mem_of_mem_putBack hw
    refine h.of_known ?_ ?_ (fun w hw => ?_) (by simp [hcall'])
    · rw [hindex]
      split
      · exact h.bounded
      · exact putBack_length_le h.bounded
    · rw [hindex]
      split
      · rfl
      · exact putBack_serial
    · rcases hw with hw | hw
      · rcases hmem w hw with rfl | hw
        · exact .inr (hpass.called hcall)
        · exact .inl hw
      · exact .inr (hlisted ▸ hw)

/-- The waiter is in the index, or was taken out of it for the update of its claim that is under way. -/
def Waits (s : Retries) (w : Waiter) : Prop :=
  w ∈ s.index.waiting.rows ∨ ∃ call, s.call = some call ∧ call.taken = true ∧ call.waiter = w

inductive Leaves (s t : Retries) (w : Waiter) : RetryAct → Prop where
  | notified {call : NotifyCall} (hcall : s.call = some call) (hwaiter : call.waiter = w) : Leaves s t w (.updateClaim true)
  | superseded {act : RetryAct} {v : Waiter} (hv : v ∈ t.index.waiting.rows) (hclaim : v.uid = w.uid) (hnewer : w.serial < v.serial) :
      Leaves s t w act
  | expired {act : RetryAct} {now : Int} (hmoment : act.moment = some now) (hold : waiterLifetime ≤ now - w.lastSeen) :
      Leaves s t w act
  | gone {call : NotifyCall} {read : ObjectRead RetryClaim} (hcall : s.call = some call) (hwaiter : call.waiter = w)
      (hgone : w.goneBy read = true) : Leaves s t w (.readClaim read)
  | full {call : NotifyCall} (hcall : s.call = some call) (hwaiter : call.waiter = w)
      (hfull : maxWaiters ≤ s.index.waiting.rows.length) : Leaves s t w (.updateClaim false)

theorem mem_expire_or_leaves {now : Int} (hw : w ∈ s.index.waiting.rows) (hmoment : act.moment = some now) :
    w ∈ (s.index.expire now).waiting.rows ∨ Leaves s t w act := by
  by_cases hold : now - w.lastSeen < waiterLifetime
  · exact .inl (mem_expire.mpr ⟨hw, hold⟩)
  · exact .inr (.expired hmoment (not_lt.mp hold))

theorem waits_or_leaves (h : Serialized s) (hpass : s.pass.Sound s.call) (hstep : IndexStep s t act) (hw : Waits s w) :
    Waits t w ∨ Leaves s t w act := by
  cases hstep with
  | @registered _ claim requested observation observed now hmoment _ hindex hpass' hcall' =>
    rcases hw with hw | hw
    · rcases registerWaiter_cases s.index claim requested observation observed now with hsame | hsame | ⟨v, hnew, hsame, -⟩
      · exact .inl (.inl (hindex.trans hsame ▸ hw))
      · exact (mem_expire_or_leaves hw hmoment).imp_left fun hw => .inl (hindex.trans hsame ▸ hw)
      · rcases mem_expire_or_leaves (t := t) hw hmoment with hkept | hleaves
        · by_cases huid : w.uid = v.uid
          · refine .inr (.superseded (v := v) ?_ huid.symm ?_)
            · rw [hindex.trans hsame]
              exact Table.mem_put.mpr (.inl rfl)
            · rw [hnew]
              exact Nat.lt_succ_of_le (h.known (.inl hw))
          · refine .inl (.inl ?_)
            rw [hindex.trans hsame]
            exact Table.mem_put.mpr (.inr ⟨hkept, huid⟩)
        · exact .inr hleaves
    · exact .inl (.inr (hcall' ▸ hw))
  | listed hcall hindex hlisted hcall' =>
    rcases hw with hw | ⟨call, hcall'', -⟩
    · exact (mem_expire_or_leaves hw rfl).imp_left fun hw => .inl (hindex ▸ hw)
    · rw [hcall] at hcall''
      cases hcall''
  | advanced huntaken hindex hlisted huntaken' =>
    rcases hw with hw | ⟨call, hcall, htaken, -⟩
    · exact .inl (.inl (hindex ▸ hw))
    · rw [huntaken call hcall] at htaken
      cases htaken
  | @dropped call read hcall huntaken hgone hindex hlisted hcall' =>
    rcases hw with hw | ⟨c, hc, htaken, -⟩
    · rcases mem_take (w := call.waiter) hw with hkept | ⟨-, hserial⟩
      · exact .inl (.inl (hindex ▸ hkept))
      · have heq : call.waiter = w := h.apart (.inr (hpass.called hcall)) (.inl hw) hserial.symm
        exact .inr (.gone hcall heq (heq ▸ hgone))
    · rw [← Option.some.inj (hcall.symm.trans hc), huntaken] at htaken
      cases htaken
  | @took _ call hcall huntaken hholds hindex hpass' hcall' =>
    rcases hw with hw | ⟨c, hc, htaken, -⟩
    · rcases mem_take (w := call.waiter) hw with hkept | ⟨-, hserial⟩
      · exact .inl (.inl (hindex ▸ hkept))
      · have heq : call.waiter = w := h.apart (.inr (hpass.called hcall)) (.inl hw) hserial.symm
        exact .inl (.inr ⟨_, hcall', rfl, heq⟩)
    · rw [← Option.some.inj (hcall.symm.trans hc), huntaken] at htaken
      cases htaken
  | @answered call succeeds hcall htaken hindex hlisted hcall' =>
    cases succeeds with
    | true =>
      rcases hw with hw | ⟨c, hc, -, hwaiter⟩
      · exact .inl (.inl (hindex ▸ hw))
      · exact .inr (.notified hc hwaiter)
    | false =>
      replace hindex : t.index = s.index.putBack call.waiter := hindex
      rcases hw with hw | ⟨c, hc, -, hwaiter⟩
      · exact .inl (.inl (hindex ▸ mem_putBack hw))
      · obtain rfl := Option.some.inj (hcall.symm.trans hc)
        subst hwaiter
        rcases putBack_cases s.index call.waiter with hback | ⟨v, hv, huid⟩ | hfull
        · exact .inl (.inl (hindex ▸ hback))
        · exact .inr (.superseded (hindex ▸ mem_putBack hv) huid (h.newer hcall htaken hv huid))
        · exact .inr (.full hcall rfl hfull)

/-! ### The order of first registration -/

/-- What waits after a step waited before, or is an earlier registration renewed, or enters the index as a first one. -/
theorem waits_origin (h : Serialized s) (hpass : s.pass.Sound s.call) (hstep : IndexStep s t act) (hw : Waits t w) :
    (∃ v, Waits s v ∧ v.uid = w.uid ∧ v.firstSeen = w.firstSeen) ∨
      act.registers = some (w.uid, w.firstSeen) ∧ ∀ v ∈ (s.index.expire w.firstSeen).waiting.rows, v.uid ≠ w.uid := by
  have hkept : Waits s w → ∃ v, Waits s v ∧ v.uid = w.uid ∧ v.firstSeen = w.firstSeen := fun hw => ⟨w, hw, rfl, rfl⟩
  cases hstep with
  | @registered _ claim requested observation observed now _ hregisters hindex hpass' hcall' =>
    rcases hw with hw | hw
    · rcases registerWaiter_cases s.index claim requested observation observed now with hsame | hsame | ⟨v, -, hsame, -, huid, hfirst⟩
      · exact .inl (hkept (.inl (hindex.trans hsame ▸ hw)))
      · rw [hindex.trans hsame] at hw
        exact .inl (hkept (.inl (mem_expire.mp hw).1))
      · rw [hindex.trans hsame] at hw
        rcases Table.mem_put.mp hw with rfl | ⟨hw, -⟩
        · cases hfind : (s.index.expire now).waiting.find w.uid with
          | none =>
            obtain rfl : w.firstSeen = now := by simpa [hfind] using hfirst
            refine .inr ⟨huid ▸ hregisters, fun v hv heq => ?_⟩
            rw [← heq, Table.find_of_mem hv] at hfind
            cases hfind
          | some v =>
            have hv := (mem_expire.mp (Table.mem_of_find hfind)).1
            exact .inl ⟨v, .inl hv, Table.key_of_find hfind, by simpa [hfind] using hfirst.symm⟩
        · exact .inl (hkept (.inl (mem_expire.mp hw).1))
    · exact .inl (hkept (.inr (hcall' ▸ hw)))
  | listed hcall hindex hlisted hcall' =>
    rcases hw with hw | ⟨call, hcall'', -⟩
    · rw [hindex] at hw
      exact .inl (hkept (.inl (mem_expire.mp hw).1))
    · rw [hcall'] at hcall''
      cases hcall''
  | advanced huntaken hindex hlisted huntaken' =>
    rcases hw with hw | ⟨call, hcall, htaken, -⟩
    · exact .inl (hkept (.inl (hindex ▸ hw)))
    · rw [huntaken' call hcall] at htaken
      cases htaken
  | dropped hcall huntaken hgone hindex hlisted hcall' =>
    rcases hw with hw | ⟨call, hcall'', -⟩
    · exact .inl (hkept (.inl (mem_of_mem_take (hindex ▸ hw))))
    · rw [hcall'] at hcall''
      cases hcall''
  | @took _ call hcall huntaken hholds hindex hpass' hcall' =>
    rcases hw with hw | ⟨c, hc, -, hwaiter⟩
    · exact .inl (hkept (.inl (mem_of_mem_take (hindex ▸ hw))))
    · obtain rfl := Option.some.inj (hcall'.symm.trans hc)
      obtain ⟨v, hv, -, hserial⟩ := holds_iff.mp hholds
      have heq : call.waiter = v := h.apart (.inr (hpass.called hcall)) (.inl hv) hserial.symm
      exact .inl (hkept (.inl (hwaiter ▸ heq ▸ hv)))
  | @answered call succeeds hcall htaken hindex hlisted hcall' =>
    rcases hw with hw | ⟨c, hc, -⟩
    · rw [hindex] at hw
      split at hw
      · exact .inl (hkept (.inl hw))
      · rcases mem_of_mem_putBack hw with rfl | hw
        · exact .inl (hkept (.inr ⟨call, hcall, htaken, rfl⟩))
        · exact .inl (hkept (.inl hw))
    · rw [hcall'] at hc
      cases hc

/-- A registration at `firstSeen` found the claim out of the index. From then on the claim was in the index, or out of it
    for an update of a registration that is as old. -/
def RegisteredSince (history : List Retries) (w : Waiter) : Prop :=
  ∃ later after before earlier act, history = later ++ after :: before :: earlier ∧ before.next act = .ok after ∧
    act.registers = some (w.uid, w.firstSeen) ∧ (∀ v ∈ (before.index.expire w.firstSeen).waiting.rows, v.uid ≠ w.uid) ∧
    ∀ u ∈ later ++ [after], ∃ v, Waits u v ∧ v.uid = w.uid ∧ v.firstSeen = w.firstSeen

theorem RegisteredSince.extend {history : List Retries} {v : Waiter} (h : RegisteredSince history v) (hw : Waits t w)
    (huid : v.uid = w.uid) (hfirst : v.firstSeen = w.firstSeen) : RegisteredSince (t :: history) w := by
  obtain ⟨later, after, before, earlier, act, rfl, hnext, hregisters, hout, hsince⟩ := h
  rw [huid, hfirst] at hregisters hsince
  rw [hfirst, huid] at hout
  refine ⟨t :: later, after, before, earlier, act, rfl, hnext, hregisters, hout, fun u hu => ?_⟩
  rcases List.mem_cons.mp hu with rfl | hu
  · exact ⟨w, hw, rfl, rfl⟩
  · exact hsince u hu

/-! ### Runs -/

theorem RetryRun.sound {past : List Retries} (hrun : RetryRun (s :: past)) : s.pass.Sound s.call ∧ Serialized s := by
  refine hrun.forall_mem (I := fun s => s.pass.Sound s.call ∧ Serialized s) ?_ (fun {s t past act} _ hall hstep => ?_) s
    List.mem_cons_self
  · rintro _ rfl
    refine ⟨rfl, Nat.zero_le _, ?_, ?_, ?_⟩ <;> simp [Retries.Knows, RetryIndex.empty, Table.empty, RetryPass.waiting]
  · have hnext := Run.onHead_cons.mp hstep
    obtain ⟨hpass, hserialized⟩ := hall s List.mem_cons_self
    exact ⟨(Retries.next_step hnext).2 hpass, hserialized.step hpass (Retries.next_step hnext).1⟩

theorem RetryRun.registered {history : List Retries} (hrun : RetryRun history) :
    ∀ s ∈ history.head?, ∀ w, Waits s w → RegisteredSince history w := by
  induction hrun with
  | start hinit =>
    subst hinit
    simp [Waits, RetryIndex.empty, Table.empty]
  | @next s t past act hrun hstep ih =>
    intro u hu w hw
    obtain rfl : t = u := by simpa using hu
    have hnext := Run.onHead_cons.mp hstep
    obtain ⟨hpass, hserialized⟩ := RetryRun.sound hrun
    rcases waits_origin hserialized hpass (Retries.next_step hnext).1 hw with ⟨v, hv, huid, hfirst⟩ | ⟨hregisters, hout⟩
    · exact (ih s rfl v hv).extend hw huid hfirst
    · exact ⟨[], t, s, past, act, rfl, hnext, hregisters, hout, by simpa using ⟨w, hw, rfl, rfl⟩⟩

theorem RetryRun.listed {history : List Retries} (hrun : RetryRun history) :
    ∀ s ∈ history.head?, ∀ w ∈ s.pass.waiting, ∃ u past, u :: past <:+ history ∧ w ∈ u.index.waiting.rows := by
  induction hrun with
  | start hinit =>
    subst hinit
    simp [RetryPass.waiting]
  | @next s t past act hrun hstep ih =>
    intro u hu w hw
    obtain rfl : t = u := by simpa using hu
    have hearlier : w ∈ s.pass.waiting → ∃ u rest, u :: rest <:+ t :: s :: past ∧ w ∈ u.index.waiting.rows := fun hw => by
      obtain ⟨u, rest, hsuffix, hmem⟩ := ih s rfl w hw
      exact ⟨u, rest, hsuffix.trans (List.suffix_cons _ _), hmem⟩
    cases (Retries.next_step (Run.onHead_cons.mp hstep)).1 with
    | registered _ _ _ hpass | took _ _ _ _ hpass => exact hearlier (hpass ▸ hw)
    | listed _ _ hlisted => exact ⟨t, s :: past, List.suffix_rfl, hlisted w hw⟩
    | advanced _ _ hlisted => exact hearlier (hlisted w hw)
    | dropped _ _ _ _ hlisted | answered _ _ _ hlisted => exact hearlier (hlisted ▸ hw)

/-- In every state of every interleaving, the index is within its bound; a pass serves the capacity waits by `firstSeen`
    and within the room of each Pool, where `firstSeen` is the first registration since the claim was last out of the index,
    for what is in the index and for what the pass listed from it; and a step that loses a waiter has one of the five
    reasons. -/
theorem retries_budgeted {past : List Retries} (hrun : RetryRun (s :: past)) :
    s.index.waiting.rows.length ≤ maxWaiters ∧
    (∀ loop, s.pass = .capacity loop → ∃ room, FirstFitFanout loop s.call room) ∧
    (∀ w ∈ s.index.waiting.rows, RegisteredSince (s :: past) w) ∧
    (∀ w ∈ s.pass.waiting, ∃ u rest, u :: rest <:+ s :: past ∧ w ∈ u.index.waiting.rows ∧ RegisteredSince (u :: rest) w) ∧
    ∀ act t, s.next act = .ok t → ∀ w, Waits s w → Waits t w ∨ Leaves s t w act := by
  obtain ⟨hpass, hserialized⟩ := hrun.sound
  refine ⟨hserialized.bounded, fun loop hloop => ?_, fun w hw => hrun.registered s rfl w (.inl hw), fun w hw => ?_,
    fun act t hnext w hw => waits_or_leaves hserialized hpass (Retries.next_step hnext).1 hw⟩
  · rw [hloop] at hpass
    obtain ⟨room, hbudget⟩ := hpass
    exact ⟨room, hbudget.toFirstFitFanout⟩
  · obtain ⟨u, rest, ⟨later, hsuffix⟩, hmem⟩ := hrun.listed s rfl w hw
    have hearlier : RetryRun (u :: rest) := Run.suffix (l := later) (hsuffix ▸ hrun)
    exact ⟨u, rest, ⟨later, hsuffix⟩, hmem, hearlier.registered u rfl w (.inl hmem)⟩

end Steps

/-! ### Three requests -/

def twentyBytes : PoolReader := { sampleReader with parseQuantity := fun _ => .ok (some 20) }

def waitingClaim (name : String) : WaitingClaim := { ns := "default", name, uid := name, node := "node", group := "" }

def unboundClaim (name : String) : ObjectRead RetryClaim :=
  .found { uid := name, isDeleting := false, volumeName := "", isBound := false, selectedNode := "node" }

/-- The first claim registers again while its update fails, the second is updated and the third no longer fits. -/
def retryScript : List RetryAct :=
  [.register (waitingClaim "a") 8 1, .register (waitingClaim "b") 15 2, .register (waitingClaim "c") 9 3, .reconcile 4,
    .readyPools ⟨[fixedPool "pool" "/data" "" 0], by simp⟩, .observe, .observe, .observe, .observe,
    .readLedger twentyBytes (.empty _) [], .offer, .readClaim (unboundClaim "a"), .register (waitingClaim "a") 8 5,
    .updateClaim false, .offer, .readClaim (unboundClaim "b"), .updateClaim true, .offer]

def spentOf (s : Retries) : Option Int :=
  match s.pass with
  | .capacity loop => some (spent loop.offers "pool")
  | _ => none

/-- The first claim has lost its place, as it was out of the index when it registered again. -/
theorem retries_budgeted_fifteen : ∃ s past, Run.replay Retries.next ⟨.empty, .idle, none⟩ [] retryScript = s :: past ∧
    s.index.waiting.rows.length ≤ maxWaiters ∧ (∃ loop, s.pass = .capacity loop ∧ spent loop.offers "pool" = 15 ∧
      ∃ room, FirstFitFanout loop s.call room) ∧
    ∃ w, s.index.waiting.find "a" = some w ∧ w.firstSeen = 5 ∧ RegisteredSince (s :: past) w := by
  have hlast : (Run.replay Retries.next ⟨.empty, .idle, none⟩ [] retryScript).head?.map
      (fun s => (spentOf s, (s.index.waiting.find "a").map (·.firstSeen))) = some (some 15, some 5) := by
    decide +kernel
  cases hs : Run.replay Retries.next ⟨.empty, .idle, none⟩ [] retryScript with
  | nil => simp [hs] at hlast
  | cons s past =>
    have hrun : RetryRun (s :: past) := Run.replay_run (.start rfl) hs
    obtain ⟨hbounded, hfanout, hregistered, -⟩ := retries_budgeted hrun
    obtain ⟨hspent, hfirst⟩ : spentOf s = some 15 ∧ (s.index.waiting.find "a").map (·.firstSeen) = some 5 := by
      simpa [hs] using hlast
    obtain ⟨w, hfind, hseen⟩ := Option.map_eq_some_iff.mp hfirst
    refine ⟨s, past, rfl, hbounded, ?_, w, hfind, hseen, hregistered w (Table.mem_of_find hfind)⟩
    unfold spentOf at hspent
    split at hspent
    · rename_i loop hloop
      exact ⟨loop, hloop, Option.some.inj hspent, hfanout loop hloop⟩
    · cases hspent

end ShiftPV
