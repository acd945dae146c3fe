import ShiftPV.Uninstall

/-! The gate stays shut for an attempt that it acknowledges. Sync closes the gate and counts what is active in one step; as
    long as the attempt is current, every later sync keeps the gate closed. -/

namespace ShiftPV
open Check GateWorld

variable {p : PermitStore} {w w' : GateWorld} {A : String}

/-! ### What the invariant says -/

/-- The acknowledged attempt has not been ended since. -/
def Standing (A : String) (trace : List GateEvent) : Prop :=
  ∃ mid older, trace = mid ++ .acknowledged A :: older ∧ ∀ e ∈ mid, e.replaces = false

/-- Every provisioning that entered has left since, or its process is gone. -/
def AllLeft (trace : List GateEvent) : Prop :=
  ∀ {newer handle live older}, trace = newer ++ .entered handle live :: older → .left handle ∈ newer ∨ .restarted ∈ newer

/-- The flag was set for the attempt when all provisionings had left. -/
def FlaggedIdle (A : String) (trace : List GateEvent) : Prop :=
  ∃ newer older, trace = newer ++ .flagged A :: older ∧ AllLeft older

/-- Nothing enters an attempt for which the flag was set; an acknowledgement follows a flag that was set while nothing
    was active; a grant follows a standing acknowledgement, of a permit that was unexpired when it was read. -/
def GateEvent.Justified : GateEvent → List GateEvent → Prop
  | .entered _ live, earlier => ∀ A, live = some A → .flagged A ∉ earlier
  | .acknowledged A, earlier => FlaggedIdle A earlier
  | .granted A readAt expiresAt, earlier => readAt < expiresAt ∧ Standing A earlier
  | _, _ => True

/-- A serving gate is closed, and the running sync will leave it so. -/
def QuiesceGate.Shut (gate : QuiesceGate) : Prop :=
  (gate.serving → gate.quiescing) ∧ ∀ {r}, gate.sync = some r → r.2 = true

def PermitCall.Checked (call : PermitCall) (object : PermitObject) (readAt : Nat) : Prop :=
  match call with
  | .acknowledge A => object.permit.attempt = A
  | .grant A => object.permit.attempt = A ∧ object.permit.controllerAck ∧ ∀ {x}, object.permit.expiresAt = .at x → readAt < x
  | _ => True

/-- A call refers to a version of the object, and versions do not come back. -/
structure CallSound (w : GateWorld) (call : PermitCall) (base : PermitObject) (readAt : Nat) : Prop where
  version : base.version ≤ w.revision
  same : ∀ {object}, w.stored = some object → object.version = base.version → object = base
  checked : call.Checked base readAt

/-- The counter counts the handles that have not run, and what has entered and not left holds one of them. -/
structure HandlesSound (gate : QuiesceGate) (trace : List GateEvent) : Prop where
  active : gate.active = gate.handles.count false
  entered : ∀ {newer handle live older}, trace = newer ++ .entered handle live :: older →
    .left handle ∈ newer ∨ .restarted ∈ newer ∨ gate.handles[handle]? = some false

structure GateSound (w : GateWorld) : Prop where
  trace : Run.Traced GateEvent.Justified w.trace
  version : ∀ {object}, w.stored = some object → object.version ≤ w.revision
  calls : ∀ {call base readAt}, (call, .writing (some base) readAt) ∈ w.calls → CallSound w call base readAt
  acks : ∀ {A stage}, (.acknowledge A, stage) ∈ w.calls → FlaggedIdle A w.trace
  begun : ∀ {object}, w.stored = some object → .begun object.permit.attempt ∈ w.trace
  standing : ∀ {object}, w.stored = some object → object.permit.controllerAck → Standing object.permit.attempt w.trace
  sync : ∀ {A}, w.gate.sync = some (A, true) → .begun A ∈ w.trace
  known : ∀ {A}, .flagged A ∈ w.trace → .begun A ∈ w.trace
  shut : ∀ {A}, .flagged A ∈ w.trace → w.live = some A → w.gate.Shut
  handles : HandlesSound w.gate w.trace

/-! ### Reads -/

theorem live_eq_some : w.live = some A ↔
    ∃ object x, w.stored = some object ∧ object.permit.expiresAt = .at x ∧ w.clock < x ∧ object.permit.attempt = A := by
  unfold live
  cases hstored : w.stored with
  | none => simp
  | some object =>
    cases hx : object.permit.expiresAt <;> simp [hx]

theorem readState_ok {now : Nat} {driver : Option String} {stored state : Option PermitObject}
    (h : p.readState now driver stored = .ok state) :
    (∀ {object}, state = some object → stored = some object ∧ ∃ x, object.permit.expiresAt = .at x ∧ now < x) ∧
      (state = none → ∀ {object x}, stored = some object → object.permit.expiresAt = .at x → ¬now < x) := by
  unfold PermitStore.readState at h
  rw [seq_ok] at h
  replace h := h.2
  cases stored with
  | none =>
    obtain rfl := pure_ok.mp h
    simp
  | some object =>
    simp only at h
    rw [seq_ok] at h
    replace h := h.2
    split at h
    · rename_i x hx
      split at h
      · rename_i hexpired
        obtain rfl := pure_ok.mp h
        refine ⟨by simp, fun _ object' x' hobject hx' => ?_⟩
        obtain rfl := Option.some.inj hobject
        obtain rfl : x = x' := by simpa [hx] using hx'
        exact hexpired
      · rename_i hlive
        obtain ⟨uid, -, h⟩ := bind_ok.mp h
        rw [seq_ok] at h
        obtain rfl := pure_ok.mp h.2
        refine ⟨fun hobject => ?_, by simp⟩
        obtain rfl := Option.some.inj hobject
        exact ⟨rfl, x, hx, by simpa using hlive⟩
    · simp at h

/-! ### Provisionings -/

namespace HandlesSound
variable {gate : QuiesceGate} {trace : List GateEvent} {e : GateEvent}

theorem record (h : HandlesSound gate trace) (hentered : ∀ {handle live}, e = .entered handle live → gate.handles[handle]? = some false) :
    HandlesSound gate (e :: trace) where
  active := h.active
  entered {newer handle live older} hsplit := by
    cases newer with
    | nil => exact .inr (.inr (hentered (List.cons.inj hsplit).1))
    | cons first newer =>
      have hkept := h.entered (List.cons.inj hsplit).2
      exact hkept.imp (List.mem_cons_of_mem _) (.imp_left (List.mem_cons_of_mem _))

theorem acquire (h : HandlesSound gate trace) :
    HandlesSound { gate with active := gate.active + 1, handles := gate.handles ++ [false] } trace where
  active := by simp [h.active]
  entered hsplit := (h.entered hsplit).imp_right fun hkept => hkept.imp_right fun hget =>
    (List.getElem?_append_left (List.getElem?_eq_some_iff.mp hget).1).trans hget

theorem release (h : HandlesSound gate trace) {handle : Nat} (hget : gate.handles[handle]? = some false) :
    HandlesSound { gate with active := gate.active - 1, handles := gate.handles.set handle true } (.left handle :: trace) where
  active := by
    obtain ⟨hlt, hheld⟩ := List.getElem?_eq_some_iff.mp hget
    simp [h.active, List.count_set, hlt, hheld]
  entered {newer other live older} hsplit := by
    rcases (h.record (e := .left handle) nofun).entered hsplit with hleft | hgone | hkept
    · exact .inl hleft
    · exact .inr (.inl hgone)
    · by_cases hsame : other = handle
      · -- the event just recorded is that of this provisioning
        cases newer with
        | nil => cases (List.cons.inj hsplit).1
        | cons first newer =>
          rw [hsame, ← (List.cons.inj hsplit).1]
          exact .inl List.mem_cons_self
      · exact .inr (.inr ((List.getElem?_set_ne (Ne.symm hsame)).trans hkept))

theorem restart : HandlesSound .start (.restarted :: trace) where
  active := rfl
  entered {newer handle live older} hsplit := by
    cases newer with
    | nil => cases (List.cons.inj hsplit).1
    | cons first newer => exact .inr (.inl ((List.cons.inj hsplit).1 ▸ List.mem_cons_self))

theorem allLeft (h : HandlesSound gate trace) (hidle : gate.active = 0) : AllLeft trace := by
  intro newer handle live older hsplit
  have hnone : false ∉ gate.handles := List.count_eq_zero.mp (h.active ▸ hidle)
  exact (h.entered hsplit).imp_right fun hkept => hkept.resolve_right fun hget => hnone (List.mem_of_getElem? hget)

end HandlesSound

theorem FlaggedIdle.later {e : GateEvent} {trace : List GateEvent} (h : FlaggedIdle A trace) : FlaggedIdle A (e :: trace) := by
  obtain ⟨newer, older, rfl, hleft⟩ := h
  exact ⟨e :: newer, older, rfl, hleft⟩

/-! ### What changes keep the invariant -/

theorem Standing.later {e : GateEvent} {trace : List GateEvent} (h : Standing A trace) (he : e.replaces = false) :
    Standing A (e :: trace) := by
  obtain ⟨mid, older, rfl, hmid⟩ := h
  exact ⟨e :: mid, older, rfl, by simpa [he] using hmid⟩

namespace GateSound

theorem replaceCalls (h : GateSound w) {calls : List (PermitCall × CallStage)}
    (hcalls : ∀ {call base readAt}, (call, .writing (some base) readAt) ∈ calls → CallSound w call base readAt)
    (hacks : ∀ {A stage}, (.acknowledge A, stage) ∈ calls → FlaggedIdle A w.trace) : GateSound { w with calls } where
  trace := h.trace
  version := h.version
  calls hmem := ⟨(hcalls hmem).version, (hcalls hmem).same, (hcalls hmem).checked⟩
  acks := hacks
  begun := h.begun
  standing := h.standing
  sync := h.sync
  known := h.known
  shut := h.shut
  handles := h.handles

theorem endCall (h : GateSound w) (index : Nat) : GateSound (w.endCall index) :=
  h.replaceCalls (fun hmem => h.calls (List.mem_of_mem_eraseIdx hmem)) fun hmem => h.acks (List.mem_of_mem_eraseIdx hmem)

theorem setCall (h : GateSound w) {index : Nat} {call : PermitCall} {stage stage' : CallStage}
    (hget : w.calls[index]? = some (call, stage))
    (hstage : ∀ {base readAt}, stage' = .writing (some base) readAt → CallSound w call base readAt) :
    GateSound (w.setCall index call stage') := by
  refine h.replaceCalls (fun hmem => ?_) fun hmem => ?_
  · rcases List.mem_or_eq_of_mem_set hmem with hmem | heq
    · exact h.calls hmem
    · obtain ⟨rfl, hwriting⟩ := Prod.mk.inj heq
      exact hstage hwriting.symm
  · rcases List.mem_or_eq_of_mem_set hmem with hmem | heq
    · exact h.acks hmem
    · obtain ⟨rfl, -⟩ := Prod.mk.inj heq
      exact h.acks (List.mem_of_getElem? hget)

theorem start (h : GateSound w) {call : PermitCall} (hack : ∀ {A}, call = .acknowledge A → FlaggedIdle A w.trace) :
    GateSound (w.start call) := by
  refine h.replaceCalls (fun hmem => ?_) fun hmem => ?_
  · rcases List.mem_cons.mp hmem with heq | hmem
    · exact nomatch (Prod.mk.inj heq).2
    · exact h.calls hmem
  · rcases List.mem_cons.mp hmem with heq | hmem
    · exact hack (Prod.mk.inj heq).1.symm
    · exact h.acks hmem

theorem regate (h : GateSound w) {gate : QuiesceGate} (hsync : ∀ {A}, gate.sync = some (A, true) → .begun A ∈ w.trace)
    (hshut : ∀ {A}, .flagged A ∈ w.trace → w.live = some A → gate.Shut) (hhandles : HandlesSound gate w.trace) :
    GateSound { w with gate } where
  trace := h.trace
  version := h.version
  calls hmem := ⟨(h.calls hmem).version, (h.calls hmem).same, (h.calls hmem).checked⟩
  acks := h.acks
  begun := h.begun
  standing := h.standing
  sync := hsync
  known := h.known
  shut := hshut
  handles := hhandles

/-- An event that ends no attempt, or that is recorded when none is acknowledged. -/
theorem record (h : GateSound w) {e : GateEvent} (hjustified : e.Justified w.trace)
    (hends : e.replaces = false ∨ w.stored = none)
    (hflag : ∀ {A}, e = .flagged A → .begun A ∈ w.trace ∧ (w.live = some A → w.gate.Shut))
    (hentered : ∀ {handle live}, e = .entered handle live → w.gate.handles[handle]? = some false) : GateSound (w.record e) where
  trace := ⟨hjustified, h.trace⟩
  version := h.version
  calls hmem := ⟨(h.calls hmem).version, (h.calls hmem).same, (h.calls hmem).checked⟩
  acks hmem := (h.acks hmem).later
  begun hobject := List.mem_cons_of_mem _ (h.begun hobject)
  standing hobject hack := by
    rcases hends with hends | hnone
    · exact Standing.later (h.standing hobject hack) hends
    · rw [show w.stored = some _ from hobject] at hnone
      simp at hnone
  sync hsync := List.mem_cons_of_mem _ (h.sync hsync)
  known hmem := by
    refine List.mem_cons_of_mem _ ?_
    rcases List.mem_cons.mp hmem with rfl | hmem
    · exact (hflag rfl).1
    · exact h.known hmem
  shut hmem hlive := by
    rcases List.mem_cons.mp hmem with rfl | hmem
    · exact (hflag rfl).2 hlive
    · exact h.shut hmem hlive
  handles := h.handles.record hentered

theorem drop (h : GateSound w) : GateSound { w with stored := none } where
  trace := h.trace
  version := by simp
  calls hmem := ⟨(h.calls hmem).version, by simp, (h.calls hmem).checked⟩
  acks := h.acks
  begun := by simp
  standing := by simp
  sync := h.sync
  known := h.known
  shut _ hlive := by simp [live] at hlive
  handles := h.handles

/-- A new version makes no attempt current for which the flag was set before. -/
theorem put (h : GateSound w) {permit : Permit} (hbegun : .begun permit.attempt ∈ w.trace)
    (hstanding : permit.controllerAck → Standing permit.attempt w.trace)
    (hlive : ∀ {A}, .flagged A ∈ w.trace → (w.put permit).live = some A → w.live = some A) : GateSound (w.put permit) where
  trace := h.trace
  version hobject := by
    obtain rfl := Option.some.inj hobject
    exact le_rfl
  calls hmem := by
    refine ⟨Nat.le_succ_of_le (h.calls hmem).version, fun hobject hversion => ?_, (h.calls hmem).checked⟩
    obtain rfl := Option.some.inj hobject
    have hold := (h.calls hmem).version
    simp only at hversion
    omega
  acks := h.acks
  begun hobject := by
    obtain rfl := Option.some.inj hobject
    exact hbegun
  standing hobject hack := by
    obtain rfl := Option.some.inj hobject
    exact hstanding hack
  sync := h.sync
  known := h.known
  shut hmem hl := h.shut hmem (hlive hmem hl)
  handles := h.handles

end GateSound

/-! ### Steps -/

theorem unchanged_some {call : PermitCall} {base : PermitObject} {readAt : Nat} (h : GateSound w)
    (hmem : (call, .writing (some base) readAt) ∈ w.calls) (hunchanged : w.unchanged (some base)) : w.stored = some base := by
  simp only [unchanged, Option.map_some, decide_eq_true_eq] at hunchanged
  obtain ⟨object, hobject, hversion⟩ := Option.map_eq_some_iff.mp hunchanged
  rw [hobject, (h.calls hmem).same hobject hversion]

theorem live_put {base : PermitObject} {permit : Permit} (hstored : w.stored = some base)
    (hattempt : permit.attempt = base.permit.attempt) (hexpires : permit.expiresAt = base.permit.expiresAt) :
    (w.put permit).live = w.live := by
  simp only [live, GateWorld.put, hstored, Option.bind_some, hattempt, hexpires]

theorem readCall_sound {index : Nat} {call : PermitCall} (h : GateSound w) (hget : w.calls[index]? = some (call, .reading))
    (hs : w.readCall p index call = .ok w') : GateSound w' := by
  -- what a read returns is stored, so its version is the current one
  have hread : ∀ {object}, w.stored = some object → call.Checked object w.clock →
      GateSound (w.setCall index call (.writing (some object) w.clock)) := by
    intro object hobject hchecked
    refine h.setCall hget fun {base readAt} hstage => ?_
    obtain ⟨hbase, rfl⟩ := CallStage.writing.inj hstage
    obtain rfl := Option.some.inj hbase
    refine ⟨h.version hobject, fun hobject' _ => ?_, hchecked⟩
    exact Option.some.inj (hobject'.symm.trans hobject)
  cases call with
  | beginQuiesce now driver attempt =>
    rw [readCall] at hs
    split at hs
    · obtain rfl := pure_ok.mp hs
      exact h.setCall hget fun hstage => by simp at hstage
    · rename_i existing hexisting
      rw [seq_ok] at hs
      obtain rfl := pure_ok.mp hs.2
      exact hread hexisting trivial
  | acknowledge A =>
    rw [readCall, seq_ok] at hs
    obtain ⟨state, hstate, hs⟩ := bind_ok.mp hs.2
    split at hs
    · obtain rfl := pure_ok.mp hs
      exact h.endCall index
    · rename_i object hobject
      obtain rfl := pure_ok.mp hs
      obtain ⟨hfound, hcheck⟩ := Option.filter_eq_some_iff.mp hobject
      obtain ⟨hstored, -⟩ := (readState_ok hstate).1 hfound
      simp only [Bool.and_eq_true, decide_eq_true_eq] at hcheck
      exact hread hstored hcheck.1.2
  | grant A =>
    rw [readCall, seq_ok] at hs
    obtain ⟨state, hstate, hs⟩ := bind_ok.mp hs.2
    obtain ⟨object, hgrant, hs⟩ := bind_ok.mp hs
    obtain rfl := pure_ok.mp hs
    unfold PermitStore.grantable at hgrant
    split at hgrant
    · simp at hgrant
    · rename_i found
      rw [seq_ok, require_ok] at hgrant
      obtain ⟨⟨-, hattempt, hack⟩, hgrant⟩ := hgrant
      obtain rfl := pure_ok.mp hgrant
      obtain ⟨hstored, x, hx, hclock⟩ := (readState_ok hstate).1 rfl
      refine hread hstored ⟨hattempt, hack, fun {x'} hx' => ?_⟩
      obtain rfl : x = x' := by simpa [hx] using hx'
      exact hclock
  | cancel A =>
    rw [readCall] at hs
    obtain ⟨state, hstate, hs⟩ := bind_ok.mp hs
    split at hs
    · obtain rfl := pure_ok.mp hs
      exact h.endCall index
    · rename_i object hobject
      obtain rfl := pure_ok.mp hs
      obtain ⟨hfound, -⟩ := Option.filter_eq_some_iff.mp hobject
      obtain ⟨hstored, -⟩ := (readState_ok hstate).1 hfound
      exact hread hstored trivial

theorem writeCall_sound {index : Nat} {call : PermitCall} {base : Option PermitObject} {readAt : Nat} (h : GateSound w)
    (hget : w.calls[index]? = some (call, .writing base readAt)) (hs : w.writeCall index base readAt call = .ok w') :
    GateSound w' := by
  have hretry : GateSound (w.setCall index call .reading) := h.setCall hget fun hstage => by simp at hstage
  have hmem := List.mem_of_getElem? hget
  cases call with
  | beginQuiesce now driver attempt =>
    rw [writeCall, seq_ok, require_ok] at hs
    obtain ⟨hfresh, hs⟩ := hs
    split at hs
    · obtain rfl := pure_ok.mp hs
      have hended : GateSound ({ w with stored := none }.record (.begun attempt)) :=
        h.drop.record trivial (.inr rfl) nofun nofun
      have hput : GateSound (({ w with stored := none }.record (.begun attempt)).put (PermitStore.desired now driver attempt)) := by
        refine hended.put List.mem_cons_self (fun hack => by simp [PermitStore.desired] at hack) ?_
        intro A hflag hlive
        obtain ⟨object, x, hobject, -, -, rfl⟩ := live_eq_some.mp hlive
        obtain rfl := Option.some.inj hobject
        rcases List.mem_cons.mp hflag with heq | hflag
        · simp at heq
        · exact absurd (h.known hflag) hfresh
      exact hput.endCall index
    · obtain rfl := pure_ok.mp hs
      exact h.endCall index
  | acknowledge A =>
    cases base with
    | none => simp [writeCall] at hs
    | some object =>
      rw [writeCall] at hs
      split at hs
      · rename_i hunchanged
        obtain rfl := pure_ok.mp hs
        have hstored := unchanged_some h hmem hunchanged
        obtain rfl : object.permit.attempt = A := (h.calls hmem).checked
        have hrecorded : GateSound (w.record (.acknowledged object.permit.attempt)) :=
          h.record (h.acks hmem) (.inl rfl) nofun nofun
        have hput : GateSound ((w.record (.acknowledged object.permit.attempt)).put { object.permit with controllerAck := true }) :=
          hrecorded.put (List.mem_cons_of_mem _ (h.begun hstored)) (fun _ => ⟨[], w.trace, rfl, by simp⟩)
            fun _ hlive => (live_put hstored rfl rfl).symm.trans hlive
        exact hput.endCall index
      · obtain rfl := pure_ok.mp hs
        exact hretry
  | grant A =>
    cases base with
    | none => simp [writeCall] at hs
    | some object =>
      rw [writeCall] at hs
      split at hs
      · rename_i x hx
        split at hs
        · rename_i hunchanged
          obtain rfl := pure_ok.mp hs
          have hstored := unchanged_some h hmem hunchanged
          obtain ⟨rfl, hack, hreadAt⟩ := (h.calls hmem).checked
          have hstanding := h.standing hstored hack
          have hrecorded : GateSound (w.record (.granted object.permit.attempt readAt x)) :=
            h.record ⟨hreadAt hx, hstanding⟩ (.inl rfl) nofun nofun
          have hput : GateSound ((w.record (.granted object.permit.attempt readAt x)).put { object.permit with state := .granted }) :=
            hrecorded.put (List.mem_cons_of_mem _ (h.begun hstored)) (fun _ => hstanding.later rfl)
              fun _ hlive => (live_put hstored rfl rfl).symm.trans hlive
          exact hput.endCall index
        · obtain rfl := pure_ok.mp hs
          exact hretry
      · simp at hs
  | cancel A =>
    cases base with
    | none => simp [writeCall] at hs
    | some object =>
      rw [writeCall] at hs
      split at hs
      · obtain rfl := pure_ok.mp hs
        have hended : GateSound ({ w with stored := none }.record (.cancelled A)) :=
          h.drop.record trivial (.inr rfl) nofun nofun
        exact hended.endCall index
      · obtain rfl := pure_ok.mp hs
        exact hretry

theorem GateSound.step (h : GateSound w) {act : GateAct} (hs : w.step p act = .ok w') : GateSound w' := by
  cases act with
  | tick passed =>
    obtain rfl := pure_ok.mp hs
    -- time ends attempts and begins none
    have hlive : ∀ {A}, live { w with clock := w.clock + passed } = some A → w.live = some A := by
      intro A hlive
      obtain ⟨object, x, hobject, hx, hclock, hattempt⟩ := live_eq_some.mp hlive
      have hclock' : w.clock < x := lt_of_le_of_lt (Nat.le_add_right _ _) hclock
      exact live_eq_some.mpr ⟨object, x, hobject, hx, hclock', hattempt⟩
    exact { trace := h.trace, version := h.version, acks := h.acks, begun := h.begun, standing := h.standing, sync := h.sync
            known := h.known, shut := fun hmem hl => h.shut hmem (hlive hl), handles := h.handles
            calls := fun hmem => ⟨(h.calls hmem).version, (h.calls hmem).same, (h.calls hmem).checked⟩ }
  | setDriver driver =>
    obtain rfl := pure_ok.mp hs
    exact { trace := h.trace, version := h.version, acks := h.acks, begun := h.begun, standing := h.standing, sync := h.sync
            known := h.known, shut := h.shut, handles := h.handles
            calls := fun hmem => ⟨(h.calls hmem).version, (h.calls hmem).same, (h.calls hmem).checked⟩ }
  | restart =>
    obtain rfl := pure_ok.mp hs
    exact (h.record (e := .restarted) trivial (.inl rfl) nofun nofun).regate nofun (fun _ _ => ⟨nofun, nofun⟩) .restart
  | enter =>
    rw [GateWorld.step, seq_ok, seq_ok, require_ok, require_ok] at hs
    obtain ⟨hserving, hopen, hs⟩ := hs
    obtain rfl := pure_ok.mp hs
    have hgate : GateSound { w with gate := { w.gate with active := w.gate.active + 1, handles := w.gate.handles ++ [false] } } :=
      h.regate h.sync (fun hmem hlive => h.shut hmem hlive) h.handles.acquire
    refine hgate.record (e := .entered w.gate.handles.length w.live) ?_ (.inl rfl) nofun fun hentered => ?_
    · intro A hlive hmem
      exact hopen ((h.shut hmem hlive).1 hserving)
    · obtain ⟨rfl, -⟩ := GateEvent.entered.inj hentered
      simp
  | leave handle =>
    rw [GateWorld.step] at hs
    split at hs
    · simp at hs
    · obtain rfl := pure_ok.mp hs
      exact h
    · rename_i hget
      obtain rfl := pure_ok.mp hs
      have hleft := h.record (e := .left handle) trivial (.inl rfl) nofun nofun
      exact hleft.regate hleft.sync (fun hmem hlive => hleft.shut hmem hlive) (h.handles.release hget)
  | syncRead =>
    rw [GateWorld.step, seq_ok] at hs
    obtain ⟨state, hstate, hs⟩ := bind_ok.mp hs.2
    obtain rfl := pure_ok.mp hs
    obtain ⟨hfound, hgone⟩ := readState_ok hstate
    cases state with
    | none =>
      refine h.regate (fun hsync => by simp [PermitStore.quiescing] at hsync) (fun _ hlive => ?_) ⟨h.handles.active, h.handles.entered⟩
      obtain ⟨object, x, hobject, hx, hclock, -⟩ := live_eq_some.mp hlive
      exact absurd hclock (hgone rfl hobject hx)
    | some object =>
      have hquiescing : PermitStore.quiescing (some object) = (object.permit.attempt, true) := by
        cases hstate : object.permit.state <;> simp [PermitStore.quiescing, hstate]
      rw [hquiescing]
      refine h.regate (fun hsync => ?_) (fun hmem hlive => ⟨(h.shut hmem hlive).1, fun hsync => ?_⟩)
        ⟨h.handles.active, h.handles.entered⟩
      · obtain ⟨rfl, -⟩ := Prod.mk.inj (Option.some.inj hsync)
        exact h.begun (hfound rfl).1
      · obtain rfl := Option.some.inj hsync
        rfl
  | syncFlag =>
    rw [GateWorld.step] at hs
    split at hs
    · simp at hs
    rename_i attempt quiescing hsync
    have hgate : GateSound { w with gate := { w.gate with quiescing, serving := true, sync := none } } := by
      refine h.regate nofun (fun hmem hlive => ⟨fun _ => (h.shut hmem hlive).2 hsync, nofun⟩) ⟨h.handles.active, h.handles.entered⟩
    cases quiescing with
    | false =>
      obtain rfl := pure_ok.mp hs
      exact hgate
    | true =>
      have hflagged : GateSound ({ w with gate := { w.gate with quiescing := true, serving := true, sync := none } }.record
          (.flagged attempt)) := by
        refine hgate.record trivial (.inl rfl) (fun hflag => ?_) nofun
        obtain rfl := GateEvent.flagged.inj hflag
        exact ⟨h.sync hsync, fun _ => ⟨fun _ => rfl, nofun⟩⟩
      simp only [if_true] at hs
      split at hs
      · rename_i hidle
        obtain rfl := pure_ok.mp hs
        refine hflagged.start fun hcall => ?_
        obtain rfl := PermitCall.acknowledge.inj hcall
        exact ⟨[], w.trace, rfl, h.handles.allLeft hidle⟩
      · obtain rfl := pure_ok.mp hs
        exact hflagged
  | beginQuiesce attempt =>
    rw [GateWorld.step, seq_ok] at hs
    obtain ⟨driver, -, hs⟩ := bind_ok.mp hs.2
    obtain rfl := pure_ok.mp hs
    exact h.start fun hcall => by simp at hcall
  | grant attempt | cancel attempt =>
    obtain rfl := pure_ok.mp hs
    exact h.start fun hcall => by simp at hcall
  | read index =>
    rw [GateWorld.step] at hs
    split at hs
    · rename_i call hget
      exact readCall_sound h hget hs
    · simp at hs
  | write index =>
    rw [GateWorld.step] at hs
    split at hs
    · rename_i call base readAt hget
      exact writeCall_sound h hget hs
    · simp at hs
  | leaveCall index =>
    obtain rfl := pure_ok.mp hs
    exact h.endCall index

theorem GateWorld.Initial.sound (h : w.Initial) : GateSound w where
  trace := h.trace ▸ trivial
  version := by simp [h.stored]
  calls := by simp [h.calls]
  acks := by simp [h.calls]
  begun := by simp [h.stored]
  standing := by simp [h.stored]
  sync := by simp [h.gate, QuiesceGate.start]
  known := by simp [h.trace]
  shut := by simp [h.trace]
  handles := ⟨by simp [h.gate, QuiesceGate.start], by simp [h.trace]⟩

theorem GateRun.sound {past : List GateWorld} (hr : GateRun p (w :: past)) : GateSound w := by
  have hall : ∀ u ∈ w :: past, GateSound u := by
    refine Run.forall_mem (fun u hu => hu.sound) ?_ hr
    intro s t past act _ ih hs
    exact (ih s List.mem_cons_self).step (Run.onHead_cons.mp hs)
  exact hall w List.mem_cons_self

/-- An attempt is acknowledged only after the flag was set for it when every provisioning that had entered had left, and
    nothing enters from then on while the attempt is current; a grant needs the acknowledgement of an attempt that has neither expired nor ended. -/
theorem quiesce_gate {past : List GateWorld} (hr : GateRun p (w :: past)) :
    (∀ {later earlier A}, w.trace = later ++ .acknowledged A :: earlier →
      ∃ mid older, earlier = mid ++ .flagged A :: older ∧ AllLeft older ∧
        ∀ e ∈ later ++ .acknowledged A :: mid, ∀ handle, e ≠ .entered handle (some A)) ∧
    ∀ {later earlier A readAt expiresAt}, w.trace = later ++ .granted A readAt expiresAt :: earlier →
      readAt < expiresAt ∧ ∃ mid older, earlier = mid ++ .acknowledged A :: older ∧ ∀ e ∈ mid, e.replaces = false := by
  have hsound := GateRun.sound hr
  refine ⟨fun {later earlier A} hsplit => ?_, fun {later earlier A readAt expiresAt} hsplit => ?_⟩
  · obtain ⟨mid, older, rfl, hleft⟩ : FlaggedIdle A earlier := (hsplit ▸ hsound.trace).at
    refine ⟨mid, older, rfl, hleft, ?_⟩
    rintro e he handle rfl
    obtain ⟨newer, between, hbetween⟩ := List.append_of_mem he
    have htrace : w.trace = newer ++ .entered handle (some A) :: (between ++ .flagged A :: older) := by
      rw [hsplit, ← List.cons_append, ← List.append_assoc, hbetween, List.append_assoc, List.cons_append]
    exact (htrace ▸ hsound.trace).at A rfl (by simp)
  · exact (hsplit ▸ hsound.trace).at

def permitStore : PermitStore := { namespaceName := "shiftpv", name := "uninstall", csiDriver := "shiftpv.io" }

/-- An uninstall that is acknowledged after a provisioning has left, and then granted; `leave` is called twice. -/
def uninstallScript : List GateAct :=
  [.syncRead, .syncFlag, .enter, .beginQuiesce "one", .read 0, .write 0, .syncRead, .syncFlag, .leave 0, .leave 0, .syncRead,
    .syncFlag, .read 0, .write 0, .grant "one", .read 0, .write 0]

def uninstallHistory : List GateWorld :=
  Run.replay (fun w => w.step permitStore)
    { clock := 0, driver := some "driver", stored := none, revision := 0, gate := .start, calls := [], trace := [] } [] uninstallScript

def beforeAcknowledged : List GateEvent :=
  [.flagged "one", .left 0, .flagged "one", .begun "one", .entered 0 none]

theorem quiesce_gate_granted : ∃ w past, uninstallHistory = w :: past ∧
    w.trace = [.granted "one" 0 permitTTL] ++ .acknowledged "one" :: beforeAcknowledged ∧
    ∃ mid older, beforeAcknowledged = mid ++ .flagged "one" :: older ∧ AllLeft older ∧
      ∀ e ∈ [GateEvent.granted "one" 0 permitTTL] ++ .acknowledged "one" :: mid, ∀ handle, e ≠ .entered handle (some "one") := by
  have htrace : uninstallHistory.head?.map (·.trace) = some ([.granted "one" 0 permitTTL] ++ .acknowledged "one" :: beforeAcknowledged) := by
    decide +kernel
  cases hl : uninstallHistory with
  | nil => simp [hl] at htrace
  | cons w past =>
    have hr : GateRun permitStore (w :: past) := Run.replay_run (.start ⟨rfl, rfl, rfl, rfl⟩) hl
    have hw : w.trace = [.granted "one" 0 permitTTL] ++ .acknowledged "one" :: beforeAcknowledged := by simpa [hl] using htrace
    exact ⟨w, past, rfl, hw, (quiesce_gate hr).1 hw⟩

end ShiftPV
