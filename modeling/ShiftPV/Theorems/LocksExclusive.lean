import ShiftPV.KeyedLocks

/-! The keyed locks exclude each other and leak nothing. Every line of `Lock`, `TryLock`, the functions they return and
    `release` is one of the steps of a keyed lock, so the invariant of those steps holds along every interleaving. -/

namespace ShiftPV
open Check KeyedLock

theorem callOf_ok {μ : Type} {s : State String μ} {caller : Nat} {call : Call String μ} :
    callOf s caller = .ok call ↔ s.calls.find caller = some call := by
  unfold callOf
  split <;> simp_all

/-! ### Steps -/

theorem Locker.next_step {l l' : Locker} {act : LockerAct} (hnext : l.next act = .ok l') : Step act.caller l l' := by
  cases act with
  | lock caller pool | tryLock caller pool =>
    obtain ⟨hnew, hl⟩ := seq_ok.mp hnext
    obtain rfl := pure_ok.mp hl
    exact .reference (require_ok.mp hnew)
  | locked caller =>
    obtain ⟨call, hcall, hrest⟩ := bind_ok.mp hnext
    obtain ⟨hfree, hl⟩ := seq_ok.mp hrest
    obtain ⟨hwaits, hfree⟩ := require_ok.mp hfree
    obtain rfl := pure_ok.mp hl
    exact .acquire (callOf_ok.mp hcall) (by rw [hwaits]; rfl) hfree rfl
  | busy caller =>
    obtain ⟨call, hcall, hrest⟩ := bind_ok.mp hnext
    obtain ⟨hbusy, hl⟩ := seq_ok.mp hrest
    obtain ⟨hwaits, -⟩ := require_ok.mp hbusy
    obtain rfl := pure_ok.mp hl
    exact .move (callOf_ok.mp hcall) (by rw [hwaits]; rfl)
  | unlock caller =>
    obtain ⟨call, hcall, hrest⟩ := bind_ok.mp hnext
    obtain ⟨hholds, hl⟩ := seq_ok.mp hrest
    obtain rfl := pure_ok.mp hl
    exact .giveBack (callOf_ok.mp hcall) (by rw [require_ok.mp hholds]; rfl) rfl
  | release caller =>
    obtain ⟨call, hcall, hrest⟩ := bind_ok.mp hnext
    obtain ⟨hover, hl⟩ := seq_ok.mp hrest
    obtain rfl := pure_ok.mp hl
    refine .release (callOf_ok.mp hcall) ?_
    rcases require_ok.mp hover with hstage | hstage <;> rw [hstage] <;> rfl

theorem EffectGate.next_step {g g' : EffectGate} {act : EffectGateAct} (hnext : g.next act = .ok g') : Step act.caller g g' := by
  cases act with
  | lock caller key cancelled =>
    obtain ⟨hnew, hg⟩ := seq_ok.mp hnext
    obtain rfl := pure_ok.mp hg
    exact .reference (require_ok.mp hnew)
  | cancel caller =>
    obtain ⟨call, hcall, hg⟩ := bind_ok.mp hnext
    obtain rfl := pure_ok.mp hg
    exact .move (callOf_ok.mp hcall) rfl
  | sent caller =>
    obtain ⟨call, hcall, hrest⟩ := bind_ok.mp hnext
    obtain ⟨hfree, hg⟩ := seq_ok.mp hrest
    obtain ⟨hwaits, hfree⟩ := require_ok.mp hfree
    obtain rfl := pure_ok.mp hg
    exact .acquire (callOf_ok.mp hcall) (by rw [hwaits]; rfl) hfree rfl
  | done caller | admitted caller =>
    obtain ⟨call, hcall, hrest⟩ := bind_ok.mp hnext
    obtain ⟨hallowed, hg⟩ := seq_ok.mp hrest
    obtain ⟨hstage, -⟩ := require_ok.mp hallowed
    obtain rfl := pure_ok.mp hg
    exact .move (callOf_ok.mp hcall) (by rw [hstage]; rfl)
  | withdrawn caller =>
    obtain ⟨call, hcall, hrest⟩ := bind_ok.mp hnext
    obtain ⟨hended, hg⟩ := seq_ok.mp hrest
    obtain ⟨hgranted, -⟩ := require_ok.mp hended
    obtain rfl := pure_ok.mp hg
    exact .giveBack (callOf_ok.mp hcall) (by rw [hgranted]; rfl) rfl
  | unlock caller =>
    obtain ⟨call, hcall, hrest⟩ := bind_ok.mp hnext
    obtain ⟨hholds, hg⟩ := seq_ok.mp hrest
    obtain rfl := pure_ok.mp hg
    exact .giveBack (callOf_ok.mp hcall) (by rw [require_ok.mp hholds]; rfl) rfl
  | release caller =>
    obtain ⟨call, hcall, hrest⟩ := bind_ok.mp hnext
    obtain ⟨hover, hg⟩ := seq_ok.mp hrest
    obtain rfl := pure_ok.mp hg
    refine .release (callOf_ok.mp hcall) ?_
    rcases require_ok.mp hover with hstage | hstage <;> rw [hstage] <;> rfl

/-! ### Runs -/

theorem sound_of_steps {μ α : Type} (next : State String μ → α → Except String (State String μ)) {caller : α → Nat}
    (hnext : ∀ {s t act}, next s act = .ok t → Step (caller act) s t) {s : State String μ} {past : List (State String μ)}
    (hrun : Run (fun s => s = .empty _ _) (Run.onHead fun s act t => next s act = .ok t) (s :: past)) : Sound s := by
  refine hrun.forall_mem (I := Sound) ?_ (fun {s t past act} _ hall hstep => ?_) s List.mem_cons_self
  · rintro _ rfl
    exact Sound.empty
  · exact (hall s List.mem_cons_self).step (hnext (Run.onHead_cons.mp hstep))

def Failing {μ : Type} (s : State String μ) (caller : Nat) (key : String) : Prop :=
  ∃ call, s.calls.find caller = some call ∧ call.key = key ∧ call.stage = .refused

/-- The end of a call that leaves no lock changed, no call of its own and no entry that only it used. -/
structure LeavesNothing {μ : Type} (caller : Nat) (key : String) (s t : State String μ) : Prop where
  call : t.calls.find caller = none
  locks : ∀ e, (t.heap e).locked = (s.heap e).locked
  entry : (∀ c ∈ t.calls.rows, c.key ≠ key) → t.entries key = none

theorem release_leavesNothing {μ : Type} {s : State String μ} {caller : Nat} {key : String} {call : Call String μ}
    (hsound : Sound s) (hcall : s.calls.find caller = some call) (hstage : call.stage.owns = false)
    (hfailing : Failing s caller key) : LeavesNothing caller key s (s.release call) := by
  obtain ⟨call', hcall', rfl, -⟩ := hfailing
  obtain rfl : call' = call := Option.some.inj (hcall'.symm.trans hcall)
  have hid : call'.id = caller := Table.key_of_find hcall
  refine ⟨?_, fun e => ?_, fun hnone => ?_⟩
  · rw [← hid]
    exact Table.find_erase_self
  · simp only [State.release]
    by_cases he : e = call'.entry
    · rw [he, Function.update_self]
    · rw [Function.update_of_ne he]
  · have hafter := (hsound.step (.release hcall hstage)).fair
    rw [hafter.removed, holders_add_waiters]
    by_contra hpos
    obtain ⟨c, hc, hkey⟩ := users_pos.mp (Nat.pos_of_ne_zero hpos)
    exact hnone c hc hkey

/-- Whatever the callers do and however their steps interleave, both locks are fair in every state, a step of one caller
    leaves the others as they are, and a call that failed leaves nothing behind. -/
theorem keyedLocks_exclusive :
    (∀ (l : Locker) (past : List Locker), LockerRun (l :: past) → Fair l ∧
      ∀ act l', l.next act = .ok l' → Frame act.caller l l' ∧
        ∀ key, act = .release act.caller → Failing l act.caller key → LeavesNothing act.caller key l l') ∧
    ∀ (g : EffectGate) (past : List EffectGate), EffectGateRun (g :: past) → Fair g ∧
      ∀ act g', g.next act = .ok g' → Frame act.caller g g' ∧
        ∀ key, act = .release act.caller → Failing g act.caller key → LeavesNothing act.caller key g g' := by
  constructor
  · intro l past hrun
    have hsound := sound_of_steps Locker.next Locker.next_step hrun
    refine ⟨hsound.fair, fun act l' hnext => ⟨(Locker.next_step hnext).frame hsound, fun key hact hfailing => ?_⟩⟩
    rw [hact] at hnext
    obtain ⟨call, hcall, hrest⟩ := bind_ok.mp hnext
    obtain ⟨hover, hl⟩ := seq_ok.mp hrest
    obtain rfl := pure_ok.mp hl
    refine release_leavesNothing hsound (callOf_ok.mp hcall) ?_ hfailing
    rcases require_ok.mp hover with hstage | hstage <;> rw [hstage] <;> rfl
  · intro g past hrun
    have hsound := sound_of_steps EffectGate.next EffectGate.next_step hrun
    refine ⟨hsound.fair, fun act g' hnext => ⟨(EffectGate.next_step hnext).frame hsound, fun key hact hfailing => ?_⟩⟩
    rw [hact] at hnext
    obtain ⟨call, hcall, hrest⟩ := bind_ok.mp hnext
    obtain ⟨hover, hg⟩ := seq_ok.mp hrest
    obtain rfl := pure_ok.mp hg
    refine release_leavesNothing hsound (callOf_ok.mp hcall) ?_ hfailing
    rcases require_ok.mp hover with hstage | hstage <;> rw [hstage] <;> rfl

/-- A holder unlocks while a failed attempt and a new call refer to the entry; the entry outlives both releases. -/
def lockerScript : List LockerAct :=
  [.lock 0 "pool", .locked 0, .tryLock 1 "pool", .busy 1, .unlock 0, .lock 2 "pool", .release 0, .locked 2, .release 1]

/-- A call sends its token after its context has ended, and another one waits. -/
def gateScript : List EffectGateAct :=
  [.lock 0 "volume" false, .lock 1 "volume" false, .cancel 0, .sent 0, .withdrawn 0, .sent 1, .admitted 1, .release 0]

theorem keyedLocks_exclusive_race :
    (∃ l past, Run.replay Locker.next (.empty _ _) [] lockerScript = l :: past ∧ l.entries "pool" = some 0 ∧
      (l.heap 0).refs = l.holders "pool" + l.waiters "pool") ∧
    ∃ g past, Run.replay EffectGate.next (.empty _ _) [] gateScript = g :: past ∧ g.entries "volume" = some 0 ∧
      (g.heap 0).refs = g.holders "volume" + g.waiters "volume" := by
  constructor
  · have hentry : (Run.replay Locker.next (.empty _ _) [] lockerScript).head?.map (·.entries "pool") = some (some 0) := by
      decide +kernel
    cases hl : Run.replay Locker.next (.empty _ _) [] lockerScript with
    | nil => simp [hl] at hentry
    | cons l past =>
      have hfind : l.entries "pool" = some 0 := by simpa [hl] using hentry
      have hrun : LockerRun (l :: past) := Run.replay_run (.start rfl) hl
      exact ⟨l, past, rfl, hfind, (keyedLocks_exclusive.1 l past hrun).1.counted "pool" 0 hfind⟩
  · have hentry : (Run.replay EffectGate.next (.empty _ _) [] gateScript).head?.map (·.entries "volume") = some (some 0) := by
      decide +kernel
    cases hg : Run.replay EffectGate.next (.empty _ _) [] gateScript with
    | nil => simp [hg] at hentry
    | cons g past =>
      have hfind : g.entries "volume" = some 0 := by simpa [hg] using hentry
      have hrun : EffectGateRun (g :: past) := Run.replay_run (.start rfl) hg
      exact ⟨g, past, rfl, hfind, (keyedLocks_exclusive.2 g past hrun).1.counted "volume" 0 hfind⟩

end ShiftPV
