import ShiftPV.Lib.Check
import ShiftPV.Lib.KeyedLock
import ShiftPV.Lib.Run

/-! The two keyed locks of the program. `Locker` serializes the work of a Pool or of a Volume with a mutex for each key;
    `effectGate` does so on the node with a channel of one token, and lets a call whose context ends leave. Both guard their
    entries by a mutex of their own, which is never held across the lock of an entry, so a call is a sequence of steps. -/

namespace ShiftPV
open Check KeyedLock

inductive LockCall where
  | lock | tryLock
  deriving DecidableEq

abbrev Locker := State String LockCall

inductive LockerAct where
  | lock (caller : Nat) (pool : String)
  | tryLock (caller : Nat) (pool : String)
  /-- `entry.mu.Lock` returns, or `entry.mu.TryLock` returns true. -/
  | locked (caller : Nat)
  /-- `entry.mu.TryLock` returns false. -/
  | busy (caller : Nat)
  /-- `entry.mu.Unlock` of the function that the caller was given. -/
  | unlock (caller : Nat)
  | release (caller : Nat)

def LockerAct.caller : LockerAct → Nat
  | .lock caller _ | .tryLock caller _ | .locked caller | .busy caller | .unlock caller | .release caller => caller

def callOf {μ : Type} (s : State String μ) (caller : Nat) : Except String (Call String μ) :=
  match s.calls.find caller with
  | some call => .ok call
  | none => .error "the caller has no call"

def Locker.next (l : Locker) : LockerAct → Except String Locker
  | .lock caller pool => do
    require (l.calls.find caller = none) "the caller is in a call"
    return l.reference caller pool .lock
  | .tryLock caller pool => do
    require (l.calls.find caller = none) "the caller is in a call"
    return l.reference caller pool .tryLock
  | .locked caller => do
    let call ← callOf l caller
    require (call.stage = .waiting ∧ (l.heap call.entry).locked = false) "the entry is locked"
    return (l.setLocked call.entry true).put { call with stage := .holding }
  | .busy caller => do
    let call ← callOf l caller
    require (call.stage = .waiting ∧ call.mode = .tryLock) "the call waits for the entry"
    return l.put { call with stage := .refused }
  | .unlock caller => do
    let call ← callOf l caller
    require (call.stage = .holding) "the caller does not hold the entry"
    return (l.setLocked call.entry false).put { call with stage := .unlocked }
  | .release caller => do
    let call ← callOf l caller
    require (call.stage = .refused ∨ call.stage = .unlocked) "the call is not over"
    return l.release call

def LockerRun (history : List Locker) : Prop :=
  Run (fun l : Locker => l = .empty _ _) (Run.onHead fun (l : Locker) act l' => l.next act = .ok l') history

/-- The gate of the node's effects; a call knows whether its context has ended. -/
abbrev EffectGate := State String Bool

inductive EffectGateAct where
  | lock (caller : Nat) (key : String) (cancelled : Bool)
  | cancel (caller : Nat)
  /-- The token is sent into the channel of the entry. -/
  | sent (caller : Nat)
  /-- `ctx.Done` is chosen instead. -/
  | done (caller : Nat)
  /-- `ctx.Err` is nil after the token was sent. -/
  | admitted (caller : Nat)
  /-- `ctx.Err` is not nil: the token is received back. -/
  | withdrawn (caller : Nat)
  /-- The function that the caller was given receives the token back. -/
  | unlock (caller : Nat)
  | release (caller : Nat)

def EffectGateAct.caller : EffectGateAct → Nat
  | .lock caller _ _ | .cancel caller | .sent caller | .done caller | .admitted caller | .withdrawn caller | .unlock caller
  | .release caller => caller

def EffectGate.next (g : EffectGate) : EffectGateAct → Except String EffectGate
  | .lock caller key cancelled => do
    require (g.calls.find caller = none) "the caller is in a call"
    return g.reference caller key cancelled
  | .cancel caller => do
    let call ← callOf g caller
    return g.put { call with mode := true }
  | .sent caller => do
    let call ← callOf g caller
    require (call.stage = .waiting ∧ (g.heap call.entry).locked = false) "the channel is full"
    return (g.setLocked call.entry true).put { call with stage := .granted }
  | .done caller => do
    let call ← callOf g caller
    require (call.stage = .waiting ∧ call.mode = true) "the context has not ended"
    return g.put { call with stage := .refused }
  | .admitted caller => do
    let call ← callOf g caller
    require (call.stage = .granted ∧ call.mode = false) "the context has ended"
    return g.put { call with stage := .holding }
  | .withdrawn caller => do
    let call ← callOf g caller
    require (call.stage = .granted ∧ call.mode = true) "the context has not ended"
    return (g.setLocked call.entry false).put { call with stage := .refused }
  | .unlock caller => do
    let call ← callOf g caller
    require (call.stage = .holding) "the caller does not hold the entry"
    return (g.setLocked call.entry false).put { call with stage := .unlocked }
  | .release caller => do
    let call ← callOf g caller
    require (call.stage = .refused ∨ call.stage = .unlocked) "the call is not over"
    return g.release call

def EffectGateRun (history : List EffectGate) : Prop :=
  Run (fun g : EffectGate => g = .empty _ _) (Run.onHead fun (g : EffectGate) act g' => g.next act = .ok g') history

end ShiftPV
