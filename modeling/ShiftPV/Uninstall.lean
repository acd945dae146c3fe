import ShiftPV.Identity
import ShiftPV.Lib.Run

/-! The uninstall gate. An uninstall first asks the controller to stop new provisioning, by a permit object that it writes;
    the controller notices it in a sync, closes its gate, and acknowledges the attempt once nothing is being provisioned. -/

namespace ShiftPV
open Check

/-! ### Permits -/

inductive PermitState where
  | quiescing | granted
  deriving DecidableEq

structure Permit where
  isManaged : Bool
  ownerUID : String
  state : PermitState
  attempt : String
  expiresAt : Timestamp
  controllerAck : Bool
  deriving DecidableEq

structure PermitObject where
  version : Nat
  permit : Permit
  deriving DecidableEq

def permitTTL : Nat := 300000000000

structure PermitStore where
  namespaceName : String
  name : String
  csiDriver : String

namespace PermitStore

variable (p : PermitStore)

def validate : Except String Unit :=
  require (p.namespaceName ≠ "" ∧ p.name ≠ "" ∧ p.csiDriver ≠ "") "uninstall permit store is not configured"

def path : String := p.namespaceName ++ "/" ++ p.name

def currentDriver (driver : Option String) : Except String String :=
  match driver with
  | some uid => return uid
  | none => throw "read uninstall state owner CSIDriver"

/-- The permit as its users see it: an expired one is gone. -/
def readState (now : Nat) (driver : Option String) (stored : Option PermitObject) : Except String (Option PermitObject) := do
  p.validate
  match stored with
  | none => return none
  | some object =>
    require object.permit.isManaged ("uninstall state " ++ p.path ++ " is unmanaged")
    match object.permit.expiresAt with
    | .at expiresAt =>
      if ¬now < expiresAt then
        return none
      else
        let uid ← currentDriver driver
        require (object.permit.ownerUID = uid) ("uninstall state " ++ p.path ++ " has the wrong CSIDriver owner")
        return some object
    | _ => throw ("uninstall state " ++ p.path ++ " has invalid expiry")

/-- The current attempt, and whether it asks the controller to stop. -/
def quiescing : Option PermitObject → String × Bool
  | none => ("", false)
  | some object => (object.permit.attempt, object.permit.state = .quiescing || object.permit.state = .granted)

def desired (now : Nat) (driver : String) (attempt : String) : Permit :=
  { isManaged := true, ownerUID := driver, state := .quiescing, attempt, expiresAt := .at (now + permitTTL), controllerAck := false }

def acknowledgeable (attempt : String) (state : Option PermitObject) : Option PermitObject :=
  state.filter fun object => object.permit.state = .quiescing && object.permit.attempt = attempt && !object.permit.controllerAck

def grantable (attempt : String) (state : Option PermitObject) : Except String PermitObject :=
  match state with
  | none => throw ("controller has not acknowledged uninstall quiesce attempt " ++ quoted attempt)
  | some object => do
    require (object.permit.state = .quiescing ∧ object.permit.attempt = attempt ∧ object.permit.controllerAck)
      ("controller has not acknowledged uninstall quiesce attempt " ++ quoted attempt)
    return object

def cancellable (attempt : String) (state : Option PermitObject) : Option PermitObject :=
  state.filter fun object => object.permit.attempt = attempt

end PermitStore

/-! ### The system -/

structure QuiesceGate where
  quiescing : Bool
  active : Nat
  /-- For each `leave` that was handed out, whether it has run; it runs once. -/
  handles : List Bool
  serving : Bool
  sync : Option (String × Bool)

def QuiesceGate.start : QuiesceGate := { quiescing := false, active := 0, handles := [], serving := false, sync := none }

/-- The calls that write the permit, each by a read and a write that fails when the object has changed since. -/
inductive PermitCall where
  /-- With the moment and the CSIDriver for which the new permit is made out. -/
  | beginQuiesce (now : Nat) (driver attempt : String)
  | acknowledge (attempt : String)
  | grant (attempt : String)
  | cancel (attempt : String)

/-- A call before its read, or after it with what it read and when. -/
inductive CallStage where
  | reading
  | writing (base : Option PermitObject) (readAt : Nat)

inductive GateEvent where
  | begun (attempt : String)
  | cancelled (attempt : String)
  | flagged (attempt : String)
  /-- A provisioning entered; `live` is the attempt that was current and unexpired then. -/
  | entered (handle : Nat) (live : Option String)
  | left (handle : Nat)
  /-- A new process took over, and nothing of the old one goes on. -/
  | restarted
  | acknowledged (attempt : String)
  | granted (attempt : String) (readAt expiresAt : Nat)
  deriving DecidableEq

/-- The events that end the attempt before them. -/
def GateEvent.replaces : GateEvent → Bool
  | .begun _ | .cancelled _ => true
  | _ => false

structure GateWorld where
  clock : Nat
  driver : Option String
  stored : Option PermitObject
  revision : Nat
  gate : QuiesceGate
  calls : List (PermitCall × CallStage)
  trace : List GateEvent

inductive GateAct where
  | tick (passed : Nat)
  | setDriver (driver : Option String)
  | restart
  | enter
  | leave (handle : Nat)
  | syncRead
  | syncFlag
  /-- `attempt` is drawn at random. -/
  | beginQuiesce (attempt : String)
  | grant (attempt : String)
  | cancel (attempt : String)
  /-- The read, the write or the end of a call. -/
  | read (index : Nat)
  | write (index : Nat)
  | leaveCall (index : Nat)

namespace GateWorld

variable (w : GateWorld)

def live : Option String :=
  w.stored.bind fun object => match object.permit.expiresAt with
    | .at expiresAt => if w.clock < expiresAt then some object.permit.attempt else none
    | _ => none

def record (event : GateEvent) : GateWorld := { w with trace := event :: w.trace }

def start (call : PermitCall) : GateWorld := { w with calls := (call, .reading) :: w.calls }

def setCall (index : Nat) (call : PermitCall) (stage : CallStage) : GateWorld :=
  { w with calls := w.calls.set index (call, stage) }

def endCall (index : Nat) : GateWorld := { w with calls := w.calls.eraseIdx index }

def put (permit : Permit) : GateWorld :=
  { w with stored := some { version := w.revision + 1, permit }, revision := w.revision + 1 }

def unchanged (base : Option PermitObject) : Bool := w.stored.map (·.version) = base.map (·.version)

/-- The read of a call, which ends when there is nothing to write. -/
def readCall (p : PermitStore) (index : Nat) : PermitCall → Except String GateWorld
  | .beginQuiesce now driver attempt => do
    match w.stored with
    | none => return w.setCall index (.beginQuiesce now driver attempt) (.writing none w.clock)
    | some existing =>
      require (existing.permit.isManaged ∧ existing.permit.ownerUID = driver)
        ("refuse to replace unmanaged uninstall state " ++ p.path)
      return w.setCall index (.beginQuiesce now driver attempt) (.writing (some existing) w.clock)
  | .acknowledge attempt => do
    require (attempt ≠ "") "uninstall attempt is required"
    match PermitStore.acknowledgeable attempt (← p.readState w.clock w.driver w.stored) with
    | none => return w.endCall index
    | some object => return w.setCall index (.acknowledge attempt) (.writing (some object) w.clock)
  | .grant attempt => do
    require (attempt ≠ "") "uninstall attempt is required"
    let object ← PermitStore.grantable attempt (← p.readState w.clock w.driver w.stored)
    return w.setCall index (.grant attempt) (.writing (some object) w.clock)
  | .cancel attempt => do
    match PermitStore.cancellable attempt (← p.readState w.clock w.driver w.stored) with
    | none => return w.endCall index
    | some object => return w.setCall index (.cancel attempt) (.writing (some object) w.clock)

/-- The write of a call. When the object has changed, all but `BeginQuiesce` read again. -/
def writeCall (index : Nat) (base : Option PermitObject) (readAt : Nat) : PermitCall → Except String GateWorld
  | .beginQuiesce now driver attempt => do
    -- sixteen random bytes name no earlier attempt
    require (.begun attempt ∉ w.trace) "attempts are unique"
    if w.unchanged base then
      return ((w.put (PermitStore.desired now driver attempt)).endCall index).record (.begun attempt)
    else
      return w.endCall index
  | .acknowledge attempt =>
    match base with
    | none => throw "nothing was read"
    | some object =>
      if w.unchanged (some object) then
        return ((w.put { object.permit with controllerAck := true }).endCall index).record (.acknowledged attempt)
      else
        return w.setCall index (.acknowledge attempt) .reading
  | .grant attempt =>
    match base with
    | none => throw "nothing was read"
    | some object =>
      match object.permit.expiresAt with
      | .at expiresAt =>
        if w.unchanged (some object) then
          return ((w.put { object.permit with state := .granted }).endCall index).record (.granted attempt readAt expiresAt)
        else
          return w.setCall index (.grant attempt) .reading
      | _ => throw "nothing was read"
  | .cancel attempt =>
    match base with
    | none => throw "nothing was read"
    | some object =>
      if w.unchanged (some object) then
        return ({ w with stored := none }.endCall index).record (.cancelled attempt)
      else
        return w.setCall index (.cancel attempt) .reading

def step (p : PermitStore) : GateAct → Except String GateWorld
  | .tick passed => return { w with clock := w.clock + passed }
  | .setDriver driver => return { w with driver }
  | .restart => return { w with gate := .start }.record .restarted
  | .enter => do
    require w.gate.serving "the controller is not serving"
    require (¬w.gate.quiescing) "ShiftPV uninstall is quiescing new volume provisioning"
    return { w with gate := { w.gate with active := w.gate.active + 1, handles := w.gate.handles ++ [false] } }.record
      (.entered w.gate.handles.length w.live)
  | .leave handle =>
    match w.gate.handles[handle]? with
    | none => throw "no such provisioning"
    | some true => return w
    | some false =>
      return { w with gate := { w.gate with active := w.gate.active - 1, handles := w.gate.handles.set handle true } }.record
        (.left handle)
  | .syncRead => do
    -- syncs of one process follow one another
    require (w.gate.sync = none) "a sync is running"
    let state ← p.readState w.clock w.driver w.stored
    return { w with gate := { w.gate with sync := some (PermitStore.quiescing state) } }
  | .syncFlag =>
    match w.gate.sync with
    | none => throw "no sync is running"
    | some (attempt, quiescing) =>
      let next := { w with gate := { w.gate with quiescing, serving := true, sync := none } }
      if quiescing then
        if w.gate.active = 0 then
          return (next.start (.acknowledge attempt)).record (.flagged attempt)
        else
          return next.record (.flagged attempt)
      else
        return next
  | .beginQuiesce attempt => do
    p.validate
    let driver ← PermitStore.currentDriver w.driver
    return w.start (.beginQuiesce w.clock driver attempt)
  | .grant attempt => return w.start (.grant attempt)
  | .cancel attempt => return w.start (.cancel attempt)
  | .read index =>
    match w.calls[index]? with
    | some (call, .reading) => w.readCall p index call
    | _ => throw "no such call"
  | .write index =>
    match w.calls[index]? with
    | some (call, .writing base readAt) => w.writeCall index base readAt call
    | _ => throw "no such call"
  | .leaveCall index => return w.endCall index

structure Initial : Prop where
  stored : w.stored = none
  gate : w.gate = .start
  calls : w.calls = []
  trace : w.trace = []

end GateWorld

abbrev GateRun (p : PermitStore) : List GateWorld → Prop :=
  Run GateWorld.Initial (Run.onHead fun w (act : GateAct) w' => w.step p act = .ok w')

end ShiftPV
