import Fiberd.Lib.Programs

/-!
The tcp ports of one home, after `allocPort`, `freePort` and `freePorts` of
`pkg/runtime/host/host_linux.go` and the calls that use them: the births and the
resumes, `Park`, `Release`, `finish`, and `DiscardDelta` of `mobility_linux.go`.  An
action is one section of `r.mu`, one access to a delta on disk or a step that may fail.
-/

namespace Fiberd

open Tables Programs

/-- `Policy.Ports`, as `Policy.Validate` accepts it. -/
structure PortRange where
  lo : Nat
  hi : Nat
  positive : 0 < lo

/-- Where a delta is kept: under the fence of the fiber parked here, or where a claim pulled it. -/
inductive DeltaPlace where
  | own (fence : String)
  | claimed (name : String)
  deriving DecidableEq, Repr

structure PortManifest where
  fence : String
  port : Nat
  relay : Bool
  deriving DecidableEq, Repr

structure StoredDelta where
  manifest : PortManifest
  /-- `manifest.json` was written. -/
  readable : Bool := true
  present : Bool := true
  /-- The delta was parked here and neither resumed nor discarded since, and the fence of the
  resume that has given its port up.  Both are marks of the model. -/
  here : Bool := false
  moving : Option String := none
  deriving DecidableEq, Repr

structure PortFiber where
  port : Nat
  /-- `r.fibers` has it. -/
  known : Bool := true
  released : Bool := false
  parked : Bool := false
  ready : Bool := false
  /-- The Park in progress, and a Release with discard that found the fiber or its delta.  Both
  are marks of the model. -/
  parking : Option Nat := none
  discarded : Bool := false
  deriving DecidableEq, Repr

/-- A port a call has in hand for a fence: before its fiber is registered, or after it ended. -/
structure PortHand where
  fence : String
  port : Nat
  ending : Bool
  deriving DecidableEq, Repr

structure PortHost where
  ports : Table Nat String := ∅
  fibers : Table String PortFiber := ∅
  deltas : Table DeltaPlace StoredDelta := ∅
  /-- The Clone each fence was minted for, the port each call has in hand and the fiber each Park
  has: marks of the model. -/
  minted : Table String Nat := ∅
  hands : Table Nat PortHand := ∅
  parks : Table Nat String := ∅

inductive PortAnswer where
  | done
  /-- A Park that keeps its delta without a manifest. -/
  | bare
  | failed
  deriving DecidableEq, Repr

inductive PortAct where
  | mint (fence : String)
  /-- A step of a birth or a resume that touches no port and may fail. -/
  | attempt (fence : String)
  | readManifest (place : DeltaPlace)
  | allocPort (fence : String) (want : Nat)
  | isLive (fence : String) (place : DeltaPlace)
  /-- `freePort` of the port the parked fiber kept. -/
  | takeOver (manifest : PortManifest) (fence : String) (place : DeltaPlace)
  | freePort (port : Nat) (fence : String)
  | register (fence : String) (port : Nat)
  | unregister (fence : String)
  | serve (fence : String) (source : Option DeltaPlace)
  | beginPark (fence : String)
  | dump (fence : String)
  | unpark (fence : String)
  | beginRelease (fence : String) (discard : Bool)
  | removeOwn (fence : String)
  | freePorts (fence : String) (place : DeltaPlace)
  | removeDelta (place : DeltaPlace)
  | takeEnd (fence : String)
  | pull (name : String) (manifest : PortManifest)

abbrev PortAct.Result : PortAct → Type
  | .attempt _ | .isLive _ _ | .beginPark _ | .dump _ | .beginRelease _ _ => Bool
  | .readManifest _ => Option PortManifest
  | .allocPort _ _ => Option Nat
  | .takeEnd _ => Option (Bool × Nat)
  | _ => Unit

namespace PortHost

def freePort (host : PortHost) (port : Nat) (fence : String) : PortHost :=
  { host with
    ports := if port ≠ 0 ∧ host.ports.get port = some fence then host.ports.drop port
      else host.ports }

def freePorts (host : PortHost) (fence : String) : PortHost :=
  { host with ports := host.ports.keep fun holder => holder ≠ fence }

/-- The first port of the range nobody holds. -/
def freeInRange (host : PortHost) (range : PortRange) : Option Nat :=
  ((List.range (range.hi + 1 - range.lo)).map fun offset => range.lo + offset).find? fun port =>
    (host.ports.get port).isNone

def allocPort (host : PortHost) (range : PortRange) (fence : String) (want : Nat) : Option Nat :=
  if want ≠ 0 then
    match host.ports.get want with
    | some holder => if holder ≠ fence then none else some want
    | none => some want
  else host.freeInRange range

/-- A resume that fails no longer moves the port of its delta. -/
def stopMoving (host : PortHost) (fence : String) : PortHost :=
  { host with
    deltas := host.deltas.map fun delta =>
      if delta.moving = some fence then { delta with moving := none } else delta }

def leave (host : PortHost) (place : DeltaPlace) : PortHost :=
  { host with deltas := host.deltas.edit place fun delta => { delta with here := false } }

def served (host : PortHost) : Option DeltaPlace → Table DeltaPlace StoredDelta
  | some place => (host.leave place).deltas
  | none => host.deltas

def knows (host : PortHost) (fence : String) : Bool :=
  (host.fibers.get fence).any fun fiber => fiber.known

def perform (range : PortRange) (relay : Bool) (host : PortHost) (thread : Nat)
    (action : PortAct) (choice : PortAnswer) : Option (action.Result × PortHost) :=
  match action with
  | .mint fence =>
    if (host.minted.get fence).isSome then none
    else some ((), { host with minted := host.minted.put fence thread })
  | .attempt fence =>
    if choice = .failed then some (false, host.stopMoving fence) else some (true, host)
  | .readManifest place =>
    match host.deltas.get place with
    | some delta => some (if delta.present && delta.readable then some delta.manifest else none,
        host)
    | none => some (none, host)
  | .allocPort fence want =>
    match host.allocPort range fence want with
    | some port => some (some port, { host with
        ports := host.ports.put port fence
        hands := host.hands.put thread ⟨fence, port, false⟩ })
    | none => some (none, host)
  | .isLive fence _ => some (host.knows fence, host)
  | .takeOver manifest fence place =>
    if host.ports.get manifest.port = some manifest.fence then
      some ((), { host.freePort manifest.port manifest.fence with
        deltas := host.deltas.edit place fun delta => { delta with moving := some fence } })
    else some ((), host)
  | .freePort port fence =>
    some ((), { host.freePort port fence with hands := host.hands.drop thread })
  | .register fence port => some ((), { host with
      fibers := host.fibers.put fence { port := port }
      hands := host.hands.drop thread })
  | .unregister fence =>
    match host.fibers.get fence with
    | some fiber => some ((), { host with
        fibers := host.fibers.put fence { fiber with known := false }
        hands := host.hands.put thread ⟨fence, fiber.port, true⟩ })
    | none => some ((), host)
  | .serve fence source => some ((), { host with
      fibers := host.fibers.edit fence fun fiber => { fiber with ready := true }
      deltas := host.served source })
  | .beginPark fence =>
    if host.knows fence then
      some (true, { host with
        fibers := host.fibers.edit fence fun fiber =>
          { fiber with released := true, parked := true, parking := some thread }
        parks := host.parks.put thread fence })
    else some (false, host)
  | .dump fence =>
    match host.fibers.get fence with
    | some fiber =>
      if choice = .failed then some (false, host)
      else some (true, { host with
        fibers := host.fibers.put fence { fiber with parking := none }
        parks := host.parks.drop thread
        deltas := host.deltas.put (.own fence)
          { manifest := ⟨fence, fiber.port, relay⟩
            readable := choice = .done
            here := !fiber.discarded } })
    | none => none
  | .unpark fence => some ((), { host with
      fibers := host.fibers.edit fence fun fiber =>
        { fiber with released := false, parked := false, parking := none }
      parks := host.parks.drop thread })
  | .beginRelease fence discard =>
    if host.knows fence then
      some (true, { host with
        fibers := host.fibers.edit fence fun fiber =>
          { fiber with
            released := true
            parked := fiber.parked && !discard
            discarded := fiber.discarded || discard }
        deltas := if discard then (host.leave (.own fence)).deltas else host.deltas })
    else some (false, host)
  | .removeOwn fence => some ((), { host with
      deltas := host.deltas.edit (.own fence) fun delta => { delta with present := false } })
  | .freePorts fence place => some ((), { host.freePorts fence with
      fibers := host.fibers.edit fence fun fiber => { fiber with discarded := true }
      deltas := (host.leave place).deltas })
  | .removeDelta place =>
    if choice = .failed then some ((), host)
    else some ((), { host with
      deltas := host.deltas.edit place fun delta =>
        { delta with present := false, here := false } })
  | .takeEnd fence =>
    match host.fibers.get fence with
    | some fiber =>
      if fiber.known then
        some (some (fiber.parked, fiber.port), { host with
          fibers := host.fibers.put fence { fiber with known := false }
          hands := if fiber.parked then host.hands
            else host.hands.put thread ⟨fence, fiber.port, true⟩ })
      else some (none, host)
    | none => some (none, host)
  | .pull name manifest =>
    match host.deltas.get (.claimed name) with
    | some _ => none
    | none => some ((), { host with
        deltas := host.deltas.put (.claimed name) { manifest := manifest } })

end PortHost

abbrev PortProg := Prog PortAct PortAct.Result

namespace PortProg

def act (action : PortAct) : PortProg action.Result := Prog.act action

def release (fence : String) (discard : Bool) : PortProg Unit := do
  let known ← act (.beginRelease fence discard)
  if discard then do
    act (.removeOwn fence)
    if known then pure () else act (.freePorts fence (.own fence))
  else pure ()

/-- The rest of `start` and of `resume`, once the fiber has its port. -/
def serve (fence : String) (port : Nat) (source : Option DeltaPlace) : PortProg Unit := do
  if ← act (.attempt fence) then do
    act (.register fence port)
    -- The backend's answer, then the route.
    if ← act (.attempt fence) then
      if ← act (.attempt fence) then act (.serve fence source) else release fence false
    else do
      act (.unregister fence)
      act (.freePort port fence)
  else act (.freePort port fence)

def start (fence : String) : PortProg Unit := do
  act (.mint fence)
  if ← act (.attempt fence) then
    match ← act (.allocPort fence 0) with
    | some port => serve fence port none
    | none => pure ()
  else pure ()

/-- Nothing in a relayed checkpoint pins the port. -/
def resumeAnywhere (relay : Bool) (fence : String) (place : DeltaPlace) : PortProg Unit := do
  if relay then
    match ← act (.allocPort fence 0) with
    | some port => serve fence port (some place)
    | none => pure ()
  else pure ()

def resume (relay : Bool) (fence : String) (place : DeltaPlace) : PortProg Unit := do
  act (.mint fence)
  match ← act (.readManifest place) with
  | none => pure ()
  | some manifest =>
    if manifest.port = 0 ∨ manifest.relay ≠ relay then pure ()
    else if ← act (.attempt fence) then
      match ← act (.allocPort fence manifest.port) with
      | some port => serve fence port (some place)
      | none =>
        if ← act (.isLive manifest.fence place) then resumeAnywhere relay fence place
        else do
          act (.takeOver manifest fence place)
          match ← act (.allocPort fence manifest.port) with
          | some port => serve fence port (some place)
          | none => resumeAnywhere relay fence place
    else pure ()

def park (fence : String) : PortProg Unit := do
  if ← act (.beginPark fence) then
    if ← act (.dump fence) then pure () else act (.unpark fence)
  else pure ()

def finish (fence : String) : PortProg Unit := do
  match ← act (.takeEnd fence) with
  | none => pure ()
  | some (parked, port) => if parked then pure () else act (.freePort port fence)

def discardDelta (place : DeltaPlace) : PortProg Unit := do
  match ← act (.readManifest place) with
  | some manifest =>
    if manifest.fence = "" then act (.removeDelta place)
    else do
      act (.freePorts manifest.fence place)
      act (.removeDelta place)
  | none => act (.removeDelta place)

end PortProg

inductive PortCall where
  | birth (fence : String)
  | resume (fence : String) (place : DeltaPlace)
  | park (fence : String)
  | release (fence : String) (discard : Bool)
  | finish (fence : String)
  | claim (name : String) (manifest : PortManifest)
  | discard (place : DeltaPlace)
  deriving DecidableEq, Repr

def PortCall.body (relay : Bool) : PortCall → PortProg Unit
  | .birth fence => .start fence
  | .resume fence place => .resume relay fence place
  | .park fence => .park fence
  | .release fence away => .release fence away
  | .finish fence => .finish fence
  | .claim name manifest => .act (.pull name manifest)
  | .discard place => .discardDelta place

/-- A home that serves tcp endpoints from the range, relayed or not. -/
def portKernel (range : PortRange) (relay : Bool) :
    Kernel PortHost PortAct PortAct.Result PortAnswer PortCall Unit where
  start host := host = {}
  perform := PortHost.perform range relay
  body := PortCall.body relay

abbrev PortThreads := Threads PortHost PortAct PortAct.Result Unit

abbrev PortEvent := Event PortCall PortAnswer

end Fiberd
