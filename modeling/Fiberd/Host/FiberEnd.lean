import Fiberd.Ledger.LedgerSessions
import Fiberd.Lib.Programs

/-!
The end of one fiber: `finish`, `Park`, `unpark` and `Release` of
`pkg/runtime/host/host_linux.go`, and the calls of `pkg/core/core.go` that drop the
fiber from the ledger on what the host answers.  An action is one section of `r.mu`,
one channel operation or one step of the ledger.
-/

namespace Fiberd

open Tables Programs

/-- A fiber's fence, as a grant with a UID mints it. -/
structure HostedFiber where
  fence : Fence
  named : fence.grantUID ≠ ""
  epoch : fence.epoch < 2 ^ 64
  seq : fence.seq < 2 ^ 64

abbrev HostedFiber.id (fiber : HostedFiber) : String := fiber.fence.string

theorem HostedFiber.parses (fiber : HostedFiber) : parseFence fiber.id = some fiber.fence :=
  parseFence_string fiber.named fiber.epoch fiber.seq

structure FiberHost where
  /-- `r.fibers` has the fiber. -/
  known : Bool := true
  released : Bool := false
  parked : Bool := false
  /-- `finish` left the exit it took the fiber out with. -/
  exit : Bool := false
  done : Bool := false
  /-- The exits of the fiber sent on `Exits` so far, and those `Run` has received. -/
  sent : Nat := 0
  received : Nat := 0
  system : LedgerSystem
  /-- The Parks and the Releases that found the fiber and have not returned, the calls that have
  an exit to send, and those that have a fiber to drop.  These and the next three are marks of
  the model. -/
  parks : Table Nat Unit := ∅
  releases : Table Nat Unit := ∅
  owing : Table Nat Unit := ∅
  dropping : Table Nat Unit := ∅
  /-- Some Park got a ref, some Release nil, and some of these not from the core. -/
  refs : Bool := false
  nils : Bool := false
  bare : Bool := false

inductive FiberAct where
  | beginPark
  /-- The dump and all up to the delta that is kept; `false` where the fiber is given back. -/
  | dump (fromCore : Bool)
  | unpark
  | sendExit
  | awaitDone
  | beginRelease (discard : Bool)
  | awaitReleased (fromCore : Bool)
  | killOrphan (fromCore : Bool)
  | takeEnd
  | closeDone
  | lookUp
  | receiveExit
  | onPark (ref : String)
  | onRelease
  | onFiberExit

abbrev FiberAct.Result : FiberAct → Type
  | .takeEnd => Option Bool
  | .sendExit | .closeDone | .receiveExit | .onPark _ | .onRelease | .onFiberExit => Unit
  | _ => Bool

namespace FiberHost

/-- The call drops the fiber next where the core made it. -/
def answered (host : FiberHost) (thread : Nat) (fromCore : Bool) : FiberHost :=
  if fromCore then { host with dropping := host.dropping.put thread () }
  else { host with bare := true }

def withLedger (host : FiberHost) (thread : Nat) (ledger : Ledger) : FiberHost :=
  { host with
    system := host.system.withLedger ledger
    dropping := host.dropping.drop thread }

def perform (fiber : HostedFiber) (host : FiberHost) (thread : Nat) (action : FiberAct)
    (choice : Bool) : Option (action.Result × FiberHost) :=
  match action with
  | .beginPark =>
    if host.known then
      some (true, { host with
        released := true
        parked := true
        parks := host.parks.put thread () })
    else some (false, host)
  | .dump fromCore =>
    if choice then
      some (true, { host with
        refs := true
        parks := host.parks.drop thread }.answered thread fromCore)
    else some (false, host)
  | .unpark =>
    some (host.exit, { host with
      released := false
      parked := false
      parks := host.parks.drop thread
      owing := if host.exit then host.owing.put thread () else host.owing })
  | .sendExit => some ((), { host with
      sent := host.sent + 1
      owing := host.owing.drop thread })
  | .awaitDone => if choice && !host.done then none else some (choice, host)
  | .beginRelease discard =>
    if host.known then
      some (true, { host with
        released := true
        parked := host.parked && !discard
        releases := host.releases.put thread () })
    else some (false, host)
  | .awaitReleased fromCore =>
    if choice then
      if host.done then
        some (true, { host with
          nils := true
          releases := host.releases.drop thread }.answered thread fromCore)
      else none
    else some (false, { host with releases := host.releases.drop thread })
  | .killOrphan fromCore =>
    if choice then some (true, { host with nils := true }.answered thread fromCore)
    else some (false, host)
  | .takeEnd =>
    if host.known then
      some (some host.released, { host with
        known := false
        exit := true
        owing := if host.released then host.owing else host.owing.put thread () })
    else some (none, host)
  | .closeDone => some ((), { host with done := true })
  | .lookUp => some ((host.system.ledger.fiber? fiber.id).isSome, host)
  | .receiveExit =>
    if host.received < host.sent then
      some ((), { host with
        received := host.received + 1
        dropping := host.dropping.put thread () })
    else none
  | .onPark ref => some ((), host.withLedger thread (host.system.ledger.onPark fiber.id ref).1)
  | .onRelease => some ((), host.withLedger thread (host.system.ledger.onRelease fiber.id).1)
  | .onFiberExit => some ((), host.withLedger thread (host.system.ledger.onFiberExit fiber.id).1)

end FiberHost

abbrev FiberProg := Prog FiberAct FiberAct.Result

namespace FiberProg

def act (action : FiberAct) : FiberProg action.Result := Prog.act action

def finish : FiberProg Unit := do
  match ← act .takeEnd with
  | none => pure ()
  | some released => do
      act .closeDone
      if released then pure () else act .sendExit

def unpark : FiberProg Unit := do
  if ← act .unpark then act .sendExit else pure ()

def park (fiber : HostedFiber) (fromCore : Bool) : FiberProg Bool := do
  if ← act .beginPark then
    match parseFence fiber.id with
    | none => pure false
    | some _ =>
      if ← act (.dump fromCore) then do
        let _ ← act .awaitDone
        pure true
      else do
        unpark
        pure false
  else pure false

def release (fiber : HostedFiber) (discard fromCore : Bool) : FiberProg Bool := do
  if ← act (.beginRelease discard) then act (.awaitReleased fromCore)
  else
    match parseFence fiber.id with
    | none => pure true
    | some _ => act (.killOrphan fromCore)

/-- `Core.Park`, as far as the ledger follows the runtime. -/
def corePark (fiber : HostedFiber) (ref : String) : FiberProg Unit := do
  if ← act .lookUp then
    if ← park fiber true then act (.onPark ref) else pure ()
  else pure ()

def coreRelease (fiber : HostedFiber) (discard : Bool) : FiberProg Unit := do
  if ← act .lookUp then
    if ← release fiber discard true then act .onRelease else pure ()
  else pure ()

/-- One turn of `Core.Run` with an exit of the fiber. -/
def coreRun : FiberProg Unit := do
  act .receiveExit
  act .onFiberExit

end FiberProg

inductive FiberCall where
  | finish
  | park
  | release (discard : Bool)
  | corePark (ref : String)
  | coreRelease (discard : Bool)
  | coreRun
  deriving DecidableEq, Repr

def FiberCall.body (fiber : HostedFiber) : FiberCall → FiberProg Unit
  | .finish => .finish
  | .park => do let _ ← FiberProg.park fiber false; pure ()
  | .release discard => do let _ ← FiberProg.release fiber discard false; pure ()
  | .corePark ref => .corePark fiber ref
  | .coreRelease discard => .coreRelease fiber discard
  | .coreRun => .coreRun

/-- One recorded fiber, with any calls on it at once. -/
def fiberKernel (fiber : HostedFiber) :
    Kernel FiberHost FiberAct FiberAct.Result Bool FiberCall Unit where
  start host := ∃ system : LedgerSystem, system.SessionsRun ∧
    (system.ledger.fibers.get fiber.id).isSome ∧ host = { system := system }
  perform := FiberHost.perform fiber
  body := FiberCall.body fiber

abbrev FiberThreads := Threads FiberHost FiberAct FiberAct.Result Unit

abbrev FiberEvent := Event FiberCall Bool

end Fiberd
