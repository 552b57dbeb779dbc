import Fiberd.Host.Ports

/-!
Who owns a port.  A port is held for a fiber from the birth or the resume that reserves
it to the end of the fiber, and for its delta after that.  The ends of calls that give
back what they did not take are kept out by `keepsPorts`.
-/

namespace Fiberd

open Tables Programs Machines

namespace PortHost

def isHere (host : PortHost) (place : DeltaPlace) : Bool :=
  (host.deltas.get place).any fun delta => delta.here

def isParking (host : PortHost) (fence : String) : Bool :=
  (host.fibers.get fence).any fun fiber => fiber.parking.isSome

def isBorn (host : PortHost) (fence : String) : Bool :=
  host.hands.rows.any fun row => !row.2.ending && row.2.fence == fence

def hasGap (host : PortHost) (fence : String) : Bool :=
  host.deltas.rows.any fun row => row.2.here && row.2.moving.isSome &&
    row.2.moving != some fence && (host.ports.get row.2.manifest.port).isNone

def isMoving (host : PortHost) (fence : String) : Bool :=
  host.deltas.rows.any fun row => row.2.here && row.2.moving == some fence

end PortHost

/-- What the calls must find where they free ports, or fail after they did. -/
def keepsPorts (host : PortHost) (_ : Nat) (action : PortAct) (choice : PortAnswer) : Bool :=
  match action with
  | .attempt fence => choice != .failed || !host.isMoving fence
  | .allocPort fence _ => !host.hasGap fence
  | .isLive fence place => !(host.isHere place && host.knows fence)
  | .takeOver manifest _ place =>
    host.ports.get manifest.port != some manifest.fence ||
      (place == .own manifest.fence && host.isHere place && !host.knows manifest.fence)
  | .beginPark fence => (host.fibers.get fence).all fun fiber =>
    !fiber.known || (!fiber.released && fiber.ready && !fiber.discarded)
  | .unpark fence => host.knows fence
  | .freePorts fence place => !host.knows fence && !host.isBorn fence &&
      (place == .own fence || (!host.isHere (.own fence) && !host.isParking fence))
  | .removeDelta place => !host.isHere place
  | _ => true

inductive PortStage where
  | idle
  | discarding (place : DeltaPlace) (manifest : PortManifest)
  | minted (fence : String)
  | reading (fence : String) (place : DeltaPlace) (manifest : PortManifest)
  | taken (fence : String) (place : DeltaPlace) (manifest : PortManifest)
  | handed (fence : String) (place : DeltaPlace)
  | holding (fence : String) (port : Nat) (source : Option DeltaPlace)
  | unserved (fence : String) (port : Nat)
  | registered (fence : String) (port : Nat) (source : Option DeltaPlace)
  | refused (fence : String) (port : Nat)
  | ended (fence : String) (port : Nat)
  | parking (fence : String)
  deriving DecidableEq

namespace PortStage

def allotted (fence : String) (source : Option DeltaPlace) (refused : PortStage) :
    Option Nat → PortStage
  | some port => .holding fence port source
  | none => refused

def after : PortStage → (action : PortAct) → action.Result → Option PortStage
  | .idle, .mint fence, _ => some (.minted fence)
  | .idle, .readManifest place, some manifest => some (.discarding place manifest)
  | .idle, .readManifest _, none => some .idle
  | .idle, .removeDelta _, _ => some .idle
  | .idle, .beginRelease _ _, _ => some .idle
  | .idle, .removeOwn _, _ => some .idle
  | .idle, .freePorts fence place, _ => if place = .own fence then some .idle else none
  | .idle, .beginPark fence, found => some (if found then .parking fence else .idle)
  | .idle, .takeEnd _, none => some .idle
  | .idle, .takeEnd fence, some (parked, port) =>
    some (if parked then .idle else .ended fence port)
  | .idle, .pull _ _, _ => some .idle
  | .discarding place manifest, .freePorts fence other, _ =>
    if fence = manifest.fence ∧ other = place then some .idle else none
  | .discarding _ _, .removeDelta _, _ => some .idle
  | .minted fence, .attempt other, _ => if other = fence then some (.minted fence) else none
  | .minted fence, .readManifest place, some manifest => some (.reading fence place manifest)
  | .minted fence, .readManifest _, none => some (.minted fence)
  | .minted fence, .allocPort other want, given =>
    if other = fence ∧ want = 0 then
      some (allotted fence none (.minted fence) given)
    else none
  | .reading fence place manifest, .attempt other, _ =>
    if other = fence then some (.reading fence place manifest) else none
  | .reading fence place manifest, .allocPort other want, given =>
    if other = fence ∧ want = manifest.port ∧ want ≠ 0 then
      some (allotted fence (some place) (.reading fence place manifest) given)
    else none
  | .reading fence place manifest, .isLive other there, live =>
    if other = manifest.fence ∧ there = place then
      some (if live then .handed fence place else .reading fence place manifest)
    else none
  | .reading fence place manifest, .takeOver other mine there, _ =>
    if other = manifest ∧ mine = fence ∧ there = place ∧ manifest.port ≠ 0 then
      some (.taken fence place manifest)
    else none
  | .taken fence place manifest, .allocPort other want, given =>
    if other = fence ∧ want = manifest.port ∧ want ≠ 0 then
      some (allotted fence (some place) (.handed fence place) given)
    else none
  | .handed fence place, .allocPort other want, given =>
    if other = fence ∧ want = 0 then
      some (allotted fence (some place) (.handed fence place) given)
    else none
  | .holding fence port source, .attempt other, made =>
    if other = fence then
      some (if made then .holding fence port source else .unserved fence port)
    else none
  | .unserved fence port, .freePort given other, _ =>
    if given = port ∧ other = fence then some .idle else none
  | .holding fence port source, .register other given, _ =>
    if given = port ∧ other = fence then some (.registered fence port source) else none
  | .registered fence port source, .attempt other, made =>
    if other = fence then
      some (if made then .registered fence port source else .refused fence port)
    else none
  | .refused fence port, .unregister other, _ =>
    if other = fence then some (.ended fence port) else none
  | .refused _ _, .beginRelease _ _, _ => some .idle
  | .registered fence _ source, .serve other from', _ =>
    if other = fence ∧ from' = source then some .idle else none
  | .ended fence port, .freePort given other, _ =>
    if given = port ∧ other = fence then some .idle else none
  | .parking fence, .dump other, kept =>
    if other = fence then some (if kept then .idle else .parking fence) else none
  | .parking fence, .unpark other, _ => if other = fence then some .idle else none
  | _, _, _ => none

def clear : PortStage → Bool
  | .holding _ _ _ | .unserved _ _ | .ended _ _ | .parking _ => false
  | _ => true

end PortStage

namespace PortHost

def Accounted (host : PortHost) (fence : String) (port : Nat) : Prop :=
  (∃ thread ending, host.hands.get thread = some ⟨fence, port, ending⟩) ∨
  (∃ fiber, host.fibers.get fence = some fiber ∧ fiber.port = port ∧
    (fiber.known = true ∨ (fiber.parking.isSome ∧ fiber.discarded = false))) ∨
  (∃ delta, host.deltas.get (.own fence) = some delta ∧ delta.here = true ∧
    delta.moving = none ∧ delta.manifest.port = port)

structure Flags (fiber : PortFiber) : Prop where
  unready : fiber.ready = false → fiber.parked = false ∧ fiber.parking = none
  parking : fiber.parking.isSome → fiber.released = true ∧
    (fiber.discarded = false → fiber.parked = true)
  discarded : fiber.known = true → fiber.discarded = true → fiber.parked = false
  positive : 0 < fiber.port

structure OwnDelta (fence : String) (fiber : PortFiber) (delta : StoredDelta) : Prop where
  released : fiber.released = true
  parking : fiber.parking = none
  port : delta.manifest.port = fiber.port
  fence : delta.manifest.fence = fence
  here : delta.here = true → fiber.parked = true ∧ fiber.discarded = false

/-- A fence with its fiber, its own delta, the hands that have a port for it and its ports. -/
structure SoundAt (host : PortHost) (fence : String) : Prop where
  used : ∀ fiber, host.fibers.get fence = some fiber → (host.minted.get fence).isSome
  births : ∀ thread port, host.hands.get thread = some ⟨fence, port, false⟩ →
    host.ports.get port = some fence ∧ host.fibers.get fence = none ∧
      host.minted.get fence = some thread ∧ 0 < port
  endings : ∀ thread port, host.hands.get thread = some ⟨fence, port, true⟩ →
    ∃ fiber, host.fibers.get fence = some fiber ∧ fiber.known = false ∧
      fiber.parked = false ∧ fiber.port = port
  flags : ∀ fiber, host.fibers.get fence = some fiber → Flags fiber
  live : ∀ fiber, host.fibers.get fence = some fiber → fiber.known = true →
    host.ports.get fiber.port = some fence
  parking : ∀ fiber, host.fibers.get fence = some fiber → fiber.parking.isSome →
    fiber.discarded = false → host.ports.get fiber.port = some fence
  kept : ∀ fiber, host.fibers.get fence = some fiber → fiber.known = true →
    fiber.parked = true → fiber.parking.isSome ∨
      ∃ delta, host.deltas.get (.own fence) = some delta ∧ delta.here = true
  own : ∀ delta, host.deltas.get (.own fence) = some delta →
    ∃ fiber, host.fibers.get fence = some fiber ∧ OwnDelta fence fiber delta
  still : ∀ delta, host.deltas.get (.own fence) = some delta → delta.here = true →
    delta.moving = none → host.ports.get delta.manifest.port = some fence
  moving : ∀ delta mover, host.deltas.get (.own fence) = some delta → delta.here = true →
    delta.moving = some mover → mover ≠ fence ∧
      (host.ports.get delta.manifest.port = none ∨
        host.ports.get delta.manifest.port = some mover)
  held : ∀ port, host.ports.get port = some fence → host.Accounted fence port

structure Sound (host : PortHost) : Prop where
  each : ∀ fence, host.SoundAt fence
  claimed : ∀ name delta, host.deltas.get (.claimed name) = some delta → delta.here = false

def Minted (host : PortHost) (thread : Nat) (fence : String) : Prop :=
  host.minted.get fence = some thread ∧ host.fibers.get fence = none

def Stores (host : PortHost) (place : DeltaPlace) (manifest : PortManifest) : Prop :=
  ∃ delta, host.deltas.get place = some delta ∧ delta.manifest = manifest

def Handed (host : PortHost) (place : DeltaPlace) : Prop :=
  ∃ delta, host.deltas.get place = some delta ∧ (delta.here = true → delta.moving ≠ none)

def At (host : PortHost) (thread : Nat) : PortStage → Prop
  | .idle => host.hands.get thread = none
  | .discarding place manifest => host.hands.get thread = none ∧ host.Stores place manifest
  | .minted fence => host.hands.get thread = none ∧ host.Minted thread fence
  | .reading fence place manifest =>
    host.hands.get thread = none ∧ host.Minted thread fence ∧ host.Stores place manifest
  | .taken fence place manifest => host.hands.get thread = none ∧ host.Minted thread fence ∧
      host.Stores place manifest ∧ host.Handed place
  | .handed fence place =>
    host.hands.get thread = none ∧ host.Minted thread fence ∧ host.Handed place
  | .holding fence port source => host.hands.get thread = some ⟨fence, port, false⟩ ∧
      ∀ place, source = some place → host.Handed place
  | .registered fence port source => host.hands.get thread = none ∧
      host.minted.get fence = some thread ∧
      (∃ fiber, host.fibers.get fence = some fiber ∧ fiber.port = port ∧ fiber.ready = false) ∧
      ∀ place, source = some place → host.Handed place
  | .unserved fence port => host.hands.get thread = some ⟨fence, port, false⟩
  | .refused fence port => host.hands.get thread = none ∧
      host.minted.get fence = some thread ∧
      ∃ fiber, host.fibers.get fence = some fiber ∧ fiber.port = port ∧ fiber.ready = false
  | .ended fence port => host.hands.get thread = some ⟨fence, port, true⟩
  | .parking fence => host.hands.get thread = none ∧
      ∃ fiber, host.fibers.get fence = some fiber ∧ fiber.parking = some thread

structure Moves (thread : Nat) (host next : PortHost) : Prop where
  hands : ∀ other, other ≠ thread → next.hands.get other = host.hands.get other
  minted : ∀ fence other, host.minted.get fence = some other →
    next.minted.get fence = some other
  unborn : ∀ fence other, other ≠ thread → host.minted.get fence = some other →
    host.fibers.get fence = none → next.fibers.get fence = none
  deltas : ∀ place delta, host.deltas.get place = some delta →
    ∃ later, next.deltas.get place = some later ∧ later.manifest = delta.manifest ∧
      (later.here = true → delta.here = true ∧ (later.moving = none → delta.moving = none))
  unready : ∀ fence fiber other, other ≠ thread → host.minted.get fence = some other →
    host.fibers.get fence = some fiber → fiber.ready = false →
      ∃ later, next.fibers.get fence = some later ∧ later.port = fiber.port ∧
        later.ready = false
  parking : ∀ fence fiber other, other ≠ thread → host.fibers.get fence = some fiber →
    fiber.parking = some other →
      ∃ later, next.fibers.get fence = some later ∧ later.parking = some other

variable {host next : PortHost} {thread other : Nat}

theorem Moves.refl (host : PortHost) (thread : Nat) : Moves thread host host :=
  ⟨fun _ _ => rfl, fun _ _ minted => minted, fun _ _ _ _ unborn => unborn,
    fun _ delta got => ⟨delta, got, rfl, fun here => ⟨here, id⟩⟩,
    fun _ fiber _ _ _ got unready => ⟨fiber, got, rfl, unready⟩,
    fun _ fiber _ _ got parking => ⟨fiber, got, parking⟩⟩

theorem Minted.moves {fence : String} (minted : host.Minted other fence)
    (moves : Moves thread host next) (apart : other ≠ thread) : next.Minted other fence :=
  ⟨moves.minted fence other minted.1, moves.unborn fence other apart minted.1 minted.2⟩

theorem Stores.moves {place : DeltaPlace} {manifest : PortManifest}
    (stores : host.Stores place manifest) (moves : Moves thread host next) :
    next.Stores place manifest := by
  obtain ⟨delta, got, same⟩ := stores
  obtain ⟨later, kept, manifest, _⟩ := moves.deltas place delta got
  exact ⟨later, kept, manifest.trans same⟩

theorem Handed.moves {place : DeltaPlace} (handed : host.Handed place)
    (moves : Moves thread host next) : next.Handed place := by
  obtain ⟨delta, got, away⟩ := handed
  obtain ⟨later, kept, _, still⟩ := moves.deltas place delta got
  exact ⟨later, kept, fun here stays => away (still here).1 ((still here).2 stays)⟩

theorem At.moves {stage : PortStage} (here : host.At other stage) (moves : Moves thread host next)
    (apart : other ≠ thread) : next.At other stage := by
  have hands := moves.hands other apart
  cases stage with
  | idle => exact hands.trans here
  | discarding place manifest => exact ⟨hands.trans here.1, here.2.moves moves⟩
  | minted fence => exact ⟨hands.trans here.1, here.2.moves moves apart⟩
  | reading fence place manifest | handed fence place =>
    exact ⟨hands.trans here.1, here.2.1.moves moves apart, here.2.2.moves moves⟩
  | taken fence place manifest =>
    exact ⟨hands.trans here.1, here.2.1.moves moves apart, here.2.2.1.moves moves,
      here.2.2.2.moves moves⟩
  | holding fence port source =>
    exact ⟨hands.trans here.1, fun place from' => (here.2 place from').moves moves⟩
  | registered fence port source =>
    obtain ⟨empty, minted, ⟨fiber, found, port, unready⟩, handed⟩ := here
    obtain ⟨later, kept, same, still⟩ :=
      moves.unready fence fiber other apart minted found unready
    exact ⟨hands.trans empty, moves.minted fence other minted,
      ⟨later, kept, same.trans port, still⟩,
      fun place from' => (handed place from').moves moves⟩
  | unserved fence port | ended fence port => exact hands.trans here
  | refused fence port =>
    obtain ⟨empty, minted, fiber, found, port, unready⟩ := here
    obtain ⟨later, kept, same, still⟩ :=
      moves.unready fence fiber other apart minted found unready
    exact ⟨hands.trans empty, moves.minted fence other minted, later, kept, same.trans port,
      still⟩
  | parking fence =>
    obtain ⟨empty, fiber, found, parking⟩ := here
    exact ⟨hands.trans empty, moves.parking fence fiber other apart found parking⟩

end PortHost

end Fiberd
