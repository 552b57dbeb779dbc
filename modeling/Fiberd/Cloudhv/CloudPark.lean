import Fiberd.Lib.Machines

/-!
A fiber of the cloudhv backend: a VMM, the guest init behind it and an endpoint of
fiberd's.  Park and unpark change the three in turn under the fiber's mutex, and each
call they make may fail before or after it took effect.
-/

namespace Fiberd

open Machines

inductive GuestState where
  | serving
  | parked
  deriving DecidableEq

inductive GuestLine where
  | park
  | unpark
  deriving DecidableEq

def GuestLine.source : GuestLine → GuestState
  | .park => .serving
  | .unpark => .parked

def GuestLine.target : GuestLine → GuestState
  | .park => .parked
  | .unpark => .serving

/-- The call that a Park waits for.  `guest` opens the control port and writes the line,
`answer` reads the init's answer, and `snapshot` is `clearDir`, `vm.snapshot` and `takeSnapshot`. -/
inductive ParkStage where
  | mkdirAll
  | guest (line : GuestLine)
  | answer (line : GuestLine)
  | pause
  | snapshot
  | capture
  | resume
  | unpark
  | serveEndpoint
  deriving DecidableEq

/-- `line` is what the init has yet to take and `answer` what it said to the last one.  `ended`
is set when `end` was started or the VMM exited, `synced` while the last Park was a sync one
that answered success. -/
structure CloudFiber where
  running : Bool := true
  guest : GuestState := .serving
  line : Option GuestLine := none
  answer : Option Bool := none
  bound : Bool := true
  ended : Bool := false
  reported : Bool := false
  park : Option (ParkStage × Bool) := none
  synced : Bool := false
  deriving DecidableEq

inductive CloudStep where
  | park (sync : Bool)
  | call (took ok : Bool)
  | init (agrees : Bool)
  | ends
  | watch
  deriving DecidableEq

namespace CloudFiber

def may (fiber : CloudFiber) : ParkStage → Bool
  | .guest line => fiber.line = none ∧ fiber.guest = line.source
  | .answer _ => fiber.answer = some true
  | _ => true

def takes (fiber : CloudFiber) : ParkStage → CloudFiber
  | .guest line => { fiber with line := some line, answer := none }
  | .pause => { fiber with running := false }
  | .resume | .unpark => { fiber with running := true }
  | _ => fiber

def goesOn (fiber : CloudFiber) (sync : Bool) : ParkStage → CloudFiber
  | .mkdirAll => { fiber with park := some (.guest .park, sync) }
  | .guest line => { fiber with park := some (.answer line, sync) }
  | .answer .park => { fiber with bound := false, park := some (.pause, sync) }
  | .pause => { fiber with park := some (.snapshot, sync) }
  | .snapshot => { fiber with park := some (.capture, sync) }
  | .capture =>
    if sync then { fiber with park := some (.resume, sync) }
    else { fiber with ended := true, park := none }
  | .resume => { fiber with park := none, synced := true }
  | .unpark => { fiber with park := some (.guest .unpark, sync) }
  | .answer .unpark => { fiber with park := some (.serveEndpoint, sync) }
  | .serveEndpoint => { fiber with bound := true, park := none }

def fails (fiber : CloudFiber) (sync : Bool) : ParkStage → CloudFiber
  | .mkdirAll | .guest .park | .answer .park | .resume => { fiber with park := none }
  | .pause | .snapshot | .capture => { fiber with park := some (.unpark, sync) }
  | .unpark | .guest .unpark | .answer .unpark | .serveEndpoint =>
    { fiber with ended := true, park := none }

def step (fiber : CloudFiber) : CloudStep → Option CloudFiber
  | .park sync =>
    if fiber.park.isSome ∨ fiber.reported then none
    else if fiber.bound then some { fiber with park := some (.mkdirAll, sync), synced := false }
    else some { fiber with synced := false }
  | .call took ok => fiber.park.bind fun (stage, sync) =>
    if (ok = true → took = true) ∧ (took = true → fiber.may stage = true) then
      let after := if took then fiber.takes stage else fiber
      some (if ok then after.goesOn sync stage else after.fails sync stage)
    else none
  | .init agrees => fiber.line.bind fun line =>
    if fiber.running then
      -- a line in the wrong state is refused by name
      let agreed := agrees && fiber.guest = line.source
      some { fiber with
        line := none
        answer := some agreed
        guest := if agreed then line.target else fiber.guest }
    else none
  | .ends => some { fiber with ended := true }
  | .watch =>
    if fiber.ended ∧ fiber.park.isNone then some { fiber with bound := false, reported := true }
    else none

def Serves (fiber : CloudFiber) : Prop :=
  fiber.park = none → fiber.synced = false → fiber.ended = true ∨
    fiber.running = true ∧ fiber.guest = .serving ∧ fiber.bound = true

instance (fiber : CloudFiber) : Decidable fiber.Serves := by
  unfold Serves
  infer_instance

/-- A Park gives up its PARK only when the guest never got it or refused it, the resume of a
sync Park does not fail, and no Park follows a sync one that answered success. -/
def heard (fiber : CloudFiber) : CloudStep → Bool
  | .park _ => !fiber.synced
  | .call took ok =>
    match fiber.park with
    | some (.guest .park, _) => ok || !took
    | some (.answer .park, _) => ok || (fiber.line = none ∧ fiber.guest = .serving)
    | some (.resume, _) => ok
    | _ => true
  | _ => true

/-- What a Park that waits for the stage knows of the guest. -/
def At (fiber : CloudFiber) : ParkStage → Prop
  | .mkdirAll | .guest .park =>
    fiber.running = true ∧ fiber.bound = true ∧ fiber.line = none ∧ fiber.guest = .serving
  | .answer .park => fiber.running = true ∧ fiber.bound = true ∧
    (fiber.answer = some true → fiber.line = none ∧ fiber.guest = .parked) ∧
    (fiber.line = none ∨ fiber.line = some .park)
  | .guest .unpark => fiber.running = true ∧ fiber.line = none ∧ fiber.guest = .parked
  | .answer .unpark => fiber.running = true ∧
    (fiber.answer = some true → fiber.line = none ∧ fiber.guest = .serving) ∧
    (fiber.line = none ∨ fiber.line = some .unpark)
  | .serveEndpoint => fiber.running = true ∧ fiber.line = none ∧ fiber.guest = .serving
  | _ => fiber.line = none ∧ fiber.guest = .parked

def Kept (fiber : CloudFiber) : Prop :=
  fiber.ended = true ∨ match fiber.park with
    | none => fiber.synced = true ∨ fiber.At .mkdirAll
    | some (stage, _) => fiber.At stage

variable {fiber next : CloudFiber}

theorem Kept.call (kept : fiber.Kept) {took ok : Bool} (clear : fiber.heard (.call took ok) = true)
    (taken : fiber.step (.call took ok) = some next) : next.Kept := by
  obtain ⟨⟨stage, sync⟩, park, taken⟩ := Option.bind_eq_some_iff.mp taken
  simp only [Option.ite_none_right_eq_some, Option.some.injEq] at taken
  obtain ⟨⟨whole, able⟩, rfl⟩ := taken
  simp only [heard, park] at clear
  simp only [Kept, park] at kept
  rcases kept with ended | known
  · have after : (if took then fiber.takes stage else fiber).ended = true := by
      unfold takes
      repeat' split
      all_goals exact ended
    refine .inl ?_
    unfold goesOn fails
    repeat' split
    all_goals simp_all
  · -- only a call that waits for the guest knows more after it than old
    unfold Kept
    cases stage with
    | guest line => cases line <;> cases ok <;> cases took <;>
        simp_all [goesOn, fails, takes, At, may, GuestLine.source]
    | answer line => cases line <;> cases ok <;> cases took <;>
        simp_all [goesOn, fails, takes, At, may]
    | capture => cases ok <;> cases took <;> cases sync <;> simp_all [goesOn, fails, takes, At]
    | _ => cases ok <;> cases took <;> simp_all [goesOn, fails, takes, At]

theorem Kept.init (kept : fiber.Kept) {agrees : Bool}
    (took : fiber.step (.init agrees) = some next) : next.Kept := by
  obtain ⟨line, sent, took⟩ := Option.bind_eq_some_iff.mp took
  split at took <;> cases took
  rcases kept with ended | known
  · exact .inl ended
  · refine .inr ?_
    cases park : fiber.park with
    | none => simp_all [At]
    | some call =>
      obtain ⟨stage, sync⟩ := call
      simp only [park] at known ⊢
      cases stage with
      | guest line => cases line <;> simp_all [At]
      | answer line => cases line <;> simp_all [At] <;>
          grind [GuestLine.source, GuestLine.target]
      | _ => simp_all [At]

theorem Kept.step (kept : fiber.Kept) {label : CloudStep} (clear : fiber.heard label = true)
    (taken : fiber.step label = some next) : next.Kept := by
  cases label with
  | park sync =>
    simp only [CloudFiber.step] at taken
    split at taken
    · cases taken
    · simp_all only [heard, Kept, not_or]
      split at taken <;> cases taken <;> simp_all [At]
  | call took ok => exact kept.call clear taken
  | init agrees => exact kept.init taken
  | ends =>
    cases taken
    exact .inl rfl
  | watch =>
    simp only [CloudFiber.step] at taken
    split at taken <;> cases taken
    rename_i ends
    exact .inl ends.1

end CloudFiber

def cloudMachine : Machine CloudFiber CloudStep where
  start fiber := fiber = {}
  step := CloudFiber.step

theorem cloud_fiber_serves {final : CloudFiber} {labels : List CloudStep}
    (meets : cloudMachine.Meets (fun fiber label => fiber.heard label = true) {} labels)
    (run : cloudMachine.exec {} labels = some final) : final.Serves := by
  have born : CloudFiber.Kept {} := .inr (.inr ⟨rfl, rfl, rfl, rfl⟩)
  have kept := exec_keeps_of_meets (fun _ _ _ kept clear taken => kept.step clear taken) born
    meets run
  intro idle unsynced
  rcases kept with ended | known
  · exact .inl ended
  · simp only [idle, unsynced, Bool.false_eq_true, false_or] at known
    exact .inr ⟨known.1, known.2.2.2, known.2.1⟩

/-- A Park whose snapshot fails is undone. -/
def undonePark : List CloudStep :=
  [.park true, .call true true, .call true true, .init true, .call true true, .call true true,
    .call false false, .call true true, .call true true, .init true, .call true true,
    .call true true]

theorem undone_park_serves : ∃ final, cloudMachine.exec {} undonePark = some final ∧
    final.ended = false ∧ final.Serves := by
  have run : cloudMachine.exec {} undonePark = some { answer := some true } := by decide +kernel
  exact ⟨_, run, rfl, cloud_fiber_serves (by decide +kernel) run⟩

/-- fiberd gives up on a PARK that the guest takes afterwards. -/
theorem late_park_serves_nobody : ∃ final,
    cloudMachine.exec {} [.park false, .call true true, .call true true, .call false false,
      .init true] = some final ∧ ¬final.Serves :=
  ⟨{ guest := .parked, answer := some true }, by decide +kernel, by decide⟩

end Fiberd
