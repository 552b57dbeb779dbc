import Fiberd.Lib.Machines
import Mathlib.Data.Finset.Card
import Mathlib.Data.Finset.Insert

/-!
`ReadyGate` of `pkg/home/readygate.go` with the Pod condition `publishGate` of
`pkg/home/kubernetes/ready.go` sends: any number of `PublishReady` and `Republish` calls, by
the sections in which they hold the gate's lock.  A call returns at its last section.
-/

namespace Fiberd

open Machines

/-- The time the condition is stamped with is left out. -/
structure PodCondition where
  status : Bool
  reason : String
  message : String
  deriving DecidableEq, Repr

def warmMessage (count : Nat) : String :=
  if count = 1 then "1 grant warm" else toString count ++ " grants warm"

/-- Only how many grants are warm is sent, so the order of the UIDs is left out. -/
def zygoteCondition (warm : Finset String) : PodCondition :=
  if warm.card > 0 then ⟨true, "TemplateWarm", warmMessage warm.card⟩
  else ⟨false, "NoWarmTemplate", warmMessage warm.card⟩

/-- A call in `flush`, with the `changed` it would return. -/
structure GateCall where
  republishes : Bool
  changed : Bool := false
  deriving DecidableEq, Repr

structure GatePublish where
  call : GateCall
  /-- How many publishes were decided before this one. -/
  number : Nat
  warm : Finset String
  /-- The control plane took it. -/
  took : Bool := false
  deriving DecidableEq

structure ReadyGate where
  warm : Finset String := ∅
  decided : Bool := false
  known : Bool := false
  published : Bool := false
  lastErr : String := ""
  /-- The calls that are about to begin a round of `flush`. -/
  flushing : List GateCall := []
  /-- The publish that is `inFlight`. -/
  inFlight : Option GatePublish := none
  publishes : Nat := 0
  /-- What the control plane took, the newest first. -/
  taken : List (Nat × PodCondition) := []
  /-- What the last `Republish` returned. -/
  republished : Option (Bool × Option String) := none
  deriving DecidableEq

inductive GateLabel where
  | publishReady (grantUID : String) (ready : Bool)
  | republish
  | flush (index : Nat)
  | take
  | answer (err : Option String)
  deriving DecidableEq, Repr

namespace ReadyGate

variable (gate : ReadyGate)

def ready : Bool := decide (gate.warm.card > 0)

def leave (call : GateCall) (err : Option String) : ReadyGate :=
  if call.republishes then { gate with republished := some (call.changed, err) } else gate

def step : GateLabel → Option ReadyGate
  | .publishReady grantUID ready => some { gate with
      warm := if ready then insert grantUID gate.warm else gate.warm.erase grantUID
      decided := true
      flushing := ⟨false, false⟩ :: gate.flushing }
  | .republish =>
    if gate.decided then some { gate with flushing := ⟨true, false⟩ :: gate.flushing }
    else some (gate.leave ⟨true, false⟩ none)
  | .flush index => gate.flushing[index]?.map fun call =>
    let rest := { gate with flushing := gate.flushing.eraseIdx index }
    if gate.inFlight.isSome then rest.leave call none
    else if gate.known = true ∧ gate.published = gate.ready then rest.leave call none
    else { rest with
      inFlight := some { call := call, number := gate.publishes, warm := gate.warm }
      publishes := gate.publishes + 1 }
  | .take =>
    match gate.inFlight with
    | some ⟨call, number, warm, false⟩ => some { gate with
        inFlight := some ⟨call, number, warm, true⟩
        taken := (number, zygoteCondition warm) :: gate.taken }
    | _ => none
  | .answer none =>
    match gate.inFlight with
    | some ⟨call, _, warm, true⟩ => some { gate with
        inFlight := none
        known := true
        published := decide (warm.card > 0)
        lastErr := ""
        flushing := { call with changed := call.changed || gate.lastErr ≠ "" } :: gate.flushing }
    | _ => none
  -- A publish that fails may have been taken all the same.
  | .answer (some err) => gate.inFlight.map fun publish =>
    { gate with inFlight := none, lastErr := err }.leave
      { publish.call with changed := err ≠ gate.lastErr } (some err)

/-- What the control plane holds is what the gate stands at, in the order it was decided. -/
def Converges : Prop :=
  gate.taken.Pairwise (fun newer older => older.1 < newer.1) ∧
  (gate.flushing = [] → gate.inFlight = none →
    (∃ changed, gate.republished = some (changed, none)) →
    gate.taken.head?.map (·.2.status) = if gate.decided then some gate.ready else none)

/-- A publish fails only under `Republish`, and only when the control plane did not take it. -/
def FailsUntaken : GateLabel → Prop
  | .answer (some _) => ∀ publish ∈ gate.inFlight, publish.call.republishes ∧ publish.took = false
  | _ => True

instance (label : GateLabel) : Decidable (gate.FailsUntaken label) :=
  match label with
  | .answer (some _) => inferInstanceAs (Decidable (∀ publish ∈ gate.inFlight, _))
  | .answer none | .publishReady .. | .republish | .flush _ | .take => isTrue trivial

end ReadyGate

def gateMachine : Machine ReadyGate GateLabel where
  start gate := gate = {}
  step := ReadyGate.step

namespace ReadyGate

variable {gate next : ReadyGate}

@[simp] theorem zygoteCondition_status (warm : Finset String) :
    (zygoteCondition warm).status = decide (warm.card > 0) := by
  unfold zygoteCondition
  split <;> simp_all

/-- What holds of the numbers however the publishes end. -/
structure Numbered (gate : ReadyGate) : Prop where
  ordered : gate.taken.Pairwise fun newer older => older.1 < newer.1
  numbered : ∀ old ∈ gate.taken, old.1 < gate.publishes
  newest : ∀ publish, gate.inFlight = some publish → publish.number < gate.publishes ∧
    if publish.took then gate.taken.head? = some (publish.number, zygoteCondition publish.warm)
    else ∀ old ∈ gate.taken, old.1 < publish.number

theorem Numbered.step {label : GateLabel} (kept : gate.Numbered)
    (taken : gateMachine.step gate label = some next) : next.Numbered := by
  obtain ⟨ordered, numbered, newest⟩ := kept
  cases label with
  | publishReady grantUID ready =>
    cases taken
    exact ⟨ordered, numbered, newest⟩
  | republish =>
    simp only [gateMachine, ReadyGate.step, leave] at taken
    split at taken <;> cases taken <;> exact ⟨ordered, numbered, newest⟩
  | flush index =>
    simp only [gateMachine, ReadyGate.step, Option.map_eq_some_iff] at taken
    obtain ⟨call, found, rfl⟩ := taken
    simp only [leave]
    split_ifs
    iterate 4 exact ⟨ordered, numbered, newest⟩
    refine ⟨ordered, ?_, ?_⟩ <;> grind
  | take =>
    simp only [gateMachine, ReadyGate.step] at taken
    split at taken <;> cases taken
    rename_i sent
    have fresh := newest _ sent
    refine ⟨List.pairwise_cons.mpr ⟨by simpa using fresh.2, ordered⟩, ?_, ?_⟩ <;> grind
  | answer err =>
    cases err with
    | none =>
      simp only [gateMachine, ReadyGate.step] at taken
      split at taken <;> cases taken
      exact ⟨ordered, numbered, by simp⟩
    | some err =>
      simp only [gateMachine, ReadyGate.step, Option.map_eq_some_iff, leave] at taken
      obtain ⟨publish, sent, rfl⟩ := taken
      split <;> exact ⟨ordered, numbered, by simp⟩

structure Kept (gate : ReadyGate) : Prop where
  held : (∀ publish, gate.inFlight = some publish → publish.took = false) → gate.known = true →
    gate.taken.head?.map (·.2.status) = some gate.published
  /-- A change that was not sent is still to be sent, or the last `Republish` has failed. -/
  sends : gate.decided = true → gate.flushing ≠ [] ∨ gate.inFlight ≠ none ∨
    (gate.known = true ∧ gate.published = gate.ready) ∨
    ∃ changed err, gate.republished = some (changed, some err)
  silent : gate.decided = false → gate.taken = [] ∧ gate.flushing = [] ∧ gate.inFlight = none

theorem Kept.step {label : GateLabel} (kept : gate.Kept) (numbered : gate.Numbered)
    (fails : gate.FailsUntaken label) (taken : gateMachine.step gate label = some next) :
    next.Kept := by
  have newest := numbered.newest
  obtain ⟨held, sends, silent⟩ := kept
  cases label with
  | publishReady grantUID ready =>
    cases taken
    exact ⟨held, by simp, by simp⟩
  | republish =>
    simp only [gateMachine, ReadyGate.step] at taken
    split at taken <;> cases taken
    · exact ⟨held, by simp, by simp_all⟩
    · exact ⟨held, by simp_all [leave], silent⟩
  | flush index =>
    simp only [gateMachine, ReadyGate.step, Option.map_eq_some_iff] at taken
    obtain ⟨call, found, rfl⟩ := taken
    have decided : gate.decided = true := by
      by_contra undecided
      simp [(silent (by simpa using undecided)).2.1] at found
    simp only [leave]
    split_ifs
    iterate 4 exact ⟨held, by grind [ready], by simp [decided]⟩
    exact ⟨by grind, by simp, by simp [decided]⟩
  | take =>
    simp only [gateMachine, ReadyGate.step] at taken
    split at taken <;> cases taken
    refine ⟨?_, ?_, ?_⟩ <;> grind
  | answer err =>
    cases err with
    | none =>
      simp only [gateMachine, ReadyGate.step] at taken
      split at taken <;> cases taken
      refine ⟨?_, ?_, ?_⟩ <;> grind [zygoteCondition_status]
    | some err =>
      simp only [gateMachine, ReadyGate.step, Option.map_eq_some_iff] at taken
      obtain ⟨publish, sent, rfl⟩ := taken
      obtain ⟨republishes, untaken⟩ := fails publish sent
      rw [leave, if_pos republishes]
      refine ⟨?_, ?_, ?_⟩ <;> grind

end ReadyGate

/-- The publishes reach the control plane in order in every run, however they end. -/
theorem gate_converges {gate : ReadyGate} {labels : List GateLabel}
    (run : gateMachine.exec {} labels = some gate) :
    gate.taken.Pairwise (fun newer older => older.1 < newer.1) ∧
      (gateMachine.Meets ReadyGate.FailsUntaken {} labels → gate.Converges) := by
  have begins : ReadyGate.Numbered {} := ⟨.nil, by simp, by simp⟩
  have numbered : gate.Numbered := exec_keeps (fun _ _ _ kept taken => kept.step taken) begins run
  refine ⟨numbered.ordered, fun fails => ⟨numbered.ordered, ?_⟩⟩
  have kept : gate.Kept := (exec_keeps_of_meets
    (fun _ _ _ (has : ReadyGate.Numbered _ ∧ ReadyGate.Kept _) fails taken =>
      ⟨has.1.step taken, has.2.step has.1 fails taken⟩)
    ⟨begins, by simp, by simp, by simp⟩ fails run).2
  rintro left landed ⟨changed, returned⟩
  by_cases decided : gate.decided = true
  · obtain waits | flies | ⟨known, same⟩ | ⟨_, _, failed⟩ := kept.sends decided
    · exact absurd left waits
    · exact absurd landed flies
    · rw [if_pos decided, ← same]
      exact kept.held (by simp [landed]) known
    · simp [returned] at failed
  · simp [kept.silent (by simpa using decided), decided]

/-- The patch that fails was not taken; the next poll sends the gate again. -/
def republishedRun : List GateLabel :=
  [.publishReady "a" true, .flush 0, .republish, .flush 0, .take, .answer none, .flush 0,
    .publishReady "a" false, .republish, .flush 0, .answer (some "timeout"), .flush 0, .take,
    .answer none, .flush 0, .republish, .flush 0]

theorem republished_gate_converges : ∃ gate, gateMachine.exec {} republishedRun = some gate ∧
    gate.republished = some (false, none) ∧ gate.Converges := by
  obtain ⟨gate, run, returned⟩ : ∃ gate, gateMachine.exec {} republishedRun = some gate ∧
    gate.republished = some (false, none) := by decide +kernel
  exact ⟨gate, run, returned, (gate_converges run).2 (by decide +kernel)⟩

/-- The patch that says True is taken but fails; the gate has never been known to differ from
False, so nothing sends False again. -/
def takenRun : List GateLabel :=
  [.publishReady "a" false, .flush 0, .take, .answer none, .flush 0,
    .publishReady "b" true, .flush 0, .take, .answer (some "timeout"),
    .publishReady "b" false, .flush 0, .republish, .flush 0]

theorem taken_failure_strands_gate :
    ∃ gate, gateMachine.exec {} takenRun = some gate ∧ ¬gate.Converges := by
  obtain ⟨gate, run, left, landed, returned, held⟩ : ∃ gate,
      gateMachine.exec {} takenRun = some gate ∧ gate.flushing = [] ∧ gate.inFlight = none ∧
      gate.republished = some (false, none) ∧
      ¬gate.taken.head?.map (·.2.status) = if gate.decided then some gate.ready else none := by
    decide +kernel
  exact ⟨gate, run, fun converges => held (converges.2 left landed ⟨false, returned⟩)⟩

end Fiberd
