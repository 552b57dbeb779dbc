import Fiberd.Host.PortCarries

/-!
The programs of the calls follow the stages, and the ownership of ports holds in every
state of every run.
-/

namespace Fiberd

open Tables Programs Machines

namespace PortProg

abbrev Stages {β : Type} (program : PortProg β) (stage : PortStage)
    (post : β → PortStage → Prop) : Prop :=
  program.Follows PortStage.after stage post

abbrev Clears (program : PortProg Unit) (stage : PortStage) : Prop :=
  program.Stages stage fun _ later => later.clear = true ∧ later.mover = none

theorem done_clears {stage : PortStage} (clear : stage.clear = true)
    (still : stage.mover = none) : (pure () : PortProg Unit).Clears stage :=
  ⟨clear, still⟩

theorem release_stages (fence : String) (discard : Bool) :
    (release fence discard).Clears .idle := by
  refine follows_act ?_
  intro known
  refine ⟨.idle, rfl, ?_⟩
  cases discard with
  | false => exact done_clears rfl rfl
  | true =>
    refine follows_act ?_
    intro _
    refine ⟨.idle, rfl, ?_⟩
    cases known with
    | true => exact done_clears rfl rfl
    | false => exact fun _ => ⟨.idle, if_pos rfl, rfl, rfl⟩

theorem serve_stages (fence : String) (port : Nat) (source : Option DeltaPlace) :
    (serve fence port source).Clears (.holding fence port source) := by
  refine follows_act ?_
  intro made
  refine ⟨_, if_pos rfl, ?_⟩
  cases made with
  | false => exact fun _ => ⟨.idle, if_pos ⟨rfl, rfl⟩, rfl, rfl⟩
  | true =>
    refine follows_act ?_
    intro _
    refine ⟨.registered fence port source, if_pos ⟨rfl, rfl⟩, follows_act ?_⟩
    intro answered
    refine ⟨_, if_pos rfl, ?_⟩
    cases answered with
    | false =>
      refine follows_act ?_
      intro _
      exact ⟨.ended fence port, if_pos rfl, fun _ => ⟨.idle, if_pos ⟨rfl, rfl⟩, rfl, rfl⟩⟩
    | true =>
      refine follows_act ?_
      intro routed
      refine ⟨_, if_pos rfl, ?_⟩
      cases routed with
      | true => exact fun _ => ⟨.idle, if_pos ⟨rfl, rfl⟩, rfl, rfl⟩
      | false => exact follows_act fun _ => ⟨.idle, rfl, rfl, rfl⟩

theorem start_stages (fence : String) : (start fence).Clears .idle := by
  refine follows_act ?_
  intro _
  refine ⟨.minted fence, rfl, follows_act ?_⟩
  intro made
  refine ⟨.minted fence, if_pos rfl, ?_⟩
  cases made with
  | false => exact done_clears rfl rfl
  | true =>
    refine follows_act ?_
    intro given
    refine ⟨_, if_pos ⟨rfl, rfl⟩, ?_⟩
    cases given with
    | none => exact done_clears rfl rfl
    | some port => exact serve_stages fence port none

theorem resumeAnywhere_stages (relay : Bool) (fence : String) (place : DeltaPlace) :
    (resumeAnywhere relay fence place).Clears (.handed fence place) := by
  cases relay with
  | false => exact done_clears rfl rfl
  | true =>
    refine follows_act ?_
    intro given
    refine ⟨_, if_pos ⟨rfl, rfl⟩, ?_⟩
    cases given with
    | none => exact done_clears rfl rfl
    | some port => exact serve_stages fence port (some place)

theorem resume_stages (relay : Bool) (fence : String) (place : DeltaPlace) :
    (resume relay fence place).Clears .idle := by
  refine follows_act ?_
  intro _
  refine ⟨.minted fence, rfl, follows_act ?_⟩
  intro read
  cases read with
  | none => exact ⟨.minted fence, rfl, rfl, rfl⟩
  | some manifest =>
    refine ⟨.reading fence place manifest, rfl, ?_⟩
    by_cases refused : manifest.port = 0 ∨ manifest.relay ≠ relay
    · simp only [if_pos refused]
      exact ⟨rfl, rfl⟩
    · simp only [if_neg refused]
      have pinned : manifest.port ≠ 0 := fun zero => refused (.inl zero)
      refine follows_act ?_
      intro made
      refine ⟨.reading fence place manifest, if_pos rfl, ?_⟩
      cases made with
      | false => exact done_clears rfl rfl
      | true =>
        refine follows_act ?_
        intro given
        refine ⟨_, if_pos ⟨rfl, rfl, pinned⟩, ?_⟩
        cases given with
        | some port => exact serve_stages fence port (some place)
        | none =>
          refine follows_act ?_
          intro live
          refine ⟨_, if_pos ⟨rfl, rfl⟩, ?_⟩
          cases live with
          | true => exact resumeAnywhere_stages relay fence place
          | false =>
            refine follows_act ?_
            intro _
            refine ⟨_, if_pos ⟨rfl, rfl, rfl, pinned⟩, follows_act ?_⟩
            intro again
            refine ⟨_, if_pos ⟨rfl, rfl, pinned⟩, ?_⟩
            cases again with
            | some port => exact serve_stages fence port (some place)
            | none => exact resumeAnywhere_stages relay fence place

theorem park_stages (fence : String) : (park fence).Clears .idle := by
  refine follows_act ?_
  intro got
  cases got with
  | false => exact ⟨.idle, rfl, rfl, rfl⟩
  | true =>
    refine ⟨.parking fence, rfl, follows_act ?_⟩
    intro kept
    refine ⟨_, if_pos rfl, ?_⟩
    cases kept with
    | true => exact done_clears rfl rfl
    | false => exact fun _ => ⟨.idle, if_pos rfl, rfl, rfl⟩

theorem finish_stages (fence : String) : (finish fence).Clears .idle := by
  refine follows_act ?_
  intro took
  cases took with
  | none => exact ⟨.idle, rfl, rfl, rfl⟩
  | some got =>
    obtain ⟨parked, port⟩ := got
    refine ⟨_, rfl, ?_⟩
    cases parked with
    | true => exact done_clears rfl rfl
    | false => exact fun _ => ⟨.idle, if_pos ⟨rfl, rfl⟩, rfl, rfl⟩

theorem discardDelta_stages (place : DeltaPlace) : (discardDelta place).Clears .idle := by
  refine follows_act ?_
  intro read
  cases read with
  | none => exact ⟨.idle, rfl, fun _ => ⟨.idle, rfl, rfl, rfl⟩⟩
  | some manifest =>
    refine ⟨.discarding place manifest, rfl, ?_⟩
    by_cases unnamed : manifest.fence = ""
    · simp only [if_pos unnamed]
      exact fun _ => ⟨.idle, rfl, rfl, rfl⟩
    · simp only [if_neg unnamed]
      refine follows_act ?_
      intro _
      exact ⟨.idle, if_pos ⟨rfl, rfl⟩, fun _ => ⟨.idle, rfl, rfl, rfl⟩⟩

end PortProg

theorem PortCall.body_stages (relay : Bool) (call : PortCall) : (call.body relay).Clears .idle := by
  cases call with
  | birth fence => exact PortProg.start_stages fence
  | resume fence place => exact PortProg.resume_stages relay fence place
  | park fence => exact PortProg.park_stages fence
  | release fence discard => exact PortProg.release_stages fence discard
  | finish fence => exact PortProg.finish_stages fence
  | claim name manifest => exact fun _ => ⟨.idle, rfl, rfl, rfl⟩
  | discard place => exact PortProg.discardDelta_stages place

def portProtocol (range : PortRange) (relay : Bool) :
    Protocol ((portKernel range relay).guarded keepsPorts) PortStage where
  inv host := host.Sound ∧ host.Listed ∧ host.Movers
  idle := .idle
  At thread stage host := host.At thread stage ∧ host.parks.get thread = stage.parks ∧
    host.Carries thread stage
  ends _ later := later.clear = true ∧ later.mover = none
  after := PortStage.after
  started := by
    rintro host rfl
    refine ⟨⟨?_, ?_, ?_⟩, fun thread => ⟨rfl, rfl, ?_⟩⟩
    · refine ⟨fun fence => ?_, by simp⟩
      constructor <;> intros <;> simp_all
    · intro fence fiber park found
      simp at found
    · intro place delta mover found
      simp at found
    · intro mover place delta _ found
      simp at found
  moved := by
    intro host thread stage action choice result next later inv here allowed ran
    obtain ⟨may, done⟩ := Kernel.guarded_perform ran
    obtain ⟨sound, listed, movers⟩ := inv
    obtain ⟨standing, parks, carries⟩ := here
    have step := PortHost.stage_step _ sound standing allowed may done
    have park := PortHost.park_step listed parks allowed done
    have carry := PortHost.carry_step sound movers standing carries allowed done
    exact ⟨⟨step.sound, park.listed, carry.movers⟩, ⟨step.here, park.here, carry.here⟩,
      fun other stage apart there => ⟨there.1.moves step.moves apart,
        (park.others other apart).trans there.2.1,
        carry.others other stage apart there.2.2⟩⟩
  bodies := PortCall.body_stages relay

namespace PortHost

/-- Whose the port is that is recorded under the fence. -/
inductive Owned (threads : PortThreads) (port : Nat) (fence : String) : Prop
  | live (fiber : PortFiber) (found : threads.shared.fibers.get fence = some fiber)
      (known : fiber.known = true) (has : fiber.port = port)
  | parked (delta : StoredDelta) (found : threads.shared.deltas.get (.own fence) = some delta)
      (here : delta.here = true) (has : delta.manifest.port = port)
  | parking (fiber : PortFiber) (thread : Nat) (busy : threads.Busy thread)
      (found : threads.shared.fibers.get fence = some fiber)
      (parks : fiber.parking = some thread) (has : fiber.port = port)
  | inHand (thread : Nat) (ending : Bool) (busy : threads.Busy thread)
      (has : threads.shared.hands.get thread = some ⟨fence, port, ending⟩)

theorem At.empty {host : PortHost} {tid : Nat} {stage : PortStage}
    (here : host.At tid stage) (clear : stage.clear = true) : host.hands.get tid = none := by
  cases stage with
  | idle => exact here
  | holding fence port source | unserved fence port | ended fence port =>
    simp [PortStage.clear] at clear
  | _ => exact here.1

theorem parks_of_clear {stage : PortStage} (clear : stage.clear = true) : stage.parks = none := by
  cases stage with
  | parking fence => simp [PortStage.clear] at clear
  | _ => rfl

variable {range : PortRange} {relay : Bool} {threads : PortThreads}

variable (kept : (portProtocol range relay).Kept threads)
include kept

theorem clear_of_idle {tid : Nat} (idle : ¬threads.Busy tid) :
    threads.shared.hands.get tid = none ∧ threads.shared.parks.get tid = none ∧
      ∃ stage : PortStage, stage.mover = none ∧ threads.shared.Carries tid stage := by
  cases got : threads.programs.get tid with
  | none =>
    obtain ⟨hands, parks, carries⟩ := kept.unused tid got
    exact ⟨hands, parks, .idle, rfl, carries⟩
  | some prog =>
    cases prog with
    | call action next => exact (idle ⟨action, next, got⟩).elim
    | done value =>
      obtain ⟨stage, here, clear, still⟩ := kept.ended got
      exact ⟨here.1.empty clear, here.2.1.trans (parks_of_clear clear), stage, still, here.2.2⟩

theorem busy_of_moving {place : DeltaPlace} {delta : StoredDelta} {mover : String}
    (got : threads.shared.deltas.get place = some delta) (here : delta.here = true)
    (moving : delta.moving = some mover) :
    ∃ tid, threads.Busy tid ∧ threads.shared.minted.get mover = some tid := by
  obtain ⟨_, _, movers⟩ : threads.shared.Sound ∧ threads.shared.Listed ∧ threads.shared.Movers :=
    kept.inv
  obtain ⟨tid, minted⟩ := Option.isSome_iff_exists.mp (movers place delta mover got moving)
  refine ⟨tid, ?_, minted⟩
  by_contra idle
  obtain ⟨_, _, stage, none, carries⟩ := clear_of_idle kept idle
  have mine := carries mover place delta minted got here moving
  simp [none] at mine

theorem owned_of_held {port : Nat} {fence : String}
    (held : threads.shared.ports.get port = some fence) : Owned threads port fence := by
  obtain ⟨sound, listed, _⟩ :
    threads.shared.Sound ∧ threads.shared.Listed ∧ threads.shared.Movers := kept.inv
  have busy {tid : Nat} (holds : threads.shared.hands.get tid ≠ none ∨
      threads.shared.parks.get tid ≠ none) : threads.Busy tid := by
    by_contra idle
    obtain ⟨hands, parks, _⟩ := clear_of_idle kept idle
    simp [hands, parks] at holds
  obtain ⟨tid, ending, hand⟩ | ⟨fiber, got, same, known | ⟨parking, _⟩⟩ |
    ⟨delta, got, here, _, same⟩ := (sound.each fence).held port held
  · exact .inHand tid ending (busy (.inl (by simp [hand]))) hand
  · exact .live fiber got known same
  · obtain ⟨park, waits⟩ := Option.isSome_iff_exists.mp parking
    have has := listed fence fiber park got waits
    exact .parking fiber park (busy (.inr (by simp [has]))) got waits same
  · exact .parked delta got here same

end PortHost

def twoPorts : PortRange := ⟨30000, 30001, by decide⟩

def noFibers : PortThreads := ⟨{}, ∅⟩

theorem noFibers_start : (portKernel twoPorts false).machine.start noFibers := ⟨rfl, rfl⟩

/-- A fiber is born, parked and resumed on the port it had, and a second one is born. -/
def portsResumed : List PortEvent :=
  .start 0 (.birth "g/1/1") :: acts 0 8 .done ++ .start 1 (.park "g/1/1") :: acts 1 2 .done ++
  .start 2 (.finish "g/1/1") :: acts 2 1 .done ++
  .start 3 (.resume "g/1/2" (.own "g/1/1")) :: acts 3 12 .done ++
  .start 4 (.birth "g/1/3") :: acts 4 8 .done

/-- A delta claimed from a home that minted the same fence is discarded while the fiber lives. -/
def discardedClaim : List PortEvent :=
  .start 0 (.birth "g/1/1") :: acts 0 8 .done ++
  .start 1 (.claim "s" ⟨"g/1/1", 30001, false⟩) :: acts 1 1 .done ++
  .start 2 (.discard (.claimed "s")) :: acts 2 3 .done ++ .start 3 (.birth "g/1/2") :: acts 3 8 .done

end Fiberd
