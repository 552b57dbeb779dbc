import Fiberd.Home.HomeRecords
import Fiberd.Home.HomeSettled

/-!
`Drain` of `pkg/core/drain.go`.  It sets the draining flag and then lists the fibers
until a list holds only fibers it tried before.  The fibers of a list are parked or
released by calls of their own, a few at a time, while every other call of the home
goes on.
-/

namespace Fiberd

open Heaps Tables Programs Machines LedgerSystem

def drainWorkers : Nat := 4

structure DrainReport where
  parked : Nat := 0
  published : Nat := 0
  shed : Nat := 0
  failed : Nat := 0
  left : Nat := 0
  deriving DecidableEq, Repr

def DrainReport.add (report other : DrainReport) : DrainReport where
  parked := report.parked + other.parked
  published := report.published + other.published
  shed := report.shed + other.shed
  failed := report.failed + other.failed
  left := report.left + other.left

inductive Fate where
  | parked
  | shed
  | failed
  | left
  | skipped
  deriving DecidableEq, Repr

def Outcome.code : Outcome → StatusCode
  | .parked _ _ code _ => code
  | .refused code _ => code
  | _ => .ok

def Outcome.ref : Outcome → String
  | .parked ref _ _ _ => ref
  | _ => ""

def Outcome.published : Outcome → Bool
  | .parked _ published _ _ => published
  | _ => false

def drainCall (info : Ledger.FiberInfo) : HomeCall :=
  if info.session = "" then .release info.id false else .park info.id true

/-- What `drainOne` reports of its call, with whether the ledger has the fiber still. -/
def drainOne (info : Ledger.FiberInfo) (outcome : Outcome) (running : Bool) : DrainReport :=
  if info.session = "" then
    match outcome.code with
    | .notFound => {}
    | .ok => { shed := 1 }
    | _ => if running then { failed := 1 } else { shed := 1 }
  else if outcome.code = .notFound then {}
  else if outcome.ref = "" then { failed := 1 }
  else if !outcome.published then { parked := 1 }
  else { parked := 1, published := 1 }

def DrainReport.fate (report : DrainReport) : Fate :=
  if report.parked = 1 then .parked
  else if report.shed = 1 then .shed
  else if report.failed = 1 then .failed
  else .skipped

/-- Where `Drain` is: between lists, in the grants of a list, starting the calls of a batch, or
waiting for them.  The last two have the fibers that are not started. -/
inductive DrainPhase where
  | idle
  | listing
  | grants (uids : List String)
  | batch (rest : List Ledger.FiberInfo) (size started : Nat)
  | waiting (rest : List Ledger.FiberInfo) (size started : Nat)
  | returned
  deriving DecidableEq

/-- The variables of `Drain`.  How many lists it began, the fibers there were when it set its
flag and what became of each it listed are marks of the model. -/
structure Drain where
  phase : DrainPhase := .idle
  tried : List String := []
  named : List Ledger.FiberInfo := []
  anon : List Ledger.FiberInfo := []
  workers : List (Nat × Ledger.FiberInfo) := []
  batch : DrainReport := {}
  report : DrainReport := {}
  rounds : Nat := 0
  recorded : List String := []
  fates : List (String × Fate) := []

namespace Drain

def list (drain : Drain) (info : Ledger.FiberInfo) : Drain :=
  if info.id ∈ drain.tried then drain
  else if info.session ≠ "" then
    { drain with tried := drain.tried ++ [info.id], named := drain.named ++ [info] }
  else { drain with tried := drain.tried ++ [info.id], anon := drain.anon ++ [info] }

def listAll (drain : Drain) (fibers : List Ledger.FiberInfo) : Drain :=
  fibers.foldl list drain

def close (drain : Drain) (ended : Bool) : Drain :=
  let list := drain.named ++ drain.anon
  if list.isEmpty then { drain with phase := .returned }
  else if ended then
    { drain with
      phase := .returned
      report := { drain.report with left := drain.report.left + list.length }
      fates := drain.fates ++ list.map fun info => (info.id, .left) }
  else { drain with phase := .batch list list.length 0, batch := {} }

def collect (drain : Drain) (thread : Nat) (info : Ledger.FiberInfo) (report : DrainReport) :
    Drain :=
  { drain with
    workers := drain.workers.erase (thread, info)
    batch := drain.batch.add report
    fates := drain.fates ++ [(info.id, report.fate)] }

def finish (drain : Drain) (rest : List Ledger.FiberInfo) (size started : Nat) : Drain :=
  let batch := { drain.batch with left := drain.batch.left + (size - started) }
  { drain with
    phase := .listing
    batch := {}
    report := drain.report.add batch
    fates := drain.fates ++ rest.map fun info => (info.id, .left) }

end Drain

structure DrainState where
  threads : HomeThreads
  ended : Bool := false
  drain : Drain := {}

/-- A step of a call of the home, the end of the context, or a step of `Drain`. -/
inductive DrainEvent where
  | home (event : HomeEvent)
  | cancel
  | begin (thread : Nat)
  | statuses
  | fibersOf
  | close
  | next (thread : Nat)
  | collect (thread : Nat) (info : Ledger.FiberInfo)
  | wait

namespace DrainState

variable (config : HomeConfig)

abbrev ledger (state : DrainState) : Ledger := state.threads.shared.ledger

def begin (state : DrainState) (thread : Nat) : Option DrainState :=
  match state.drain.phase with
  | .idle =>
    ((homeKernel config).machine.exec state.threads
      [.start thread .startDrain, .act thread (.flag true)]).map fun threads =>
        { state with
          threads := threads
          drain := { state.drain with
            phase := .listing
            recorded := state.ledger.fibers.rows.map Prod.fst } }
  | _ => none

/-- The next fiber of the batch: its call is started where a worker is free. -/
def next (state : DrainState) (thread : Nat) : Option DrainState :=
  match state.drain.phase with
  | .batch [] size started =>
    some { state with drain := { state.drain with phase := .waiting [] size started } }
  | .batch (info :: rest) size started =>
    if state.ended then
      some { state with
        drain := { state.drain with phase := .waiting (info :: rest) size started } }
    else if state.drain.workers.length < drainWorkers then
      ((homeKernel config).machine.step state.threads (.start thread (drainCall info))).map
        fun threads => { state with
          threads := threads
          drain := { state.drain with
            phase := .batch rest size (started + 1)
            workers := (thread, info) :: state.drain.workers } }
    else none
  | _ => none

def step (state : DrainState) : DrainEvent → Option DrainState
  | .home event => ((homeKernel config).machine.step state.threads event).map fun threads =>
    { state with threads := threads }
  | .cancel => some { state with ended := true }
  | .begin thread => state.begin config thread
  | .statuses =>
    match state.drain.phase with
    | .listing => some { state with
        drain := { state.drain with
          phase := .grants state.ledger.statuses
          named := []
          anon := []
          rounds := state.drain.rounds + 1 } }
    | _ => none
  | .fibersOf =>
    match state.drain.phase with
    | .grants (uid :: uids) => some { state with
        drain := { state.drain.listAll (state.ledger.fibersOf uid) with phase := .grants uids } }
    | _ => none
  | .close =>
    match state.drain.phase with
    | .grants [] => some { state with drain := state.drain.close state.ended }
    | _ => none
  | .next thread => state.next config thread
  | .collect thread info =>
    if (thread, info) ∈ state.drain.workers then
      (answerOf state.threads thread).map fun outcome => { state with
        drain := state.drain.collect thread info
          (drainOne info outcome (state.ledger.fiber? info.id).isSome) }
    else none
  | .wait =>
    match state.drain.phase, state.drain.workers with
    | .waiting rest size started, [] =>
      some { state with drain := state.drain.finish rest size started }
    | _, _ => none

end DrainState

def drainMachine (config : HomeConfig) : Machine DrainState DrainEvent where
  start state := (homeKernel config).machine.start state.threads ∧ state.drain = {}
  step state := state.step config

/-- A draining home records no fiber. -/
structure Home.Sealed (home next : Home) : Prop where
  draining : next.draining = true
  fibers : ∀ id ref, next.ledger.fibers.get id = some ref →
    ∃ old, home.ledger.fibers.get id = some old ∧ old.grantUID = ref.grantUID

theorem Home.perform_sealed {home next : Home} {thread : Nat} {action : Act} {answer : Answer}
    {out : action.Result} (draining : home.draining = true)
    (ran : home.perform thread action answer = some (out, next)) : home.Sealed next := by
  refine ⟨?_, ?_⟩
  · by_cases plain : action.touchesDraining = false
    · rw [(perform_frame ran).draining plain, draining]
    · cases action with
      | startDrain =>
        cases ran
        rfl
      | _ => exact (plain rfl).elim
  · intro id ref got
    have uncommitted : ∀ {op : LedgerOp}, home.system.apply op = some next.system →
        (∀ clone endpoint pooled, op ≠ .commit clone endpoint pooled false) →
          ∃ old, home.ledger.fibers.get id = some old ∧ old.grantUID = ref.grantUID := by
      intro op done other
      rcases fibers_apply done got with before | ⟨clone, endpoint, pooled, commits⟩
      · exact before
      · exact (other clone endpoint pooled commits).elim
    cases perform_effect ran with
    | still system _ _ _ | passed system _ _ _ _ | refused system _ _ =>
      exact ⟨ref, by rwa [Home.ledger, system] at got, rfl⟩
    | plain does done _ _ =>
      refine uncommitted done ?_
      rintro _ _ _ rfl
      cases action <;> simp [Act.plainOp] at does
    | admitted done _ _ | resolved done _ _ _ | closed done _ _ =>
      exact uncommitted done (by simp)
    | committed _ done _ _ => exact uncommitted done (by simp [draining])
    | joined _ => exact ⟨ref, (joinGate_books _ _).fibers ▸ got, rfl⟩
    | locked _ took => exact ⟨ref, (lockGate_eq took).2.1.fibers ▸ got, rfl⟩
    | _ => exact ⟨ref, got, rfl⟩

/-- The moves of a home, of which a draining one records no fiber. -/
def drainRely : Nat → Home → Act → Answer → Home → Prop :=
  fun _ home _ _ next => home.draining = true → home.Sealed next

/-- The home drains and the fiber is not in its ledger, so it never will be. -/
def FiberGone (id : String) (home : Home) : Prop :=
  home.draining = true ∧ home.ledger.fibers.get id = none

theorem draining_kept : KeptBy drainRely fun home => home.draining = true :=
  fun _ _ _ _ _ moved draining => (moved draining).draining

theorem fiberGone_kept (id : String) : KeptBy drainRely (FiberGone id) := by
  rintro _ home _ _ next moved ⟨draining, gone⟩
  have closed := moved draining
  refine ⟨closed.draining, ?_⟩
  by_contra here
  obtain ⟨ref, got⟩ := Option.ne_none_iff_exists'.mp here
  obtain ⟨old, before, _⟩ := closed.fibers id ref got
  simp [gone] at before

/-- The answers of its call after which `drainOne` does not count the fiber as failed. -/
def Outcome.settles (session : String) (outcome : Outcome) : Prop :=
  outcome.code = .notFound ∨ (if session = "" then outcome.code = .ok else outcome.ref ≠ "")

theorem perform_onPark {home next : Home} {id deltaRef : String} (thread : Nat) (answer : Answer)
    {told : (Act.onPark id deltaRef).Result}
    (ran : home.perform thread (.onPark id deltaRef) answer = some (told, next)) :
    next.ledger.fibers.get id = none := by
  have after := Option.some.inj (Home.perform_plain ran rfl)
  rw [Home.ledger, ← after]
  change (home.ledger.onPark id deltaRef).1.fibers.get id = none
  cases known : home.ledger.fibers.get id with
  | none => simp [Ledger.onPark, known]
  | some ref =>
    rw [Ledger.onPark_known deltaRef known]
    simp

section Outline

variable {config : HomeConfig} {thread : Nat} {id : String}

theorem fiber_outline {β : Type} {rest : Option Fence → Call β} {post : β → Home → Prop}
    (missing : Outline (homeKernel config) drainRely thread (rest none) (FiberGone id) post)
    (known : ∀ fence, Outline (homeKernel config) drainRely thread (rest (some fence))
      (fun home => home.draining = true) post) :
    Outline (homeKernel config) drainRely thread (Call.act (.fiber id) >>= rest)
      (fun home => home.draining = true) post := by
  refine outline_act (fun got home => home.draining = true ∧
    (got = none → home.ledger.fibers.get id = none)) ?_ ?_ ?_
  · rintro got mover home action answer next _ moved ⟨draining, gone⟩
    refine ⟨(moved draining).draining, fun none => ?_⟩
    exact (fiberGone_kept id mover home action answer next moved ⟨draining, gone none⟩).2
  · intro home answer got next draining ran _
    cases ran
    exact ⟨draining, fun none => by simpa [Ledger.fiber?] using none⟩
  · intro got
    cases got with
    | none => exact missing.weaken fun home has => ⟨has.1, has.2 rfl⟩
    | some fence => exact (known fence).weaken fun home has => has.1

theorem releaseFiber_outline (discard : Bool) :
    Outline (homeKernel config) drainRely thread (Call.releaseFiber config id discard)
      (fun home => home.draining = true) fun outcome home =>
        outcome.settles "" → FiberGone id home := by
  refine fiber_outline (fun _ gone _ => gone) fun fence => ?_
  refine outline_past draining_kept _ fun released => ?_
  cases released with
  | false => exact fun _ _ settles => by simp [Outcome.settles, Outcome.code] at settles
  | true =>
    refine outline_act (fun _ => FiberGone id) (fun _ => (fiberGone_kept id).stable) ?_ ?_
    · intro home answer gone next draining ran moved
      exact ⟨(moved draining).draining, perform_onRelease thread answer ran⟩
    · intro gone
      exact (outline_of_kept (fiberGone_kept id) _).mono fun _ _ gone _ => gone

theorem parkHeld_settles (fence : Fence) {session : String} (named : session ≠ "") (sync : Bool) :
    Outline (homeKernel config) drainRely thread (Call.parkHeld config fence id sync)
      (fun home => home.draining = true) fun outcome home =>
        outcome.settles session → FiberGone id home := by
  refine outline_past draining_kept _ fun stored => ?_
  by_cases refused : stored.1 = ""
  · simp only [refused, if_true]
    split <;>
      exact fun _ _ settles => by simp [Outcome.settles, Outcome.code, Outcome.ref, named] at settles
  · simp only [refused, if_false]
    refine outline_act (fun _ => FiberGone id) (fun _ => (fiberGone_kept id).stable) ?_ ?_
    · intro home answer told next draining ran moved
      exact ⟨(moved draining).draining, perform_onPark thread answer ran⟩
    · intro told
      exact (outline_of_kept (fiberGone_kept id) _).mono fun _ _ gone _ => gone

theorem park_settles {session : String} (named : session ≠ "") (sync : Bool) :
    Outline (homeKernel config) drainRely thread (Call.park config id sync)
      (fun home => home.draining = true) fun outcome home =>
        outcome.settles session → FiberGone id home := by
  refine fiber_outline (fun _ gone _ => gone) fun fence => ?_
  refine outline_past draining_kept _ fun got => ?_
  have unsettled : ∀ code error, code ≠ .notFound → ∀ home : Home, home.draining = true →
      (Outcome.parked "" false code error).settles session → FiberGone id home := by
    intro code error other home _ settles
    simp [Outcome.settles, Outcome.code, Outcome.ref, named, other] at settles
  split
  · exact unsettled _ _ (by simp)
  · refine outline_past draining_kept _ fun held => ?_
    split
    · exact unsettled _ _ (by simp)
    · refine outline_past draining_kept _ fun _ => ?_
      refine (parkHeld_settles fence named sync).bind fun outcome => ?_
      have carried : KeptBy drainRely fun home =>
          outcome.settles session → FiberGone id home := by
        intro mover home action answer next moved has settles
        exact fiberGone_kept id mover home action answer next moved (has settles)
      exact outline_past carried _ fun _ => fun _ has => has

theorem drainCall_outline (info : Ledger.FiberInfo) :
    Outline (homeKernel config) drainRely thread ((drainCall info).body config)
      (fun home => home.draining = true) fun outcome home =>
        outcome.settles info.session → FiberGone info.id home := by
  unfold drainCall
  split
  · rename_i bare
    rw [bare]
    exact releaseFiber_outline false
  · rename_i named
    exact park_settles named true

end Outline

end Fiberd
