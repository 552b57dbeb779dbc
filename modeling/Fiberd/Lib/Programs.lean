import Fiberd.Lib.Machines
import Fiberd.Lib.Tables
import Mathlib.Data.List.Induction

/-!
Calls as programs of atomic actions.  Any number of calls run at once over one
shared state; an event starts a call or performs the next action of a running
one, so a run of the machine is one interleaving.

Two ways to reason about a call are given.  A protocol says which actions a call
may take and what it holds between them, and every interleaving of calls that
follow it keeps the protocol's invariant.  An outline follows one call through
assertions that the actions of the others keep.
-/

namespace Programs

open Machines Tables

inductive Prog (α : Type) (ρ : α → Type) (β : Type) where
  | done (value : β)
  | call (action : α) (next : ρ action → Prog α ρ β)

section Syntax

variable {α : Type} {ρ : α → Type} {β γ : Type}

def Prog.bind : Prog α ρ β → (β → Prog α ρ γ) → Prog α ρ γ
  | .done value, rest => rest value
  | .call action next, rest => .call action fun result => (next result).bind rest

def Prog.act (action : α) : Prog α ρ (ρ action) := .call action .done

instance : Monad (Prog α ρ) where
  pure := .done
  bind := Prog.bind

@[simp] theorem pure_eq_done (value : β) : (pure value : Prog α ρ β) = .done value := rfl

@[simp] theorem done_bind (value : β) (rest : β → Prog α ρ γ) :
    (Prog.done value : Prog α ρ β) >>= rest = rest value := rfl

@[simp] theorem call_bind (action : α) (next : ρ action → Prog α ρ β)
    (rest : β → Prog α ρ γ) :
    Prog.call action next >>= rest = .call action fun out => next out >>= rest := rfl

@[simp] theorem act_bind (action : α) (rest : ρ action → Prog α ρ γ) :
    (Prog.act action : Prog α ρ _) >>= rest = .call action rest := rfl

end Syntax

structure Kernel (σ α : Type) (ρ : α → Type) (χ κ β : Type) where
  start : σ → Prop
  perform : σ → Nat → (action : α) → χ → Option (ρ action × σ)
  body : κ → Prog α ρ β

structure Threads (σ α : Type) (ρ : α → Type) (β : Type) where
  shared : σ
  programs : Table Nat (Prog α ρ β)

inductive Event (κ χ : Type) where
  | start (thread : Nat) (call : κ)
  | act (thread : Nat) (choice : χ)

variable {σ α : Type} {ρ : α → Type} {χ κ β : Type}

/-- One thread alone, with the same answer throughout. -/
def acts (thread count : Nat) (choice : χ) : List (Event κ χ) :=
  List.replicate count (.act thread choice)

theorem outcome_eq {out other : β} {state next : σ}
    (ran : some (out, state) = some (other, next)) : out = other ∧ state = next :=
  Prod.mk.inj (Option.some.inj ran)

theorem passed_eq {test : Prop} [Decidable test] {value other : β}
    (passed : (if test then some value else none) = some other) : test ∧ value = other := by
  simpa using passed

def Prog.isDone : Prog α ρ β → Bool
  | .done _ => true
  | .call _ _ => false

def Threads.ended (threads : Threads σ α ρ β) : Bool :=
  threads.programs.rows.all fun row => row.2.isDone

theorem Threads.done_of_ended {threads : Threads σ α ρ β} (ended : threads.ended = true)
    {thread : Nat} {program : Prog α ρ β} (got : threads.programs.get thread = some program) :
    ∃ value, program = .done value := by
  have done := List.all_eq_true.mp ended _ ((mem_rows_iff _ _ _).mpr got)
  cases program with
  | done value => exact ⟨value, rfl⟩
  | call action next => simp [Prog.isDone] at done

/-- The thread has not returned. -/
def Threads.Busy (threads : Threads σ α ρ β) (thread : Nat) : Prop :=
  ∃ action next, threads.programs.get thread = some (.call action next)

theorem Threads.not_busy_of_ended {threads : Threads σ α ρ β} (ended : threads.ended = true)
    (thread : Nat) : ¬threads.Busy thread := by
  rintro ⟨action, next, got⟩
  obtain ⟨value, same⟩ := done_of_ended ended got
  cases same

namespace Kernel

def step (kernel : Kernel σ α ρ χ κ β) (threads : Threads σ α ρ β) :
    Event κ χ → Option (Threads σ α ρ β)
  | .start thread call =>
    match threads.programs.get thread with
    | some _ => none
    | none => some { threads with
        programs := threads.programs.put thread (kernel.body call) }
  | .act thread choice =>
    match threads.programs.get thread with
    | some (.call action next) =>
      (kernel.perform threads.shared thread action choice).map fun outcome =>
        ⟨outcome.2, threads.programs.put thread (next outcome.1)⟩
    | _ => none

def machine (kernel : Kernel σ α ρ χ κ β) : Machine (Threads σ α ρ β) (Event κ χ) where
  start threads := kernel.start threads.shared ∧ threads.programs = ∅
  step := kernel.step

variable {kernel : Kernel σ α ρ χ κ β} {threads next : Threads σ α ρ β}

variable {thread : Nat}

theorem step_start {call : κ}
    (took : kernel.machine.step threads (.start thread call) = some next) :
    threads.programs.get thread = none ∧
      next = { threads with programs := threads.programs.put thread (kernel.body call) } := by
  simp only [machine, step] at took
  split at took
  · simp at took
  · rename_i unused
    simp only [Option.some.injEq] at took
    exact ⟨unused, took.symm⟩

theorem step_act {choice : χ}
    (took : kernel.machine.step threads (.act thread choice) = some next) :
    ∃ action rest out shared, threads.programs.get thread = some (.call action rest) ∧
        kernel.perform threads.shared thread action choice = some (out, shared) ∧
        next = ⟨shared, threads.programs.put thread (rest out)⟩ := by
  simp only [machine, step] at took
  split at took
  · rename_i action rest runs
    obtain ⟨⟨out, shared⟩, ran, rfl⟩ := Option.map_eq_some_iff.mp took
    exact ⟨action, rest, out, shared, runs, ran, rfl⟩
  · simp at took

/-- The step of a call whose next action is known. -/
theorem step_act_call {choice : χ} {action : α} {rest : ρ action → Prog α ρ β}
    (runs : threads.programs.get thread = some (.call action rest))
    (took : kernel.machine.step threads (.act thread choice) = some next) :
    ∃ out shared, kernel.perform threads.shared thread action choice = some (out, shared) ∧
      next = ⟨shared, threads.programs.put thread (rest out)⟩ := by
  simp only [machine, step, runs] at took
  obtain ⟨⟨out, shared⟩, ran, rfl⟩ := Option.map_eq_some_iff.mp took
  exact ⟨out, shared, ran, rfl⟩

theorem step_of_perform {choice : χ} {action : α} {rest : ρ action → Prog α ρ β} {out : ρ action}
    {shared : σ} (runs : threads.programs.get thread = some (.call action rest))
    (ran : kernel.perform threads.shared thread action choice = some (out, shared)) :
    kernel.machine.step threads (.act thread choice) =
      some ⟨shared, threads.programs.put thread (rest out)⟩ := by
  simp [machine, step, runs, ran]

section Guards

variable (may : σ → Nat → α → χ → Bool)

/-- The kernel whose calls perform only what they may. -/
def guarded (kernel : Kernel σ α ρ χ κ β) (may : σ → Nat → α → χ → Bool) :
    Kernel σ α ρ χ κ β where
  start := kernel.start
  perform shared thread action choice :=
    if may shared thread action choice then kernel.perform shared thread action choice else none
  body := kernel.body

/-- The action a call comes to is one it may perform. -/
def Allows (threads : Threads σ α ρ β) : Event κ χ → Prop
  | .start _ _ => True
  | .act thread choice =>
    match threads.programs.get thread with
    | some (.call action _) => may threads.shared thread action choice = true
    | _ => True

instance (threads : Threads σ α ρ β) (event : Event κ χ) :
    Decidable (Allows may threads event) := by
  unfold Allows
  split
  · exact inferInstance
  · split <;> exact inferInstance

variable {may}

variable {events : List (Event κ χ)}

theorem meets_and {also : σ → Nat → α → χ → Bool}
    (one : kernel.machine.Meets (Allows may) threads events)
    (other : kernel.machine.Meets (Allows also) threads events) :
    kernel.machine.Meets (Allows fun shared thread action choice =>
      may shared thread action choice && also shared thread action choice) threads events := by
  refine one.both other ?_
  intro threads event first second
  cases event with
  | start thread call => trivial
  | act thread choice =>
    simp only [Allows] at first second ⊢
    split
    · rename_i runs
      simp only [runs] at first second
      simp [first, second]
    · trivial

theorem guarded_perform {shared next : σ} {thread : Nat} {action : α} {choice : χ} {out : ρ action}
    (ran : (kernel.guarded may).perform shared thread action choice = some (out, next)) :
    may shared thread action choice = true ∧
      kernel.perform shared thread action choice = some (out, next) := by
  simp only [guarded] at ran
  split at ran
  · rename_i allowed
    exact ⟨allowed, ran⟩
  · simp at ran

theorem guarded_step {event : Event κ χ} (allows : Allows may threads event)
    (took : kernel.machine.step threads event = some next) :
    (kernel.guarded may).machine.step threads event = some next := by
  cases event with
  | start thread call => exact took
  | act thread choice =>
    obtain ⟨action, rest, out, shared, runs, ran, rfl⟩ := step_act took
    simp only [Allows, runs] at allows
    simp [machine, step, runs, guarded, allows, ran]

/-- A run of allowed actions is a run of the guarded kernel. -/
theorem guarded_exec {final : Threads σ α ρ β}
    (meets : kernel.machine.Meets (Allows may) threads events)
    (run : kernel.machine.exec threads events = some final) :
    (kernel.guarded may).machine.exec threads events = some final := by
  induction events generalizing threads with
  | nil => exact run
  | cons event events ih =>
    obtain ⟨mid, took, rest⟩ := exec_cons_eq_some.mp run
    exact exec_cons_eq_some.mpr
      ⟨mid, guarded_step meets.1 took, ih (meets.2 mid took) rest⟩

/-- What the allowed actions keep of the shared state, a run of them keeps. -/
theorem exec_shared_of_allows {property : σ → Prop}
    (kept : ∀ shared thread action choice (out : ρ action) after, property shared →
      may shared thread action choice = true →
      kernel.perform shared thread action choice = some (out, after) → property after)
    {final : Threads σ α ρ β} (holds : property threads.shared)
    (meets : kernel.machine.Meets (Allows may) threads events)
    (run : kernel.machine.exec threads events = some final) : property final.shared := by
  have step : ∀ (threads : Threads σ α ρ β) event next, property threads.shared →
      Allows may threads event → kernel.machine.step threads event = some next →
        property next.shared := by
    intro threads event next holds allows took
    cases event with
    | start thread call =>
      obtain ⟨_, rfl⟩ := step_start took
      exact holds
    | act thread choice =>
      obtain ⟨action, rest, out, shared, runs, ran, rfl⟩ := step_act took
      simp only [Allows, runs] at allows
      exact kept _ thread action choice out shared holds allows ran
  exact exec_keeps_of_meets step holds meets run

end Guards

theorem exec_shared {property : σ → Prop}
    (kept : ∀ shared thread action choice (out : ρ action) after, property shared →
      kernel.perform shared thread action choice = some (out, after) → property after)
    {events : List (Event κ χ)} {final : Threads σ α ρ β} (holds : property threads.shared)
    (run : kernel.machine.exec threads events = some final) : property final.shared := by
  have all : ∀ (threads : Threads σ α ρ β) event,
      Allows (fun _ _ _ _ => true) threads (event : Event κ χ) := by
    intro threads event
    cases event with
    | start thread call => trivial
    | act thread choice =>
      simp only [Allows]
      split <;> trivial
  exact exec_shared_of_allows
    (fun shared thread action choice out after holds _ => kept shared thread action choice
      out after holds) holds (meets_of_forall all threads events) run

/-- What holds at the start and every action keeps holds of every reachable shared state. -/
theorem reachable_shared {property : σ → Prop}
    (initial : ∀ shared, kernel.start shared → property shared)
    (kept : ∀ shared thread action choice (out : ρ action) after, property shared →
      kernel.perform shared thread action choice = some (out, after) → property after)
    (reached : kernel.machine.Reachable threads) : property threads.shared := by
  obtain ⟨first, events, started, run⟩ := reached
  exact exec_shared kept (initial _ started.1) run

end Kernel

section Protocols

variable {ℓ : Type}

/-- The program may take its actions from what it holds, and ends in a state with the post. -/
def Prog.Follows {γ : Type} (after : ℓ → (action : α) → ρ action → Option ℓ) :
    Prog α ρ γ → ℓ → (γ → ℓ → Prop) → Prop
  | .done value, holds, post => post value holds
  | .call action next, holds, post =>
    ∀ result, ∃ later, after holds action result = some later ∧
      (next result).Follows after later post

variable {γ : Type} {after : ℓ → (action : α) → ρ action → Option ℓ} {holds : ℓ}

theorem Prog.Follows.mono {program : Prog α ρ γ} {post weaker : γ → ℓ → Prop}
    (follows : program.Follows after holds post)
    (weaken : ∀ value later, post value later → weaker value later) :
    program.Follows after holds weaker := by
  induction program generalizing holds with
  | done value => exact weaken value holds follows
  | call action next ih =>
    intro out
    obtain ⟨later, may, rest⟩ := follows out
    exact ⟨later, may, ih out rest⟩

theorem Prog.Follows.bind {δ : Type} {program : Prog α ρ γ} {rest : γ → Prog α ρ δ}
    {mid : γ → ℓ → Prop} {post : δ → ℓ → Prop} (first : program.Follows after holds mid)
    (second : ∀ value later, mid value later → (rest value).Follows after later post) :
    (program >>= rest).Follows after holds post := by
  induction program generalizing holds with
  | done value => exact second value holds first
  | call action next ih =>
    intro out
    obtain ⟨later, may, follows⟩ := first out
    exact ⟨later, may, ih out follows⟩

theorem follows_act {action : α} {rest : ρ action → Prog α ρ γ} {post : γ → ℓ → Prop}
    (step : ∀ result, ∃ later, after holds action result = some later ∧
      (rest result).Follows after later post) : (Prog.act action >>= rest).Follows after holds post :=
  step

/-- Every action of the program is one of the allowed ones. -/
def Prog.Only {γ : Type} (allowed : α → Prop) : Prog α ρ γ → Prop
  | .done _ => True
  | .call action next => allowed action ∧ ∀ result, (next result).Only allowed

theorem Prog.Only.bind {δ : Type} {may : α → Prop} {program : Prog α ρ γ}
    {rest : γ → Prog α ρ δ} (first : program.Only may)
    (second : ∀ value, (rest value).Only may) : (program >>= rest).Only may := by
  induction program with
  | done value => exact second value
  | call action next ih => exact ⟨first.1, fun out => ih out (first.2 out)⟩

theorem Prog.Only.mono {may wider : α → Prop} {program : Prog α ρ γ}
    (only : program.Only may) (widen : ∀ action, may action → wider action) :
    program.Only wider := by
  induction program with
  | done value => trivial
  | call action next ih => exact ⟨widen action only.1, fun out => ih out (only.2 out)⟩

theorem Prog.only_of_forall {may : α → Prop} (all : ∀ action, may action)
    (program : Prog α ρ γ) : program.Only may := by
  induction program with
  | done value => trivial
  | call action next ih => exact ⟨all action, ih⟩

/-- A program of actions that change nothing it holds. -/
theorem Prog.Only.follows {may : α → Prop} {program : Prog α ρ γ} (only : program.Only may)
    (unchanged : ∀ action out, may action → after holds action out = some holds) :
    program.Follows after holds fun _ later => later = holds := by
  induction program with
  | done value => rfl
  | call action next ih =>
    intro out
    exact ⟨holds, unchanged action out only.1, ih out (only.2 out)⟩

/-- Every value the program may end with is good. -/
def Prog.Results {γ : Type} (good : γ → Prop) : Prog α ρ γ → Prop
  | .done value => good value
  | .call _ next => ∀ result, (next result).Results good

theorem Prog.results_bind {δ : Type} {good : δ → Prop} (program : Prog α ρ γ)
    {rest : γ → Prog α ρ δ} (last : ∀ value, (rest value).Results good) :
    (program >>= rest).Results good := by
  induction program with
  | done value => exact last value
  | call action next ih => exact ih

theorem Prog.Results.mono {good weaker : γ → Prop} {program : Prog α ρ γ}
    (results : program.Results good) (weaken : ∀ value, good value → weaker value) :
    program.Results weaker := by
  induction program with
  | done value => exact weaken value results
  | call action next ih => exact fun out => ih out (results out)

theorem Prog.Follows.with_results {program : Prog α ρ γ} {post : γ → ℓ → Prop} {good : γ → Prop}
    (follows : program.Follows after holds post) (results : program.Results good) :
    program.Follows after holds fun value later => post value later ∧ good value := by
  induction program generalizing holds with
  | done value => exact ⟨follows, results⟩
  | call action next ih =>
    intro out
    obtain ⟨later, may, rest⟩ := follows out
    exact ⟨later, may, ih out rest (results out)⟩

/-- A call that is running was started, and has only actions of its body left. -/
theorem started_of_running {may : κ → α → Prop} {kernel : Kernel σ α ρ χ κ β}
    (bodies : ∀ call, (kernel.body call).Only (may call)) {first threads : Threads σ α ρ β}
    {events : List (Event κ χ)} (started : kernel.machine.start first)
    (run : kernel.machine.exec first events = some threads) {thread : Nat} {program : Prog α ρ β}
    (got : threads.programs.get thread = some program) :
    ∃ call, Event.start thread call ∈ events ∧ program.Only (may call) := by
  induction events using List.reverseRecOn generalizing threads program with
  | nil =>
    simp only [exec_nil] at run
    cases run
    simp [started.2] at got
  | append_singleton events event ih =>
    obtain ⟨mid, old, last⟩ := exec_append_eq_some.mp run
    obtain ⟨next, took, rest⟩ := exec_cons_eq_some.mp last
    simp only [exec_nil] at rest
    cases rest
    have earlier : ∀ {program}, mid.programs.get thread = some program →
        ∃ call, Event.start thread call ∈ events ++ [event] ∧ program.Only (may call) := by
      intro program runs
      obtain ⟨call, mem, only⟩ := ih old runs
      exact ⟨call, List.mem_append_left _ mem, only⟩
    cases event with
    | start other call =>
      obtain ⟨_, rfl⟩ := Kernel.step_start took
      obtain ⟨same, rfl⟩ | ⟨_, got⟩ := get_put_eq_some got
      · subst same
        exact ⟨call, by simp, bodies call⟩
      · exact earlier got
    | act other choice =>
      obtain ⟨action, left, out, shared, runs, _, rfl⟩ := Kernel.step_act took
      obtain ⟨same, rfl⟩ | ⟨_, got⟩ := get_put_eq_some got
      · subst same
        obtain ⟨call, mem, only⟩ := earlier runs
        exact ⟨call, mem, only.2 out⟩
      · exact earlier got

/-- What a call holds between its actions and when it ends, and the invariant all calls keep
together. -/
structure Protocol (kernel : Kernel σ α ρ χ κ β) (ℓ : Type) where
  inv : σ → Prop
  idle : ℓ
  At : Nat → ℓ → σ → Prop
  ends : β → ℓ → Prop
  after : ℓ → (action : α) → ρ action → Option ℓ
  started : ∀ shared, kernel.start shared → inv shared ∧ ∀ thread, At thread idle shared
  moved : ∀ shared thread holds action choice result next later, inv shared →
    At thread holds shared → after holds action result = some later →
    kernel.perform shared thread action choice = some (result, next) →
      inv next ∧ At thread later next ∧
        ∀ other held, other ≠ thread → At other held shared → At other held next
  bodies : ∀ call, (kernel.body call).Follows after idle ends

namespace Protocol

variable {kernel : Kernel σ α ρ χ κ β} (protocol : Protocol kernel ℓ)

structure Kept (threads : Threads σ α ρ β) : Prop where
  inv : protocol.inv threads.shared
  unused : ∀ thread, threads.programs.get thread = none →
    protocol.At thread protocol.idle threads.shared
  running : ∀ thread program, threads.programs.get thread = some program →
    ∃ holds, protocol.At thread holds threads.shared ∧
      program.Follows protocol.after holds protocol.ends

variable {protocol}

variable {threads : Threads σ α ρ β}

theorem Kept.start (kept : protocol.Kept threads) (thread : Nat) (call : κ)
    (unused : threads.programs.get thread = none) :
    protocol.Kept { threads with
      programs := threads.programs.put thread (kernel.body call) } := by
  refine ⟨kept.inv, ?_, ?_⟩
  · intro query gone
    simp only [get_put] at gone
    split at gone
    · simp at gone
    · exact kept.unused query gone
  · intro query program got
    obtain ⟨same, rfl⟩ | ⟨_, got⟩ := get_put_eq_some got
    · subst query
      exact ⟨protocol.idle, kept.unused thread unused, protocol.bodies call⟩
    · exact kept.running query program got

theorem Kept.act (kept : protocol.Kept threads) {thread : Nat} {action : α} {choice : χ}
    {rest : ρ action → Prog α ρ β} {out : ρ action} {shared : σ}
    (runs : threads.programs.get thread = some (.call action rest))
    (ran : kernel.perform threads.shared thread action choice = some (out, shared)) :
    protocol.Kept ⟨shared, threads.programs.put thread (rest out)⟩ := by
  obtain ⟨holds, here, follows⟩ := kept.running thread _ runs
  obtain ⟨later, may, onward⟩ := follows out
  obtain ⟨inv, there, others⟩ := protocol.moved _ _ _ _ _ _ _ _ kept.inv here may ran
  refine ⟨inv, ?_, ?_⟩
  · intro query gone
    simp only [get_put] at gone
    split at gone
    · simp at gone
    · rename_i apart
      exact others query _ apart (kept.unused query gone)
  · intro query program got
    obtain ⟨same, rfl⟩ | ⟨apart, got⟩ := get_put_eq_some got
    · subst query
      exact ⟨later, there, onward⟩
    · obtain ⟨held, at_, alongside⟩ := kept.running query program got
      exact ⟨held, others query held apart at_, alongside⟩

theorem kept_of_reachable (reached : kernel.machine.Reachable threads) : protocol.Kept threads := by
  refine reached.keeps ?_ ?_
  · rintro threads ⟨started, none⟩
    obtain ⟨inv, idle⟩ := protocol.started _ started
    exact ⟨inv, fun thread _ => idle thread, by simp [none]⟩
  · intro threads event next kept took
    cases event with
    | start thread call =>
      obtain ⟨unused, rfl⟩ := Kernel.step_start took
      exact kept.start thread call unused
    | act thread choice =>
      obtain ⟨action, rest, out, shared, runs, ran, rfl⟩ := Kernel.step_act took
      exact kept.act runs ran

/-- Every action a reachable call performs is one its protocol allows. -/
theorem Kept.allowed (kept : protocol.Kept threads) {thread : Nat} {action : α}
    {rest : ρ action → Prog α ρ β}
    (runs : threads.programs.get thread = some (.call action rest)) (out : ρ action) :
    ∃ holds later, protocol.At thread holds threads.shared ∧
      protocol.after holds action out = some later := by
  obtain ⟨holds, here, follows⟩ := kept.running thread _ runs
  obtain ⟨later, may, _⟩ := follows out
  exact ⟨holds, later, here, may⟩

/-- What a call holds when it has ended. -/
theorem Kept.ended (kept : protocol.Kept threads) {thread : Nat} {value : β}
    (done : threads.programs.get thread = some (.done value)) :
    ∃ holds, protocol.At thread holds threads.shared ∧ protocol.ends value holds :=
  kept.running thread _ done

end Protocol

end Protocols

section Outlines

variable (kernel : Kernel σ α ρ χ κ β) (rely : Nat → σ → α → χ → σ → Prop) (thread : Nat)

/-- Every action keeps the assertion. -/
def KeptBy (assertion : σ → Prop) : Prop :=
  ∀ mover shared action choice next, rely mover shared action choice next → assertion shared →
    assertion next

/-- The actions of the other calls keep the assertion. -/
def Stable (assertion : σ → Prop) : Prop :=
  ∀ other shared action choice next, other ≠ thread → rely other shared action choice next →
    assertion shared → assertion next

def Outline {γ : Type} : Prog α ρ γ → (σ → Prop) → (γ → σ → Prop) → Prop
  | .done value, assertion, post => ∀ shared, assertion shared → post value shared
  | .call action next, assertion, post =>
    ∀ shared choice result after, assertion shared →
      kernel.perform shared thread action choice = some (result, after) →
      rely thread shared action choice after →
        ∃ later, Stable rely thread later ∧ later after ∧ Outline (next result) later post

/-- The action moves the shared state as the rely says. -/
def Relies (threads : Threads σ α ρ β) (event : Event κ χ) : Prop :=
  match event with
  | .start _ _ => True
  | .act mover choice => ∀ action rest result shared,
      threads.programs.get mover = some (.call action rest) →
      kernel.perform threads.shared mover action choice = some (result, shared) →
        rely mover threads.shared action choice shared

variable {kernel rely thread}

theorem relies_of_perform (moves : ∀ shared mover action choice result next,
      kernel.perform shared mover action choice = some (result, next) →
        rely mover shared action choice next) (threads : Threads σ α ρ β) (event : Event κ χ) :
    Relies kernel rely threads event := by
  cases event with
  | start mover call => trivial
  | act mover choice => exact fun _ _ _ _ _ ran => moves _ _ _ _ _ _ ran

variable {assertion : σ → Prop}

theorem KeptBy.stable (kept : KeptBy rely assertion) : Stable rely thread assertion :=
  fun other shared action choice next _ => kept other shared action choice next

variable {threads : Threads σ α ρ β}

/-- What every move keeps is kept by a run. -/
theorem relies_keep (kept : KeptBy rely assertion) {final : Threads σ α ρ β}
    {events : List (Event κ χ)} (relies : kernel.machine.Meets (Relies kernel rely) threads events)
    (run : kernel.machine.exec threads events = some final) (holds : assertion threads.shared) :
    assertion final.shared := by
  have step : ∀ (state : Threads σ α ρ β) event next, assertion state.shared →
      Relies kernel rely state event → kernel.machine.step state event = some next →
        assertion next.shared := by
    intro state event next holds relies took
    cases event with
    | start mover call =>
      obtain ⟨_, rfl⟩ := Kernel.step_start took
      exact holds
    | act mover choice =>
      obtain ⟨action, rest, out, shared, runs, ran, rfl⟩ := Kernel.step_act took
      exact kept mover _ action choice _ (relies action rest out shared runs ran)
        holds
  exact exec_keeps_of_meets step holds relies run

variable {γ : Type} {program : Prog α ρ γ}

theorem Outline.weaken {stronger : σ → Prop} {post : γ → σ → Prop}
    (outline : Outline kernel rely thread program assertion post)
    (implies : ∀ shared, stronger shared → assertion shared) :
    Outline kernel rely thread program stronger post := by
  cases program with
  | done value => exact fun shared holds => outline shared (implies shared holds)
  | call action next =>
    intro shared choice out after holds ran moved
    exact outline shared choice out after (implies shared holds) ran moved

theorem Outline.mono {post weaker : γ → σ → Prop}
    (outline : Outline kernel rely thread program assertion post)
    (implies : ∀ value shared, post value shared → weaker value shared) :
    Outline kernel rely thread program assertion weaker := by
  induction program generalizing assertion with
  | done value => exact fun shared holds => implies value shared (outline shared holds)
  | call action next ih =>
    intro shared choice out after holds ran moved
    obtain ⟨later, stable, reached, rest⟩ :=
      outline shared choice out after holds ran moved
    exact ⟨later, stable, reached, ih out rest⟩

theorem Outline.bind {δ : Type} {rest : γ → Prog α ρ δ} {mid : γ → σ → Prop}
    {post : δ → σ → Prop} (first : Outline kernel rely thread program assertion mid)
    (second : ∀ value, Outline kernel rely thread (rest value) (mid value) post) :
    Outline kernel rely thread (program >>= rest) assertion post := by
  induction program generalizing assertion with
  | done value => exact (second value).weaken first
  | call action next ih =>
    intro shared choice out after holds ran moved
    obtain ⟨later, stable, reached, outline⟩ :=
      first shared choice out after holds ran moved
    exact ⟨later, stable, reached, ih out outline⟩

/-- One action, and what is asserted for each of its results. -/
theorem outline_act {action : α} {rest : ρ action → Prog α ρ γ} {post : γ → σ → Prop}
    (later : ρ action → σ → Prop) (stable : ∀ out, Stable rely thread (later out))
    (own : ∀ shared choice out after, assertion shared →
      kernel.perform shared thread action choice = some (out, after) →
      rely thread shared action choice after → later out after)
    (last : ∀ out, Outline kernel rely thread (rest out) (later out) post) :
    Outline kernel rely thread (Prog.act action >>= rest) assertion post := by
  intro shared choice out after holds ran moved
  exact ⟨later out, stable out, own shared choice out after holds ran moved,
    last out⟩

/-- An action that keeps the assertion. -/
theorem Outline.frame {action : α} {next : ρ action → Prog α ρ γ} {post : γ → σ → Prop}
    (stable : Stable rely thread assertion) (own : ∀ shared choice out after, assertion shared →
      kernel.perform shared thread action choice = some (out, after) →
      rely thread shared action choice after → assertion after)
    (rest : ∀ out, Outline kernel rely thread (next out) assertion post) :
    Outline kernel rely thread (.call action next) assertion post := by
  intro shared choice out after holds ran moved
  exact ⟨assertion, stable, own shared choice out after holds ran moved, rest out⟩

/-- What every move keeps holds to the end of any program. -/
theorem outline_of_kept (kept : KeptBy rely assertion) (program : Prog α ρ γ) :
    Outline kernel rely thread program assertion fun _ => assertion := by
  induction program with
  | done value => exact fun _ holds => holds
  | call action next ih =>
    refine Outline.frame kept.stable ?_ ih
    intro shared choice _ after holds _ moved
    exact kept thread shared action choice after moved holds

/-- What every move keeps is carried past any program. -/
theorem outline_past {δ : Type} {post : δ → σ → Prop} (kept : KeptBy rely assertion)
    (program : Prog α ρ γ) {rest : γ → Prog α ρ δ}
    (last : ∀ value, Outline kernel rely thread (rest value) assertion post) :
    Outline kernel rely thread (program >>= rest) assertion post :=
  (outline_of_kept kept program).bind last

theorem outline_of_results {good : γ → Prop} (results : program.Results good) :
    Outline kernel rely thread program (fun _ => True) fun value _ => good value := by
  induction program with
  | done value => exact fun _ _ => results
  | call action next ih =>
    intro shared choice out after _ _ _
    exact ⟨fun _ => True, fun _ _ _ _ _ _ _ _ => trivial, trivial, ih out (results out)⟩

/-- Where the call is now, with what it may still assert. -/
def Outlined (kernel : Kernel σ α ρ χ κ β) (rely : Nat → σ → α → χ → σ → Prop) (thread : Nat)
    (post : β → σ → Prop) (threads : Threads σ α ρ β) : Prop :=
  ∃ program assertion, threads.programs.get thread = some program ∧
    Stable rely thread assertion ∧ assertion threads.shared ∧
      Outline kernel rely thread program assertion post

variable {next : Threads σ α ρ β}

theorem outlined_from {post : β → σ → Prop} {call : κ}
    (took : kernel.machine.step threads (.start thread call) = some next)
    (stable : Stable rely thread assertion) (holds : assertion threads.shared)
    (outline : Outline kernel rely thread (kernel.body call) assertion post) :
    Outlined kernel rely thread post next := by
  obtain ⟨_, rfl⟩ := Kernel.step_start took
  exact ⟨kernel.body call, assertion, by simp, stable, holds, outline⟩

theorem outlined_start {post : β → σ → Prop} {call : κ}
    (took : kernel.machine.step threads (.start thread call) = some next)
    (outline : Outline kernel rely thread (kernel.body call) (fun _ => True) post) :
    Outlined kernel rely thread post next :=
  outlined_from took (fun _ _ _ _ _ _ _ _ => trivial) trivial outline

theorem Outlined.step {post : β → σ → Prop} {event : Event κ χ}
    (outlined : Outlined kernel rely thread post threads)
    (relies : Relies kernel rely threads event)
    (took : kernel.machine.step threads event = some next) :
    Outlined kernel rely thread post next := by
  obtain ⟨program, assertion, got, stable, holds, outline⟩ := outlined
  cases event with
  | start mover call =>
    obtain ⟨unused, rfl⟩ := Kernel.step_start took
    have apart : thread ≠ mover := by
      rintro rfl
      simp [unused] at got
    exact ⟨program, assertion, by simp [get_put, apart, got], stable, holds, outline⟩
  | act mover choice =>
    obtain ⟨action, rest, out, shared, runs, ran, rfl⟩ := Kernel.step_act took
    have moved := relies action rest out shared runs ran
    by_cases same : thread = mover
    · subst mover
      simp only [got] at runs
      cases runs
      obtain ⟨later, stays, reached, onward⟩ :=
        outline _ choice out shared holds ran moved
      exact ⟨rest out, later, by simp, stays, reached, onward⟩
    · refine ⟨program, assertion, by simp [get_put, same, got], stable, ?_, outline⟩
      exact stable mover _ action choice _ (Ne.symm same) moved holds

theorem Outlined.run {post : β → σ → Prop} {final : Threads σ α ρ β} {events : List (Event κ χ)}
    (outlined : Outlined kernel rely thread post threads)
    (relies : kernel.machine.Meets (Relies kernel rely) threads events)
    (run : kernel.machine.exec threads events = some final) :
    Outlined kernel rely thread post final :=
  exec_keeps_of_meets (fun _ _ _ outlined relies took => outlined.step relies took)
    outlined relies run

theorem Outlined.post {post : β → σ → Prop} {value : β}
    (outlined : Outlined kernel rely thread post threads)
    (ended : threads.programs.get thread = some (.done value)) : post value threads.shared := by
  obtain ⟨program, assertion, got, _, holds, outline⟩ := outlined
  simp only [ended] at got
  cases got
  exact outline _ holds

end Outlines

end Programs
