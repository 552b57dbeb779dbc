import Mathlib.Data.List.Basic
import Mathlib.Logic.Basic

/-!
Machines that move by labelled steps.  A label carries every choice the
environment makes, so a step is a partial function and a run is the list of its
labels.  The rules below carry a property along every run, along every run whose
steps meet a condition, and back to the steps of a run that has it.
-/

namespace Machines

structure Machine (σ ε : Type) where
  start : σ → Prop
  step : σ → ε → Option σ

variable {σ ε τ : Type} (machine : Machine σ ε)

def Machine.exec : σ → List ε → Option σ
  | state, [] => some state
  | state, label :: labels => (machine.step state label).bind fun next => exec next labels

def Machine.Reachable (state : σ) : Prop :=
  ∃ first labels, machine.start first ∧ machine.exec first labels = some state

/-- Every step of the run meets the condition in the state it is taken from. -/
def Machine.Meets (condition : σ → ε → Prop) : σ → List ε → Prop
  | _, [] => True
  | state, label :: labels =>
    condition state label ∧ ∀ next, machine.step state label = some next →
      Meets condition next labels

instance Machine.decidableMeets (condition : σ → ε → Prop)
    [∀ state label, Decidable (condition state label)] (state : σ) (labels : List ε) :
    Decidable (machine.Meets condition state labels) :=
  match labels with
  | [] => isTrue trivial
  | label :: labels =>
    match taken : machine.step state label with
    | none => decidable_of_iff (condition state label) (by simp [Machine.Meets, taken])
    | some next =>
      have := decidableMeets condition next labels
      decidable_of_iff (condition state label ∧ machine.Meets condition next labels)
        (by simp [Machine.Meets, taken])

/-- What a run reaches is found by running it. -/
instance decidableReached {α : Type} {property : α → Prop} [DecidablePred property] :
    (out : Option α) → Decidable (∃ value, out = some value ∧ property value)
  | none => isFalse (by simp)
  | some value => decidable_of_iff (property value) (by simp)

/-- Every state of the run has the property. -/
def Machine.Along (property : σ → Prop) (state : σ) (labels : List ε) : Prop :=
  ∀ front back middle, labels = front ++ back → machine.exec state front = some middle →
    property middle

/-- The run takes the step with the number from the state, by the label. -/
def Machine.Takes (first : σ) (labels : List ε) (index : Nat) (state : σ) (label : ε) : Prop :=
  machine.exec first (labels.take index) = some state ∧ labels[index]? = some label

variable {machine}

@[simp] theorem exec_nil (state : σ) : machine.exec state [] = some state := rfl

variable {state final : σ} {label : ε} {labels : List ε}

theorem exec_cons_eq_some : machine.exec state (label :: labels) = some final ↔
      ∃ next, machine.step state label = some next ∧ machine.exec next labels = some final := by
  simp [Machine.exec, Option.bind_eq_some_iff]

theorem exec_append_eq_some {front back : List ε} :
    machine.exec state (front ++ back) = some final ↔ ∃ mid, machine.exec state front = some mid ∧
        machine.exec mid back = some final := by
  induction front generalizing state with
  | nil => simp
  | cons label labels ih =>
    rw [List.cons_append, exec_cons_eq_some]
    constructor
    · rintro ⟨next, took, rest⟩
      obtain ⟨mid, first, second⟩ := ih.mp rest
      exact ⟨mid, Iff.mpr exec_cons_eq_some ⟨next, took, first⟩, second⟩
    · rintro ⟨mid, first, second⟩
      obtain ⟨next, took, rest⟩ := Iff.mp exec_cons_eq_some first
      exact ⟨next, took, ih.mpr ⟨mid, rest, second⟩⟩

theorem exec_snoc {mid : σ} (run : machine.exec state labels = some mid)
    (took : machine.step mid label = some final) :
    machine.exec state (labels ++ [label]) = some final :=
  Iff.mpr exec_append_eq_some ⟨mid, run, Iff.mpr exec_cons_eq_some ⟨final, took, rfl⟩⟩

theorem Machine.Reachable.trans (reached : machine.Reachable state)
    (run : machine.exec state labels = some final) : machine.Reachable final := by
  obtain ⟨first, old, started, ran⟩ := reached
  exact ⟨first, old ++ labels, started, Iff.mpr exec_append_eq_some ⟨state, ran, run⟩⟩

theorem Machine.Reachable.next (reached : machine.Reachable state)
    (took : machine.step state label = some final) : machine.Reachable final :=
  reached.trans (Iff.mpr exec_cons_eq_some ⟨final, took, exec_nil final⟩)

variable {property : σ → Prop}

theorem exec_keeps
    (kept : ∀ state label next, property state → machine.step state label = some next →
      property next) {state final : σ} {labels : List ε} (has : property state)
    (run : machine.exec state labels = some final) : property final := by
  induction labels generalizing state with
  | nil =>
    simp only [exec_nil, Option.some.injEq] at run
    exact run ▸ has
  | cons label labels ih =>
    obtain ⟨next, took, rest⟩ := Iff.mp exec_cons_eq_some run
    exact ih (kept state label next has took) rest

theorem Machine.Reachable.keeps (initial : ∀ state, machine.start state → property state)
    (kept : ∀ state label next, property state → machine.step state label = some next →
      property next) {state : σ} (reached : machine.Reachable state) : property state := by
  obtain ⟨first, labels, started, run⟩ := reached
  exact exec_keeps kept (initial first started) run

variable {condition : σ → ε → Prop}

theorem exec_keeps_of_meets (kept : ∀ state label next, property state → condition state label →
      machine.step state label = some next → property next)
    {state final : σ} {labels : List ε} (has : property state)
    (meets : machine.Meets condition state labels)
    (run : machine.exec state labels = some final) : property final := by
  induction labels generalizing state with
  | nil =>
    simp only [exec_nil, Option.some.injEq] at run
    exact run ▸ has
  | cons label labels ih =>
    obtain ⟨next, took, rest⟩ := Iff.mp exec_cons_eq_some run
    exact ih (kept state label next has meets.1 took) (meets.2 next took) rest

theorem Machine.Meets.cons {next : σ} (has : condition state label)
    (took : machine.step state label = some next) (rest : machine.Meets condition next labels) :
    machine.Meets condition state (label :: labels) := by
  refine ⟨has, ?_⟩
  intro other reached
  cases took.symm.trans reached
  exact rest

theorem Machine.Meets.append {mid : σ} {front back : List ε}
    (first : machine.Meets condition state front) (run : machine.exec state front = some mid)
    (rest : machine.Meets condition mid back) : machine.Meets condition state (front ++ back) := by
  induction front generalizing state with
  | nil =>
    simp only [exec_nil, Option.some.injEq] at run
    exact run ▸ rest
  | cons label labels ih =>
    obtain ⟨next, took, onward⟩ := Iff.mp exec_cons_eq_some run
    exact .cons first.1 took (ih (first.2 next took) onward)

theorem Machine.Meets.front {front back : List ε}
    (meets : machine.Meets condition state (front ++ back)) :
    machine.Meets condition state front := by
  induction front generalizing state with
  | nil => trivial
  | cons label labels ih =>
    exact ⟨meets.1, fun next took => ih (meets.2 next took)⟩

theorem Machine.Meets.back {mid : σ} {front back : List ε}
    (meets : machine.Meets condition state (front ++ back))
    (run : machine.exec state front = some mid) : machine.Meets condition mid back := by
  induction front generalizing state with
  | nil =>
    simp only [exec_nil, Option.some.injEq] at run
    exact run ▸ meets
  | cons label labels ih =>
    obtain ⟨next, took, rest⟩ := Iff.mp exec_cons_eq_some run
    exact ih (meets.2 next took) rest

/-- A property that the steps meeting a condition keep holds along every run of such steps. -/
theorem along_of_meets (kept : ∀ state label next, property state → condition state label →
      machine.step state label = some next → property next)
    (has : property state) (meets : machine.Meets condition state labels) :
    machine.Along property state labels := by
  intro front back mid split run
  subst labels
  exact exec_keeps_of_meets kept has meets.front run

theorem meets_of_forall (all : ∀ state label, condition state label) (state : σ) (labels : List ε) :
    machine.Meets condition state labels := by
  induction labels generalizing state with
  | nil => trivial
  | cons label labels ih => exact ⟨all state label, fun next _ => ih next⟩

/-- A run meets what each of its steps meets where it is taken. -/
theorem meets_of_splits (has : ∀ front label back mid, labels = front ++ label :: back →
      machine.exec state front = some mid → condition mid label) :
    machine.Meets condition state labels := by
  induction labels generalizing state with
  | nil => trivial
  | cons label labels ih =>
    refine ⟨has [] label labels state rfl rfl, fun next took => ih ?_⟩
    intro front other back mid split run
    exact has (label :: front) other back mid (by rw [split]; rfl)
      (Iff.mpr exec_cons_eq_some ⟨next, took, run⟩)

theorem Machine.Meets.both {first second both : σ → ε → Prop}
    (one : machine.Meets first state labels) (other : machine.Meets second state labels)
    (implies : ∀ state label, first state label → second state label → both state label) :
    machine.Meets both state labels := by
  induction labels generalizing state with
  | nil => trivial
  | cons label labels ih =>
    exact ⟨implies state label one.1 other.1,
      fun next took => ih (one.2 next took) (other.2 next took)⟩

theorem Machine.Meets.of_reachable {weaker : σ → ε → Prop}
    (implies : ∀ state label, machine.Reachable state → condition state label → weaker state label)
    (reached : machine.Reachable state) (meets : machine.Meets condition state labels) :
    machine.Meets weaker state labels := by
  induction labels generalizing state with
  | nil => trivial
  | cons label labels ih =>
    exact ⟨implies state label reached meets.1,
      fun next took => ih (reached.next took) (meets.2 next took)⟩

theorem Machine.Meets.take (meets : machine.Meets condition state labels) (count : Nat) :
    machine.Meets condition state (labels.take count) := by
  rw [← List.take_append_drop count labels] at meets
  exact meets.front

theorem Machine.Meets.at {first : σ} {index : Nat} (meets : machine.Meets condition first labels)
    (takes : machine.Takes first labels index state label) : condition state label := by
  obtain ⟨bound, rfl⟩ := List.getElem?_eq_some_iff.mp takes.2
  rw [← List.take_append_drop index labels] at meets
  have rest := meets.back takes.1
  rw [List.drop_eq_getElem_cons bound] at rest
  exact rest.1

/-- An earlier step of a run leads on to a later one. -/
theorem Machine.Takes.leads {first early late : σ} {old after : Nat} {other : ε}
    (one : machine.Takes first labels old early label)
    (two : machine.Takes first labels after late other) (order : old < after) :
    ∃ next segment, machine.step early label = some next ∧
      machine.exec next segment = some late := by
  obtain ⟨bound, rfl⟩ := List.getElem?_eq_some_iff.mp one.2
  have split : labels.take after =
      labels.take old ++ labels[old] :: (labels.drop (old + 1)).take (after - old - 1) := by
    have length : after = old + (after - old) := by omega
    rw [length, List.take_add, List.drop_eq_getElem_cons bound]
    have positive : after - old = (after - old - 1) + 1 := by omega
    rw [positive, List.take_succ_cons]
    simp
  have run := two.1
  rw [split] at run
  obtain ⟨mid, front, back⟩ := Iff.mp exec_append_eq_some run
  cases one.1.symm.trans front
  obtain ⟨next, took, rest⟩ := Iff.mp exec_cons_eq_some back
  exact ⟨next, _, took, rest⟩

theorem Machine.Along.head (along : machine.Along property state labels) : property state :=
  along [] labels state rfl rfl

theorem Machine.Along.tail {next : σ} (along : machine.Along property state (label :: labels))
    (took : machine.step state label = some next) : machine.Along property next labels := by
  intro front back mid split run
  subst labels
  exact along (label :: front) back mid rfl (Iff.mpr exec_cons_eq_some ⟨next, took, run⟩)

/-- Where a step between two states with the property meets the condition, so does the run. -/
theorem meets_of_along
    (needed : ∀ state label, property state → (∀ next, machine.step state label = some next →
      property next) → condition state label) (along : machine.Along property state labels) :
    machine.Meets condition state labels := by
  induction labels generalizing state with
  | nil => trivial
  | cons label labels ih =>
    refine ⟨?_, fun next took => ih (along.tail took)⟩
    exact needed state label along.head fun next took => (along.tail took).head

end Machines
