import Fiberd.Lib.Programs
import Mathlib.Logic.Function.Basic

/-!
Invariants over what all calls hold at once.  A protocol says what each call may
rely on by itself.  A layer over it follows a second record through every call, and
keeps an invariant of the shared state and of all the records together: two calls
never hold the same thing.
-/

namespace Programs

open Machines Tables

variable {σ α : Type} {ρ : α → Type} {χ κ β ℓ μ : Type} {kernel : Kernel σ α ρ χ κ β}

/-- A protocol is one of the guarded kernel as well. -/
def Protocol.guard (protocol : Protocol kernel ℓ) (may : σ → Nat → α → χ → Bool) :
    Protocol (kernel.guarded may) ℓ where
  inv := protocol.inv
  idle := protocol.idle
  At := protocol.At
  ends := protocol.ends
  after := protocol.after
  started := protocol.started
  moved := by
    intro shared thread holds action choice result next later inv here allowed ran
    exact protocol.moved shared thread holds action choice result next later inv here allowed
      (Kernel.guarded_perform ran).2
  bodies := protocol.bodies

structure Layer (base : Protocol kernel ℓ) (μ : Type) where
  idle : μ
  after : μ → (action : α) → ρ action → Option μ
  inv : σ → (Nat → ℓ) → (Nat → μ) → Prop
  moved : ∀ shared (holds : Nat → ℓ) (courses : Nat → μ) thread action choice result next later
    now, base.inv shared → (∀ other, base.At other (holds other) shared) →
    inv shared holds courses → base.after (holds thread) action result = some later →
    after (courses thread) action result = some now →
    kernel.perform shared thread action choice = some (result, next) →
      inv next (Function.update holds thread later) (Function.update courses thread now)
  ends : β → μ → Prop
  bodies : ∀ call, (kernel.body call).Follows after idle ends

namespace Layer

variable {base : Protocol kernel ℓ} (layer : Layer base μ)

/-- Where every call stands, by both of its records. -/
structure Places (threads : Threads σ α ρ β) (holds : Nat → ℓ) (courses : Nat → μ) : Prop where
  kept : base.inv threads.shared
  stands : ∀ thread, base.At thread (holds thread) threads.shared
  inv : layer.inv threads.shared holds courses
  unused : ∀ thread, threads.programs.get thread = none →
    holds thread = base.idle ∧ courses thread = layer.idle
  running : ∀ thread program, threads.programs.get thread = some program →
    program.Follows base.after (holds thread) base.ends ∧
      program.Follows layer.after (courses thread) layer.ends

def Kept (threads : Threads σ α ρ β) : Prop := ∃ holds courses, layer.Places threads holds courses

variable {layer} {threads next final : Threads σ α ρ β} {holds : Nat → ℓ} {courses : Nat → μ}

theorem Places.start (places : layer.Places threads holds courses) (tid : Nat) (call : κ)
    (unused : threads.programs.get tid = none) :
    layer.Places { threads with programs := threads.programs.put tid (kernel.body call) }
      holds courses := by
  obtain ⟨idle, fresh⟩ := places.unused tid unused
  refine ⟨places.kept, places.stands, places.inv, ?_, ?_⟩
  · intro query gone
    simp only [get_put] at gone
    split at gone
    · simp at gone
    · exact places.unused query gone
  · intro query prog got
    obtain ⟨same, rfl⟩ | ⟨_, got⟩ := get_put_eq_some got
    · subst query
      rw [idle, fresh]
      exact ⟨base.bodies call, layer.bodies call⟩
    · exact places.running query prog got

theorem Places.act (places : layer.Places threads holds courses) {tid : Nat} {action : α}
    {choice : χ} {rest : ρ action → Prog α ρ β} {out : ρ action} {shared : σ}
    (runs : threads.programs.get tid = some (.call action rest))
    (ran : kernel.perform threads.shared tid action choice = some (out, shared)) :
    layer.Kept ⟨shared, threads.programs.put tid (rest out)⟩ := by
  obtain ⟨follows, alongside⟩ := places.running tid _ runs
  obtain ⟨later, may, onward⟩ := follows out
  obtain ⟨now, turn, beside⟩ := alongside out
  obtain ⟨inv, there, others⟩ := base.moved _ _ _ _ _ _ _ _ places.kept (places.stands tid)
    may ran
  refine ⟨Function.update holds tid later, Function.update courses tid now, inv, ?_,
    layer.moved _ _ _ _ _ _ _ _ _ _ places.kept places.stands places.inv may turn ran,
    ?_, ?_⟩
  · intro other
    by_cases same : other = tid
    · subst other
      simpa using there
    · simpa [same] using others other _ same (places.stands other)
  · intro query gone
    simp only [get_put] at gone
    split at gone
    · simp at gone
    · rename_i apart
      simpa [apart] using places.unused query gone
  · intro query prog got
    obtain ⟨same, rfl⟩ | ⟨apart, got⟩ := get_put_eq_some got
    · subst query
      simpa using ⟨onward, beside⟩
    · simpa [apart] using places.running query prog got

theorem Kept.step {event : Event κ χ} (kept : layer.Kept threads)
    (took : kernel.machine.step threads event = some next) : layer.Kept next := by
  obtain ⟨holds, courses, places⟩ := kept
  cases event with
  | start tid call =>
    obtain ⟨unused, rfl⟩ := Kernel.step_start took
    exact ⟨holds, courses, places.start tid call unused⟩
  | act tid choice =>
    obtain ⟨action, rest, out, shared, runs, ran, rfl⟩ := Kernel.step_act took
    exact places.act runs ran

theorem Kept.exec {events : List (Event κ χ)} (kept : layer.Kept threads)
    (run : kernel.machine.exec threads events = some final) : layer.Kept final :=
  exec_keeps (fun _ _ _ kept took => kept.step took) kept run

/-- The invariant holds where no call has been made yet. -/
theorem kept_of_start (started : kernel.machine.start threads)
    (inv : layer.inv threads.shared (fun _ => base.idle) fun _ => layer.idle) :
    layer.Kept threads := by
  obtain ⟨initial, none⟩ := started
  obtain ⟨kept, idle⟩ := base.started _ initial
  exact ⟨_, _, kept, idle, inv, fun _ _ => ⟨rfl, rfl⟩, by simp [none]⟩

/-- The invariant may be taken up where every call that was made has ended. -/
theorem kept_of_ended (kept : base.Kept threads)
    (ended : ∀ tid prog, threads.programs.get tid = some prog →
      ∃ value, prog = .done value ∧ layer.ends value layer.idle)
    (inv : ∀ holds : Nat → ℓ, (∀ tid, base.At tid (holds tid) threads.shared) →
      layer.inv threads.shared holds fun _ => layer.idle) : layer.Kept threads := by
  have place : ∀ tid, ∃ held, base.At tid held threads.shared ∧
      (threads.programs.get tid = none → held = base.idle) ∧
      ∀ prog, threads.programs.get tid = some prog →
        prog.Follows base.after held base.ends := by
    intro tid
    cases got : threads.programs.get tid with
    | none => exact ⟨base.idle, kept.unused tid got, fun _ => rfl, by simp⟩
    | some prog =>
      obtain ⟨held, there, follows⟩ := kept.running tid prog got
      exact ⟨held, there, by simp, by simpa using follows⟩
  choose holds stands idle follows using place
  refine ⟨holds, _, kept.inv, stands, inv holds stands, fun tid gone =>
    ⟨idle tid gone, rfl⟩, ?_⟩
  intro tid prog got
  obtain ⟨value, rfl, ends⟩ := ended tid prog got
  exact ⟨follows tid _ got, ends⟩

end Layer

end Programs
