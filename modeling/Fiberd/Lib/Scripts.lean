import Fiberd.Lib.Programs

/-!
One program alone.  A script is a program that may stop with an error; it is
played against the choices of its environment, one for each action.  The rules
follow the plays that end without one.
-/

namespace Scripts

open Programs

variable {σ α : Type} {ρ : α → Type} {χ ε β γ : Type}

section Plays

variable (perform : σ → (action : α) → χ → Option (ρ action × σ))

/-- The result of the program and the state it leaves, for exactly these choices. -/
def play : Prog α ρ β → σ → List χ → Option (β × σ)
  | .done value, state, [] => some (value, state)
  | .done _, _, _ :: _ => none
  | .call _ _, _, [] => none
  | .call action next, state, choice :: choices =>
    (perform state action choice).bind fun outcome => play (next outcome.1) outcome.2 choices

/-- Every play that ends, ends well. -/
def Ends (before : σ → Prop) (program : Prog α ρ β) (after : β → σ → Prop) : Prop :=
  ∀ state choices value final, before state →
    play perform program state choices = some (value, final) → after value final

variable {perform}

variable {program : Prog α ρ β}

theorem play_bind {rest : β → Prog α ρ γ} {state final : σ} {choices : List χ} {value : γ}
    (played : play perform (program >>= rest) state choices = some (value, final)) :
    ∃ front back out mid, choices = front ++ back ∧
      play perform program state front = some (out, mid) ∧
      play perform (rest out) mid back = some (value, final) := by
  induction program generalizing state choices with
  | done out => exact ⟨[], choices, out, state, rfl, rfl, played⟩
  | call action next ih =>
    cases choices with
    | nil => simp [play] at played
    | cons choice choices =>
      obtain ⟨outcome, ran, onward⟩ := Option.bind_eq_some_iff.mp played
      obtain ⟨front, back, out, mid, rfl, first, second⟩ := ih outcome.1 onward
      refine ⟨choice :: front, back, out, mid, rfl, ?_, second⟩
      exact Option.bind_eq_some_iff.mpr ⟨outcome, ran, first⟩

variable {before : σ → Prop}

theorem ends_done {after : β → σ → Prop} {value : β}
    (has : ∀ state, before state → after value state) :
    Ends perform before (.done value : Prog α ρ β) after := by
  intro state choices out final start played
  cases choices with
  | nil =>
    simp only [play, Option.some.injEq, Prod.mk.injEq] at played
    exact played.1 ▸ played.2 ▸ has state start
  | cons choice choices => simp [play] at played

theorem ends_act (action : α) (after : ρ action → σ → Prop)
    (acts : ∀ state choice out next, before state →
      perform state action choice = some (out, next) → after out next) :
    Ends perform before (Prog.act action) after := by
  intro state choices out final start played
  cases choices with
  | nil => simp [Prog.act, play] at played
  | cons choice choices =>
    obtain ⟨outcome, ran, onward⟩ := Option.bind_eq_some_iff.mp played
    cases choices with
    | nil =>
      simp only [play, Option.some.injEq, Prod.mk.injEq] at onward
      exact onward.1 ▸ onward.2 ▸ acts state choice _ _ start ran
    | cons choice choices => simp [play] at onward

theorem Ends.bind {mid : β → σ → Prop}
    {rest : β → Prog α ρ γ} {after : γ → σ → Prop} (first : Ends perform before program mid)
    (second : ∀ value, Ends perform (mid value) (rest value) after) :
    Ends perform before (program >>= rest) after := by
  intro state choices value final start played
  obtain ⟨front, back, out, between, _, one, two⟩ := play_bind played
  exact second out between back value final (first state front out between start one) two

theorem Ends.mono {earlier : σ → Prop} {after later : β → σ → Prop}
    (ends : Ends perform before program after) (strengthen : ∀ state, earlier state → before state)
    (weaken : ∀ value state, after value state → later value state) :
    Ends perform earlier program later :=
  fun state choices value final start played =>
    weaken value final (ends state choices value final (strengthen state start) played)

end Plays

/-- A program that may stop with an error. -/
abbrev Script (ε α : Type) (ρ : α → Type) (β : Type) := ExceptT ε (Prog α ρ) β

def Script.act (action : α) : Script ε α ρ (ρ action) :=
  ExceptT.mk (Prog.act action >>= fun result => pure (.ok result))

variable {perform : σ → (action : α) → χ → Option (ρ action × σ)}

/-- Every play of the script that ends without an error ends well. -/
def Yields (perform : σ → (action : α) → χ → Option (ρ action × σ)) (before : σ → Prop)
    (script : Script ε α ρ β) (after : β → σ → Prop) : Prop :=
  Ends perform before script.run fun outcome state =>
    ∀ value, outcome = .ok value → after value state

variable {before : σ → Prop} {after : β → σ → Prop}

theorem yields_pure {value : β} (has : ∀ state, before state → after value state) :
    Yields perform before (pure value : Script ε α ρ β) after := by
  refine ends_done fun state start out same => ?_
  cases same
  exact has state start

theorem yields_throw (error : ε) : Yields perform before (throw error : Script ε α ρ β) after :=
  ends_done fun _ _ _ same => nomatch same

theorem yields_act (action : α) (after : ρ action → σ → Prop)
    (acts : ∀ state choice out next, before state →
      perform state action choice = some (out, next) → after out next) :
    Yields perform before (Script.act action : Script ε α ρ _) after := by
  refine (ends_act action after acts).bind fun value => ends_done fun state has out same => ?_
  cases same
  exact has

variable {script : Script ε α ρ β}

theorem Yields.bind {mid : β → σ → Prop} {rest : β → Script ε α ρ γ} {after : γ → σ → Prop}
    (first : Yields perform before script mid)
    (second : ∀ value, Yields perform (mid value) (rest value) after) :
    Yields perform before (script >>= rest) after := by
  refine Ends.bind first fun outcome => ?_
  cases outcome with
  | ok value => exact (second value).mono (fun state has => has value rfl) fun _ _ has => has
  | error error => exact ends_done fun _ _ _ same => nomatch same

/-- Nothing goes on behind an error. -/
theorem yields_throw_bind {after : γ → σ → Prop} (error : ε) (rest : β → Script ε α ρ γ) :
    Yields perform before ((throw error : Script ε α ρ β) >>= rest) after :=
  ends_done fun _ _ _ same => nomatch same

theorem Yields.mono {earlier : σ → Prop}
    {later : β → σ → Prop} (yields : Yields perform before script after)
    (strengthen : ∀ state, earlier state → before state)
    (weaken : ∀ value state, after value state → later value state) :
    Yields perform earlier script later :=
  Ends.mono yields strengthen fun _ state has value same => weaken value state (has value same)

/-- What is known of the state apart from the script goes through it as a fact. -/
theorem yields_of_fact {fact : Prop} (known : ∀ state, before state → fact)
    (yields : fact → Yields perform before script after) : Yields perform before script after :=
  fun state choices value final start played =>
    yields (known state start) state choices value final start played

theorem yields_exists {ι : Type} {before : ι → σ → Prop}
    (each : ∀ index, Yields perform (before index) script after) :
    Yields perform (fun state => ∃ index, before index state) script after := by
  rintro state choices value final ⟨index, start⟩ played
  exact each index state choices value final start played

end Scripts
