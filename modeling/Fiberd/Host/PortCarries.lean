import Fiberd.Host.PortRuns

/-!
What a Park and a resume have in hand over a whole call: the fiber a Park holds, and the
delta whose port a resume has given up.  Neither outlives its call.
-/

namespace Fiberd

open Tables Programs Machines

namespace PortHost

variable {host next : PortHost} {tid other : Nat} {fence : String}

/-- No delta is moved by a fence that did not move it, and none comes to be here. -/
def StillMoving (host : PortHost) (deltas : Table DeltaPlace StoredDelta) : Prop :=
  ∀ place delta mover, deltas.get place = some delta → delta.moving = some mover →
    ∃ before, host.deltas.get place = some before ∧ before.moving = some mover ∧
      (delta.here = true → before.here = true)

def StillParking (host : PortHost) (fibers : Table String PortFiber) : Prop :=
  ∀ fence fiber park, fibers.get fence = some fiber → fiber.parking = some park →
    ∃ before, host.fibers.get fence = some before ∧ before.parking = some park

structure Quiet (host next : PortHost) : Prop where
  minted : next.minted = host.minted
  moving : host.StillMoving next.deltas

structure Unparked (host next : PortHost) : Prop where
  parks : next.parks = host.parks
  parking : host.StillParking next.fibers

structure Aside (host next : PortHost) : Prop extends Quiet host next, Unparked host next

theorem Quiet.refl (host : PortHost) : Quiet host host :=
  ⟨rfl, fun _ _ _ found moving => ⟨_, found, moving, id⟩⟩

theorem Unparked.refl (host : PortHost) : Unparked host host :=
  ⟨rfl, fun _ _ _ found parking => ⟨_, found, parking⟩⟩

theorem Aside.refl (host : PortHost) : Aside host host := ⟨.refl host, .refl host⟩

theorem stillMoving_edit (host : PortHost) (place : DeltaPlace) (change : StoredDelta → StoredDelta)
    (moving : ∀ delta, (change delta).moving = delta.moving)
    (here : ∀ delta, (change delta).here = true → delta.here = true) :
    host.StillMoving (host.deltas.edit place change) := by
  intro other delta mover there moves
  obtain ⟨rfl, old, got, rfl⟩ | ⟨_, there⟩ := get_edit_eq_some there
  · exact ⟨old, got, moving old ▸ moves, here old⟩
  · exact ⟨delta, there, moves, id⟩

theorem stillMoving_put (host : PortHost) (place : DeltaPlace) {stored : StoredDelta}
    (still : stored.moving = none) : host.StillMoving (host.deltas.put place stored) := by
  intro other delta mover there moves
  obtain ⟨_, rfl⟩ | ⟨_, there⟩ := get_put_eq_some there
  · simp [still] at moves
  · exact ⟨delta, there, moves, id⟩

theorem stillMoving_stop (host : PortHost) (fence : String) :
    host.StillMoving (host.stopMoving fence).deltas := by
  intro place delta mover there moves
  rw [stopMoving_get, Option.map_eq_some_iff] at there
  obtain ⟨old, got, same⟩ := there
  split at same
  · subst delta
    simp at moves
  · subst delta
    exact ⟨old, got, moves, id⟩

theorem stillParking_put {fiber later : PortFiber} (got : host.fibers.get fence = some fiber)
    (same : later.parking = fiber.parking) : host.StillParking (host.fibers.put fence later) := by
  intro name other park there parking
  obtain ⟨rfl, rfl⟩ | ⟨_, there⟩ := get_put_eq_some there
  · exact ⟨fiber, got, same ▸ parking⟩
  · exact ⟨other, there, parking⟩

theorem stillParking_edit (host : PortHost) (fence : String) {change : PortFiber → PortFiber}
    (same : ∀ fiber, (change fiber).parking = fiber.parking) :
    host.StillParking (host.fibers.edit fence change) := by
  intro name other park there parking
  obtain ⟨rfl, fiber, got, rfl⟩ | ⟨_, there⟩ := get_edit_eq_some there
  · exact ⟨fiber, got, same fiber ▸ parking⟩
  · exact ⟨other, there, parking⟩

end PortHost

def PortAct.aside : PortAct → Bool
  | .mint _ | .takeOver _ _ _ | .beginPark _ | .dump _ | .unpark _ => false
  | _ => true

namespace PortHost

variable {host next : PortHost} {tid other : Nat} {fence : String} {range : PortRange} {relay : Bool}
  {choice : PortAnswer} {action : PortAct} {out : action.Result}

theorem aside_step (plain : action.aside = true)
    (ran : host.perform range relay tid action choice = some (out, next)) : Aside host next := by
  have same := Aside.refl host
  cases action with
  | mint | takeOver | beginPark | dump | unpark => cases plain
  | attempt fence =>
    simp only [perform] at ran
    split at ran <;> cases ran
    · exact { same with moving := stillMoving_stop host fence }
    · exact { same with }
  | readManifest place =>
    obtain ⟨rfl, _⟩ := read_cases ran
    exact { same with }
  | allocPort fence want =>
    obtain ⟨_, _, rfl⟩ | ⟨_, _, _, rfl⟩ := alloc_cases ran
    · exact { same with }
    · exact { same with }
  | isLive fence place | freePort port fence =>
    cases ran
    exact { same with }
  | removeOwn fence =>
    cases ran
    exact { same with moving := stillMoving_edit _ _ _ (fun _ => rfl) fun _ => id }
  | removeDelta place =>
    simp only [perform] at ran
    split at ran <;> cases ran
    · exact { same with }
    · exact { same with moving := stillMoving_edit _ _ _ (fun _ => rfl) (by simp) }
  | pull name manifest =>
    simp only [perform] at ran
    split at ran <;> cases ran
    exact { same with moving := stillMoving_put _ _ rfl }
  | register fence port =>
    cases ran
    refine { same with parking := ?_ }
    intro name fiber park there parking
    obtain ⟨_, rfl⟩ | ⟨_, there⟩ := get_put_eq_some there
    · simp at parking
    · exact ⟨fiber, there, parking⟩
  | unregister fence =>
    simp only [perform] at ran
    split at ran
    · rename_i fiber found
      cases ran
      exact { same with parking := stillParking_put found rfl }
    · cases ran
      exact { same with }
  | serve fence source =>
    cases ran
    cases source with
    | none => exact { same with parking := stillParking_edit _ _ fun _ => rfl }
    | some place =>
      exact { same with
        parking := stillParking_edit _ _ fun _ => rfl
        moving := stillMoving_edit _ _ _ (fun _ => rfl) (by simp) }
  | freePorts fence place =>
    cases ran
    exact { same with
      parking := stillParking_edit _ _ fun _ => rfl
      moving := stillMoving_edit _ _ _ (fun _ => rfl) (by simp) }
  | beginRelease fence discard =>
    simp only [perform] at ran
    split at ran <;> cases ran
    · cases discard with
      | true =>
        exact { same with
          parking := stillParking_edit _ _ fun _ => rfl
          moving := stillMoving_edit _ _ _ (fun _ => rfl) (by simp) }
      | false => exact { same with parking := stillParking_edit _ _ fun _ => rfl }
    · exact { same with }
  | takeEnd fence =>
    simp only [perform] at ran
    split at ran
    · rename_i fiber found
      split at ran <;> cases ran
      · exact { same with parking := stillParking_put found rfl }
      · exact { same with }
    · cases ran
      exact { same with }

def Listed (host : PortHost) : Prop :=
  ∀ fence fiber park, host.fibers.get fence = some fiber → fiber.parking = some park →
    host.parks.get park = some fence

theorem Listed.finished (listed : host.Listed) {mine : String}
    (here : host.parks.get tid = some mine) {fibers : Table String PortFiber}
    (change : ∀ name fiber, fibers.get name = some fiber → fiber.parking = none ∨
      (name ≠ mine ∧ host.fibers.get name = some fiber)) :
    Listed { host with fibers := fibers, parks := host.parks.drop tid } := by
  intro name fiber park there parking
  obtain none | ⟨apart, got⟩ := change name fiber there
  · simp [none] at parking
  · have mine' := listed name fiber park got parking
    simp only
    rw [get_drop_other]
    · exact mine'
    · rintro rfl
      rw [here, Option.some.injEq] at mine'
      exact apart mine'.symm

end PortHost

def PortStage.parks : PortStage → Option String
  | .parking fence => some fence
  | _ => none

theorem PortStage.allotted_parks (fence : String) (source : Option DeltaPlace)
    (refused : PortStage) (given : Option Nat) :
    (allotted fence source refused given).parks = if given.isSome then none else refused.parks := by
  cases given <;> rfl

namespace PortHost

structure ParkStep (thread : Nat) (later : PortStage) (host next : PortHost) : Prop where
  listed : next.Listed
  here : next.parks.get thread = later.parks
  others : ∀ other, other ≠ thread → next.parks.get other = host.parks.get other

variable {stage later : PortStage}

theorem ParkStep.aside (listed : host.Listed) (here : host.parks.get tid = stage.parks)
    (aside : Unparked host next) (idle : later.parks = stage.parks) : ParkStep tid later host next := by
  refine ⟨?_, by rw [aside.parks, here, idle], fun _ _ => by rw [aside.parks]⟩
  intro fence fiber park found parking
  obtain ⟨old, got, parked⟩ := aside.parking fence fiber park found parking
  rw [aside.parks]
  exact listed fence old park got parked

theorem after_parks (after : stage.after action out = some later) :
    later.parks = stage.parks ∨ (∃ fence, action = .beginPark fence) ∨
      (∃ fence, action = .dump fence ∧ stage = .parking fence) ∨
      (∃ fence, action = .unpark fence ∧ stage = .parking fence) := by
  unfold PortStage.after at after
  split at after <;>
    (try simp only [Option.ite_none_right_eq_some, Option.some.injEq] at after) <;>
    grind [PortStage.parks, PortStage.allotted_parks]

theorem after_idle (after : stage.after action out = some later)
    (other : ∀ fence, action ≠ .beginPark fence ∧ action ≠ .dump fence ∧ action ≠ .unpark fence) :
    later.parks = stage.parks := by
  rcases after_parks after with same | ⟨fence, this⟩ | ⟨fence, this, _⟩ | ⟨fence, this, _⟩
  · exact same
  · exact absurd this (other fence).1
  · exact absurd this (other fence).2.1
  · exact absurd this (other fence).2.2

theorem park_step {range : PortRange} {relay : Bool} {choice : PortAnswer} (listed : host.Listed)
    (here : host.parks.get tid = stage.parks) (after : stage.after action result = some later)
    (ran : host.perform range relay tid action choice = some (result, next)) :
    ParkStep tid later host next := by
  cases action with
  | beginPark fence =>
    cases stage with
    | idle =>
      cases after
      simp only [perform] at ran
      split at ran
      · cases ran
        refine ⟨?_, get_put_same _ _ _, fun _ different => get_put_other _ _ different⟩
        intro name fiber park there parking
        simp only [get_put]
        rw [get_edit] at there
        split at there
        · rename_i mine
          rw [Option.map_eq_some_iff] at there
          obtain ⟨old, _, rfl⟩ := there
          rw [if_pos (Option.some.inj parking).symm, mine]
        · rw [if_neg]
          · exact listed name fiber park there parking
          · rintro rfl
            have mine := listed name fiber park there parking
            simp [here, PortStage.parks] at mine
      · cases ran
        exact .aside listed here (.refl _) rfl
    | _ => cases after
  | dump fence =>
    cases stage with
    | parking mine =>
      obtain ⟨rfl, rfl⟩ := passed_eq after
      simp only [perform] at ran
      split at ran
      · rename_i fiber found
        split at ran
        · cases ran
          exact .aside listed here (.refl _) rfl
        · cases ran
          refine ⟨?_, get_drop_same _ _, fun _ different => get_drop_other _ different⟩
          exact listed.finished here fun name other there => by
            rw [get_put] at there
            split at there
            · exact .inl ((Option.some.inj there) ▸ rfl)
            · rename_i apart
              exact .inr ⟨apart, there⟩
      · simp at ran
    | _ => cases after
  | unpark fence =>
    cases stage with
    | parking mine =>
      obtain ⟨rfl, rfl⟩ := passed_eq after
      cases ran
      refine ⟨?_, get_drop_same _ _, fun _ different => get_drop_other _ different⟩
      exact listed.finished here fun name other there => by
        rw [get_edit] at there
        split at there
        · rw [Option.map_eq_some_iff] at there
          obtain ⟨old, _, rfl⟩ := there
          exact .inl rfl
        · rename_i apart
          exact .inr ⟨apart, there⟩
    | _ => cases after
  | mint fence | takeOver manifest fence place =>
    have idle := after_idle after (by simp)
    simp only [perform] at ran
    split at ran <;> cases ran <;> exact .aside listed here { Unparked.refl _ with } idle
  | _ => exact .aside listed here (aside_step rfl ran).toUnparked (after_idle after (by simp))

end PortHost

def PortStage.mover : PortStage → Option (String × DeltaPlace)
  | .taken fence place _ => some (fence, place)
  | .holding fence _ source => source.map fun place => (fence, place)
  | .registered fence _ source => source.map fun place => (fence, place)
  | _ => none

namespace PortHost

def Movers (host : PortHost) : Prop :=
  ∀ place delta mover, host.deltas.get place = some delta → delta.moving = some mover →
    (host.minted.get mover).isSome

def Carries (host : PortHost) (thread : Nat) (stage : PortStage) : Prop :=
  ∀ mover place delta, host.minted.get mover = some thread →
    host.deltas.get place = some delta → delta.here = true → delta.moving = some mover →
      stage.mover = some (mover, place)

theorem Movers.quiet (movers : host.Movers) (quiet : Quiet host next) : next.Movers := by
  intro place delta mover there moving
  obtain ⟨old, got, moves, _⟩ := quiet.moving place delta mover there moving
  rw [quiet.minted]
  exact movers place old mover got moves

variable {stage later : PortStage}

theorem Carries.quiet (carries : host.Carries other stage)
    (quiet : Quiet host next) : next.Carries other stage := by
  intro mover place delta minted there here moving
  obtain ⟨old, got, moves, present⟩ := quiet.moving place delta mover there moving
  rw [quiet.minted] at minted
  exact carries mover place old minted got (present here) moves

structure CarryStep (thread : Nat) (later : PortStage) (host next : PortHost) : Prop where
  movers : next.Movers
  here : next.Carries thread later
  others : ∀ other stage, other ≠ thread → host.Carries other stage → next.Carries other stage

theorem CarryStep.quiet (movers : host.Movers)
    (here : host.Carries tid stage) (quiet : Quiet host next)
    (onward : later.mover = stage.mover ∨ stage.mover = none) : CarryStep tid later host next := by
  refine ⟨movers.quiet quiet, ?_, fun _ _ _ carries => carries.quiet quiet⟩
  intro mover place delta minted there present moving
  have mine := here.quiet quiet mover place delta minted there present moving
  rcases onward with same | none
  · rw [same, mine]
  · simp [none] at mine

theorem after_mover {action : PortAct} {out : action.Result}
    (after : stage.after action out = some later)
    (other : (∀ fence, action ≠ .attempt fence) ∧ (∀ fence want, action ≠ .allocPort fence want) ∧
      ∀ fence source, action ≠ .serve fence source) :
    later.mover = stage.mover ∨ stage.mover = none := by
  unfold PortStage.after at after
  split at after <;>
    (try simp only [Option.ite_none_right_eq_some, Option.some.injEq] at after) <;>
    grind [PortStage.mover]

variable {made relay : Bool}

theorem after_attempt (after : stage.after (.attempt fence) made = some later) :
    (stage.mover = none ∨ ∃ place, stage.mover = some (fence, place)) ∧
      (made = true → later = stage) := by
  cases stage with
  | minted name | reading name place manifest =>
    replace after := passed_eq after
    exact ⟨.inl rfl, fun _ => after.2.symm⟩
  | holding name port source | registered name port source =>
    obtain ⟨rfl, rfl⟩ := passed_eq after
    refine ⟨?_, fun made => by simp [made]⟩
    cases source with
    | none => exact .inl rfl
    | some place => exact .inr ⟨place, rfl⟩
  | _ => cases after

variable {range : PortRange} {choice : PortAnswer}

theorem carry_attempt (movers : host.Movers) (here : host.Carries tid stage)
    (after : stage.after (.attempt fence) made = some later)
    (ran : host.perform range relay tid (.attempt fence) choice =
      some (made, next)) : CarryStep tid later host next := by
  obtain ⟨mover, onward⟩ := after_attempt after
  simp only [perform] at ran
  split at ran
  · cases ran
    have quiet : Quiet host (host.stopMoving fence) :=
      { Quiet.refl host with moving := stillMoving_stop host fence }
    refine ⟨movers.quiet quiet, ?_, fun _ _ _ carries => carries.quiet quiet⟩
    intro name place delta minted there present moving
    have mine := here.quiet quiet name place delta minted there present moving
    rcases mover with none | ⟨source, some⟩
    · simp [none] at mine
    · rw [some, Option.some.injEq, Prod.mk.injEq] at mine
      rw [stopMoving_get, Option.map_eq_some_iff] at there
      obtain ⟨old, _, same⟩ := there
      split at same
      · subst delta
        simp at moving
      · rename_i away
        subst delta
        exact absurd (mine.1 ▸ moving) away
  · cases ran
    exact .quiet movers here (.refl _) (.inl (onward rfl ▸ rfl))

theorem carry_alloc {want : Nat} {given : Option Nat} (sound : host.Sound)
    (movers : host.Movers) (at' : host.At tid stage) (here : host.Carries tid stage)
    (after : stage.after (.allocPort fence want) given = some later)
    (ran : host.perform range relay tid (.allocPort fence want) choice =
      some (given, next)) : CarryStep tid later host next := by
  have quiet := (aside_step rfl ran).toQuiet
  cases stage with
  | minted name | reading name place manifest | handed name place =>
    exact .quiet movers here quiet (.inr rfl)
  | taken name place manifest =>
    obtain ⟨⟨rfl, rfl, pinned⟩, rfl⟩ := passed_eq after
    cases given with
    | some port => exact .quiet movers here quiet (.inl rfl)
    | none =>
      refine ⟨movers.quiet quiet, ?_, fun _ _ _ carries => carries.quiet quiet⟩
      intro mover other delta minted there present moving
      exfalso
      obtain ⟨old, got, moves, was⟩ := quiet.moving other delta mover there moving
      rw [quiet.minted] at minted
      have mine := here mover other old minted got (was present) moves
      simp only [PortStage.mover] at mine
      cases mine
      obtain ⟨_, _, ⟨stored, storedAt, rfl⟩, _⟩ := at'
      cases got.symm.trans storedAt
      cases place with
      | claimed name =>
        have here := was present
        simp [sound.claimed name old got] at here
      | own name =>
        have free := ((sound.each name).moving old fence got (was present) moves).2
        obtain ⟨_, refused, _⟩ | ⟨port, none, _⟩ := alloc_cases ran
        · rw [allocPort, if_pos pinned] at refused
          rcases free with none | mine
          · simp [none] at refused
          · simp [mine] at refused
        · simp at none
  | _ => cases after

theorem carry_serve {source : Option DeltaPlace} {out : Unit} (movers : host.Movers)
    (here : host.Carries tid stage) (after : stage.after (.serve fence source) out = some later)
    (ran : host.perform range relay tid (.serve fence source) choice =
      some (out, next)) : CarryStep tid later host next := by
  cases ran
  cases stage with
  | registered name port from' =>
    obtain ⟨⟨rfl, rfl⟩, rfl⟩ := passed_eq after
    cases source with
    | none => exact .quiet movers here { Quiet.refl host with } (.inr rfl)
    | some place =>
      have quiet : Quiet host { host with
          fibers := host.fibers.edit fence fun fiber => { fiber with ready := true }
          deltas := host.served (some place) } :=
        { Quiet.refl host with moving := stillMoving_edit _ _ _ (fun _ => rfl) (by simp) }
      refine ⟨movers.quiet quiet, ?_, fun _ _ _ carries => carries.quiet quiet⟩
      intro mover other delta minted there present moving
      have mine := here.quiet quiet mover other delta minted there present moving
      simp only [PortStage.mover, Option.map_some, Option.some.injEq, Prod.mk.injEq] at mine
      simp only [served, leave, ← mine.2, get_edit, if_true, Option.map_eq_some_iff] at there
      obtain ⟨old, _, rfl⟩ := there
      simp at present
  | _ => cases after

theorem carry_step {action : PortAct} {out : action.Result} (sound : host.Sound)
    (movers : host.Movers) (at' : host.At tid stage) (here : host.Carries tid stage)
    (after : stage.after action out = some later)
    (ran : host.perform range relay tid action choice = some (out, next)) :
    CarryStep tid later host next := by
  have same := Quiet.refl host
  cases action with
  | attempt fence => exact carry_attempt movers here after ran
  | allocPort fence want => exact carry_alloc sound movers at' here after ran
  | serve fence source => exact carry_serve movers here after ran
  | mint fence =>
    have onward := after_mover after (by simp)
    simp only [perform, Option.ite_none_left_eq_some, Option.some.injEq,
      Prod.mk.injEq] at ran
    obtain ⟨fresh, _, rfl⟩ := ran
    have free : host.minted.get fence = none := by simpa using fresh
    have unmoved : ∀ place delta, host.deltas.get place = some delta →
        delta.moving ≠ some fence := by
      intro place delta got moving
      have minted := movers place delta fence got moving
      simp [free] at minted
    have back : ∀ mover t place delta, host.deltas.get place = some delta →
        delta.moving = some mover → (host.minted.put fence tid).get mover = some t →
          host.minted.get mover = some t := by
      intro mover t place delta got moving minted
      obtain ⟨rfl, _⟩ | ⟨_, minted⟩ := get_put_eq_some minted
      · exact absurd moving (unmoved place delta got)
      · exact minted
    refine ⟨?_, ?_, ?_⟩
    · intro place delta mover got moving
      simp only [get_put]
      split
      · rfl
      · exact movers place delta mover got moving
    · intro mover place delta minted got present moving
      have mine := here mover place delta (back mover tid place delta got moving minted)
        got present moving
      rcases onward with equal | none
      · rw [equal, mine]
      · simp [none] at mine
    · intro other stage _ carries mover place delta minted got present moving
      exact carries mover place delta (back mover other place delta got moving minted) got
        present moving
  | takeOver manifest fence place =>
    cases stage with
    | reading name source read =>
      obtain ⟨⟨rfl, rfl, rfl, _⟩, rfl⟩ := passed_eq after
      simp only [perform] at ran
      split at ran
      · cases ran
        have cases : ∀ other delta mover, (host.deltas.edit place fun delta =>
            { delta with moving := some fence }).get other = some delta →
              delta.moving = some mover → (mover = fence ∧ other = place) ∨
                host.deltas.get other = some delta := by
          intro other delta mover there moving
          obtain ⟨same, _, _, rfl⟩ | ⟨_, there⟩ := get_edit_eq_some there
          · exact .inl ⟨(Option.some.inj moving).symm, same⟩
          · exact .inr there
        obtain ⟨_, ⟨minted, _⟩, _⟩ := at'
        refine ⟨?_, ?_, ?_⟩
        · intro other delta mover there moving
          obtain ⟨rfl, _⟩ | got := cases other delta mover there moving
          · exact Option.isSome_iff_exists.mpr ⟨tid, minted⟩
          · exact movers other delta mover got moving
        · intro mover other delta mine there present moving
          obtain ⟨rfl, rfl⟩ | got := cases other delta mover there moving
          · rfl
          · have none := here mover other delta mine got present moving
            simp [PortStage.mover] at none
        · intro t stage apart carries mover other delta mine there present moving
          obtain ⟨rfl, rfl⟩ | got := cases other delta mover there moving
          · exact absurd (Option.some.inj (mine.symm.trans minted)) apart
          · exact carries mover other delta mine got present moving
      · cases ran
        exact .quiet movers here { same with } (.inr rfl)
    | _ => cases after
  | beginPark fence =>
    simp only [perform] at ran
    split at ran <;> cases ran <;> exact .quiet movers here { same with } (after_mover after (by simp))
  | unpark fence =>
    cases ran
    exact .quiet movers here { same with } (after_mover after (by simp))
  | dump fence =>
    have onward := after_mover after (by simp)
    simp only [perform] at ran
    split at ran
    · split at ran <;> cases ran
      · exact .quiet movers here { same with } onward
      · exact .quiet movers here { same with moving := stillMoving_put _ _ rfl } onward
    · simp at ran
  | _ => exact .quiet movers here (aside_step rfl ran).toQuiet (after_mover after (by simp))

end PortHost

end Fiberd
