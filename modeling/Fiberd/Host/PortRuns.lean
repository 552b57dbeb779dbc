import Fiberd.Host.PortSteps

/-!
The calls of a home keep the ownership of its ports: a call's stage says what it may do
next, every program follows the stages, and so every run keeps what the actions keep.
-/

namespace Fiberd

open Tables Programs Machines

namespace PortHost

variable {host next : PortHost} {tid other : Nat} {fence : String}

variable {later : PortStage} {choice : PortAnswer} {out relay : Bool}

theorem attempt_step (sound : host.Sound)
    (here : ∀ next, Moves tid host next → next.hands.get tid = host.hands.get tid →
      next.fibers = host.fibers → next.At tid later)
    (may : (choice != .failed || !host.isMoving fence) = true)
    (ran : (if choice = .failed then some (false, host.stopMoving fence)
      else some (true, host)) = some (out, next)) : Step tid later host next := by
  split at ran
  · rename_i failed
    cases ran
    have stopped : host.isMoving fence = false := by simpa [failed] using may
    have moves : Moves tid host (host.stopMoving fence) := stopMoving_moves stopped
    exact ⟨stopMoving_sound sound stopped, here _ moves rfl rfl, moves⟩
  · cases ran
    exact ⟨sound, here host (Moves.refl host tid) rfl rfl, Moves.refl host tid⟩

variable {range : PortRange}

theorem alloc_cases {want : Nat} {out : Option Nat}
    (ran : host.perform range relay tid (.allocPort fence want) choice =
      some (out, next)) :
    (out = none ∧ host.allocPort range fence want = none ∧ next = host) ∨
      ∃ port, out = some port ∧ host.allocPort range fence want = some port ∧
        next = { host with
          ports := host.ports.put port fence
          hands := host.hands.put tid ⟨fence, port, false⟩ } := by
  simp only [perform] at ran
  split at ran
  · rename_i port given
    cases ran
    exact .inr ⟨port, rfl, given, rfl⟩
  · rename_i refused
    cases ran
    exact .inl ⟨rfl, refused, rfl⟩

variable {place : DeltaPlace}

theorem read_cases {out : Option PortManifest}
    (ran : host.perform range relay tid (.readManifest place) choice = some (out, next)) :
    next = host ∧ ∀ manifest, out = some manifest → host.Stores place manifest := by
  simp only [perform] at ran
  split at ran
  · rename_i delta got
    cases ran
    refine ⟨rfl, fun manifest read => ?_⟩
    split at read
    · exact ⟨delta, got, Option.some.inj read⟩
    · simp at read
  · cases ran
    exact ⟨rfl, by simp⟩

section

variable (sound : host.Sound) (empty : host.hands.get tid = none)
include sound empty

theorem release_step {discard : Bool}
    (ran : host.perform range relay tid (.beginRelease fence discard) choice =
      some (out, next)) : Step tid .idle host next := by
  simp only [perform] at ran
  split at ran
  · rename_i known
    obtain ⟨fiber, got, known⟩ := knows_iff.mp known
    cases ran
    rw [edit_eq_put _ _ got]
    refine ⟨beginRelease_sound sound got known discard, empty, ?_⟩
    refine fiber_moves got rfl (.inl rfl) (fun _ _ => id) (fun _ _ => rfl) ?_
    split
    · exact edit_moves (fun _ => rfl) (by simp) (fun _ => id)
    · exact (Moves.refl host tid).deltas
  · cases ran
    exact .same sound empty

theorem freePorts_step (may : keepsPorts host tid (.freePorts fence place) .done = true)
    (mine : place = .own fence ∨ ∀ name, place ≠ .own name) :
    Step tid .idle host { host.freePorts fence with
      fibers := host.fibers.edit fence fun fiber => { fiber with discarded := true }
      deltas := (host.leave place).deltas } := by
  simp only [keepsPorts, Bool.and_eq_true, Bool.not_eq_eq_eq_not, Bool.not_true, Bool.or_eq_true,
    beq_iff_eq] at may
  obtain ⟨⟨unknown, unborn⟩, spared⟩ := may
  refine ⟨freePorts_sound sound unknown unborn ?_, empty, freePorts_moves fence place⟩
  rcases mine with own | other
  · exact .inl own
  · rcases spared with own | ⟨gone, idle⟩
    · exact .inl own
    · exact .inr ⟨gone, idle, other⟩

theorem removeDelta_step (gone : host.isHere place = false)
    (ran : host.perform range relay tid (.removeDelta place) choice = some ((), next)) :
    Step tid .idle host next := by
  simp only [perform] at ran
  split at ran
  · cases ran
    exact .same sound empty
  · cases ran
    refine ⟨edit_sound sound (fun _ => rfl) (fun _ => rfl) ?_, empty, deltas_moves ?_ _⟩
    · intro delta got
      simpa [isHere, got] using gone.symm
    · exact edit_moves (fun _ => rfl) (by simp) (fun _ => id)

end

/-- Whatever a thread at the stage does is one step. -/
def Steps (range : PortRange) (relay : Bool) (stage : PortStage) : Prop :=
  ∀ {host next : PortHost} {thread : Nat} {action : PortAct} {out : action.Result}
    {later : PortStage} {choice : PortAnswer}, host.Sound → host.At thread stage →
    stage.after action out = some later → keepsPorts host thread action choice = true →
    host.perform range relay thread action choice = some (out, next) → Step thread later host next

theorem idle_step : Steps range relay .idle := by
  intro host next tid action out later choice sound here after may ran
  cases action with
  | mint fence =>
    replace after := Option.some.inj after
    simp only [perform, Option.ite_none_left_eq_some, Option.some.injEq, Prod.mk.injEq] at ran
    obtain ⟨fresh, _, rfl⟩ := ran
    subst later
    have free : host.minted.get fence = none := by simpa using fresh
    have unborn : host.fibers.get fence = none := by
      by_contra noted
      obtain ⟨fiber, got⟩ := Option.ne_none_iff_exists'.mp noted
      have used := (sound.each fence).used fiber got
      simp [free] at used
    refine ⟨mint_sound sound free, ⟨here, get_put_same _ _ _, unborn⟩,
      { Moves.refl host tid with minted := ?_, unborn := ?_, unready := ?_ }⟩
    · exact fun _ _ minted => get_put_fresh free minted
    · exact fun _ _ _ _ => id
    · exact fun _ fiber _ _ _ got unready => ⟨fiber, got, rfl, unready⟩
  | readManifest place =>
    obtain ⟨rfl, stores⟩ := read_cases ran
    cases out with
    | none =>
      cases after
      exact .same sound here
    | some manifest =>
      cases after
      exact .same sound ⟨here, stores manifest rfl⟩
  | removeDelta place =>
    cases after
    exact removeDelta_step sound here (by simpa [keepsPorts] using may) ran
  | beginRelease fence discard =>
    cases after
    exact release_step sound here ran
  | removeOwn fence =>
    replace after := Option.some.inj after
    replace ran := (outcome_eq ran).2
    subst later next
    refine ⟨edit_sound sound (fun _ => rfl) (fun _ => rfl) (fun _ _ => rfl), here,
      deltas_moves ?_ _⟩
    exact edit_moves (fun _ => rfl) (fun _ => id) (fun _ => id)
  | freePorts fence place =>
    replace after := passed_eq after
    replace ran := (outcome_eq ran).2
    obtain ⟨own, rfl⟩ := after
    subst next
    exact freePorts_step sound here may (.inl own)
  | beginPark fence =>
    cases after
    simp only [perform] at ran
    split at ran
    · rename_i known
      obtain ⟨fiber, got, known⟩ := knows_iff.mp known
      cases ran
      simp only [keepsPorts, got, Option.all_some, known, Bool.not_true, Bool.false_or,
        Bool.and_eq_true, Bool.not_eq_eq_eq_not] at may
      obtain ⟨⟨unreleased, ready⟩, spared⟩ := may
      rw [edit_eq_put _ _ got]
      have flags := (sound.each fence).flags fiber got
      have idle : ∀ other, fiber.parking ≠ some other := by
        intro other waits
        have released := (flags.parking (by simp [waits])).1
        simp [unreleased] at released
      exact ⟨beginPark_sound sound got known unreleased ready spared _,
        ⟨here, _, get_put_same _ _ _, rfl⟩,
        fiber_moves got rfl (.inl rfl) (fun other _ waits => absurd waits (idle other))
          (fun _ _ => rfl) (Moves.refl host tid).deltas⟩
    · cases ran
      exact .same sound here
  | takeEnd fence =>
    simp only [perform] at ran
    split at ran
    · rename_i fiber got
      split at ran
      · rename_i known
        cases ran
        cases after
        refine ⟨takeEnd_sound sound here got fun _ => known, ?_,
          fiber_moves got rfl (.inl rfl) (fun _ _ => id) ?_ (Moves.refl host tid).deltas⟩
        · cases parked : fiber.parked with
          | true => simpa [At, parked] using here
          | false => simp [At]
        · intro other apart
          split
          · rfl
          · exact get_put_other _ _ apart
      · cases ran
        cases after
        exact .same sound here
    · cases ran
      cases after
      exact .same sound here
  | pull name manifest =>
    replace after := Option.some.inj after
    simp only [perform] at ran
    split at ran
    · simp at ran
    · rename_i fresh
      replace ran := (outcome_eq ran).2
      subst later next
      refine ⟨pull_sound sound name manifest, here, deltas_moves ?_ _⟩
      intro place delta there
      exact ⟨delta, get_put_fresh fresh there, rfl, fun present => ⟨present, id⟩⟩
  | _ => cases after

section Births

variable {range : PortRange} {relay : Bool} {action : PortAct} {out : action.Result}
  {later : PortStage} {choice : PortAnswer}

theorem minted_step : Steps range relay (.minted fence) := by
  intro host next tid action out later choice sound here after may ran
  obtain ⟨empty, minted⟩ := here
  cases action with
  | attempt other =>
    obtain ⟨rfl, rfl⟩ := passed_eq after
    refine attempt_step sound ?_ may ran
    intro next moves hands fibers
    exact ⟨hands.trans empty, moves.minted _ _ minted.1, fibers ▸ minted.2⟩
  | readManifest place =>
    obtain ⟨rfl, stores⟩ := read_cases ran
    cases out with
    | none =>
      cases after
      exact .same sound ⟨empty, minted⟩
    | some manifest =>
      cases after
      exact .same sound ⟨empty, minted, stores manifest rfl⟩
  | allocPort other want =>
    obtain ⟨⟨rfl, rfl⟩, rfl⟩ := passed_eq after
    obtain ⟨rfl, _, rfl⟩ | ⟨port, rfl, given, rfl⟩ := alloc_cases ran
    · exact .same sound ⟨empty, minted⟩
    · exact alloc_step sound empty minted (by simpa [keepsPorts] using may) given (by simp)
  | _ => cases after

variable {place : DeltaPlace} {manifest : PortManifest}

theorem reading_step : Steps range relay (.reading fence place manifest) := by
  intro host next tid action out later choice sound here after may ran
  have reading := here
  obtain ⟨empty, minted, stores⟩ := here
  cases action with
  | attempt other =>
    obtain ⟨rfl, rfl⟩ := passed_eq after
    refine attempt_step sound ?_ may ran
    intro next moves hands fibers
    exact ⟨hands.trans empty, ⟨moves.minted _ _ minted.1, fibers ▸ minted.2⟩,
      stores.moves moves⟩
  | allocPort other want =>
    obtain ⟨⟨rfl, rfl, pinned⟩, rfl⟩ := passed_eq after
    obtain ⟨rfl, _, rfl⟩ | ⟨port, rfl, given, rfl⟩ := alloc_cases ran
    · exact .same sound reading
    · refine alloc_step sound empty minted (by simpa [keepsPorts] using may) given ?_
      intro there from'
      cases from'
      exact handed_of_alloc sound minted stores pinned given
  | isLive other there =>
    obtain ⟨⟨rfl, rfl⟩, rfl⟩ := passed_eq after
    cases ran
    cases live : host.knows manifest.fence with
    | false => exact .same sound reading
    | true =>
      have absent : host.isHere there = false := by simpa [keepsPorts, live] using may
      obtain ⟨delta, got, _⟩ := stores
      refine .same sound ⟨empty, minted, delta, got, fun present => ?_⟩
      simp [isHere, got, present] at absent
  | takeOver other mine there =>
    obtain ⟨⟨rfl, rfl, rfl, pinned⟩, rfl⟩ := passed_eq after
    simp only [perform] at ran
    split at ran
    · rename_i held
      cases ran
      simp only [keepsPorts, held, bne_self_eq_false, Bool.false_or, Bool.and_eq_true,
        beq_iff_eq, Bool.not_eq_eq_eq_not, Bool.not_true] at may
      obtain ⟨⟨own, present⟩, gone⟩ := may
      exact takeOver_step sound reading pinned held own present gone
    · rename_i held
      cases ran
      exact .same sound ⟨empty, minted, stores, handed_of_held sound stores held⟩
  | _ => cases after

theorem handed_step {want : Nat} {given : Option Nat} {stage : PortStage}
    (sound : host.Sound) (here : host.At tid stage) (empty : host.hands.get tid = none)
    (minted : host.Minted tid fence) (handed : host.Handed place)
    (closed : host.hasGap fence = false)
    (ran : host.perform range relay tid (.allocPort fence want) choice = some (given, next)) :
    Step tid (.allotted fence (some place) stage given) host next := by
  obtain ⟨rfl, _, rfl⟩ | ⟨port, rfl, given, rfl⟩ := alloc_cases ran
  · exact .same sound here
  · refine alloc_step sound empty minted closed given ?_
    intro there from'
    cases from'
    exact handed

variable {port : Nat} {source : Option DeltaPlace}

theorem holding_step : Steps range relay (.holding fence port source) := by
  intro host next tid action out later choice sound here after may ran
  obtain ⟨hand, handed⟩ := here
  cases action with
  | attempt other =>
    obtain ⟨rfl, rfl⟩ := passed_eq after
    refine attempt_step sound ?_ may ran
    intro next moves hands _
    cases out with
    | true => exact ⟨hands.trans hand, fun place from' => (handed place from').moves moves⟩
    | false => exact hands.trans hand
  | register other given =>
    obtain ⟨⟨rfl, rfl⟩, rfl⟩ := passed_eq after
    cases ran
    obtain ⟨_, unborn, mine, _⟩ := (sound.each other).births tid given hand
    have moves : Moves tid host { host with
        fibers := host.fibers.put other { port := given }
        hands := host.hands.drop tid } := register_moves mine unborn
    exact ⟨register_sound sound hand, ⟨get_drop_same _ _, mine,
      ⟨_, get_put_same _ _ _, rfl, rfl⟩, fun place from' => (handed place from').moves moves⟩,
      moves⟩
  | _ => cases after

theorem serve_step (sound : host.Sound)
    (here : host.At tid (.registered fence port source)) :
    Step tid .idle host { host with
      fibers := host.fibers.edit fence fun fiber => { fiber with ready := true }
      deltas := host.served source } := by
  obtain ⟨empty, minted, ⟨fiber, got, _, _⟩, handed⟩ := here
  rw [edit_eq_put _ _ got]
  have ready := ready_sound sound got
  cases source with
  | none =>
    exact ⟨ready, empty, fiber_moves got rfl (.inr minted) (fun _ _ => id) (fun _ _ => rfl)
      (Moves.refl host tid).deltas⟩
  | some place =>
    refine ⟨leave_sound ready (handed place rfl), empty,
      fiber_moves got rfl (.inr minted) (fun _ _ => id) (fun _ _ => rfl) ?_⟩
    exact edit_moves (fun _ => rfl) (by simp) (fun _ => id)

theorem registered_step : Steps range relay (.registered fence port source) := by
  intro host next tid action out later choice sound here after may ran
  have registered := here
  obtain ⟨empty, minted, ⟨fiber, got, same, unready⟩, handed⟩ := here
  cases action with
  | attempt other =>
    obtain ⟨rfl, rfl⟩ := passed_eq after
    refine attempt_step sound ?_ may ran
    intro next moves hands fibers
    have noted : ∃ fiber, next.fibers.get other = some fiber ∧ fiber.port = port ∧
        fiber.ready = false := ⟨fiber, fibers ▸ got, same, unready⟩
    cases out with
    | true => exact ⟨hands.trans empty, moves.minted _ _ minted, noted,
        fun place from' => (handed place from').moves moves⟩
    | false => exact ⟨hands.trans empty, moves.minted _ _ minted, noted⟩
  | serve other from' =>
    obtain ⟨⟨rfl, rfl⟩, rfl⟩ := passed_eq after
    cases ran
    exact serve_step sound registered
  | _ => cases after

theorem refused_step : Steps range relay (.refused fence port) := by
  intro host next tid action out later choice sound here after may ran
  obtain ⟨empty, minted, fiber, got, same, unready⟩ := here
  cases action with
  | unregister other =>
    obtain ⟨rfl, rfl⟩ := passed_eq after
    simp only [perform, got, Option.some.injEq, Prod.mk.injEq, true_and] at ran
    subst next port
    have unparked := (((sound.each _).flags fiber got).unready unready).1
    have ended := takeEnd_sound sound empty got (by simp [unparked])
    rw [if_neg (by simp [unparked])] at ended
    exact ⟨ended, get_put_same _ _ _,
      fiber_moves got rfl (.inl rfl) (fun _ _ => id)
        (fun _ apart => get_put_other _ _ apart) (Moves.refl host tid).deltas⟩
  | beginRelease other discard =>
    cases after
    exact release_step sound empty ran
  | _ => cases after

theorem parking_step : Steps range relay (.parking fence) := by
  intro host next tid action out later choice sound here after may ran
  have parked := here
  obtain ⟨empty, fiber, got, parking⟩ := here
  have waits : fiber.parking.isSome := by simp [parking]
  have mine : ∀ other, other ≠ tid → fiber.parking ≠ some other := by
    intro other apart same
    rw [parking, Option.some.injEq] at same
    exact apart same.symm
  cases action with
  | dump other =>
    obtain ⟨rfl, rfl⟩ := passed_eq after
    simp only [perform, got] at ran
    split at ran
    · cases ran
      exact .same sound parked
    · cases ran
      have bare := sound.bare got fun _ own => by simp [own.parking] at waits
      refine ⟨dump_sound sound got waits relay _ _, empty,
        fiber_moves got rfl (.inl rfl) (fun t apart same => absurd same (mine t apart))
          (fun _ _ => rfl) ?_⟩
      intro place delta there
      exact ⟨delta, get_put_fresh bare there, rfl, fun present => ⟨present, id⟩⟩
  | unpark other =>
    obtain ⟨rfl, rfl⟩ := passed_eq after
    cases ran
    obtain ⟨again, there, known⟩ := knows_iff.mp may
    cases got.symm.trans there
    rw [edit_eq_put _ _ got]
    exact ⟨unpark_sound sound got known waits _, empty,
      fiber_moves got rfl (.inl rfl) (fun t apart same => absurd same (mine t apart))
        (fun _ _ => rfl) (Moves.refl host tid).deltas⟩
  | _ => cases after

theorem discarding_step : Steps range relay (.discarding place manifest) := by
  intro host next tid action out later choice sound here after may ran
  obtain ⟨empty, delta, got, rfl⟩ := here
  cases action with
  | freePorts fence other =>
    obtain ⟨⟨rfl, rfl⟩, rfl⟩ := passed_eq after
    cases ran
    refine freePorts_step sound empty may ?_
    cases other with
    | own name =>
      obtain ⟨_, _, own⟩ := (sound.each name).own delta got
      exact .inl (by rw [own.fence])
    | claimed name => exact .inr (by simp)
  | removeDelta other =>
    cases after
    exact removeDelta_step sound empty (by simpa [keepsPorts] using may) ran
  | _ => cases after

end Births

theorem stage_step (stage : PortStage) : Steps range relay stage := by
  intro host next tid action out later choice sound here after may ran
  cases stage with
  | idle => exact idle_step sound here after may ran
  | discarding place manifest => exact discarding_step sound here after may ran
  | minted fence => exact minted_step sound here after may ran
  | reading fence place manifest => exact reading_step sound here after may ran
  | taken fence place manifest =>
    cases action with
    | allocPort other want =>
      obtain ⟨⟨rfl, rfl, _⟩, rfl⟩ := passed_eq after
      obtain ⟨empty, minted, _, handed⟩ := here
      have waiting : host.At tid (.handed other place) := ⟨empty, minted, handed⟩
      exact handed_step sound waiting empty minted handed
        (by simpa [keepsPorts] using may) ran
    | _ => cases after
  | handed fence place =>
    cases action with
    | allocPort other want =>
      obtain ⟨⟨rfl, rfl⟩, rfl⟩ := passed_eq after
      exact handed_step sound here here.1 here.2.1 here.2.2
        (by simpa [keepsPorts] using may) ran
    | _ => cases after
  | holding fence port source => exact holding_step sound here after may ran
  | registered fence port source => exact registered_step sound here after may ran
  | refused fence port => exact refused_step sound here after may ran
  | unserved fence port | ended fence port =>
    cases action with
    | freePort given other =>
      obtain ⟨⟨rfl, rfl⟩, rfl⟩ := passed_eq after
      cases ran
      exact ⟨freePort_sound sound here, get_drop_same _ _,
        { Moves.refl _ _ with hands := fun _ apart => get_drop_other _ apart }⟩
    | _ => cases after
  | parking fence => exact parking_step sound here after may ran

end PortHost

end Fiberd
