import Fiberd.Host.PortOwners

/-!
What each action leaves of the ownership of ports, one lemma an action.
-/

namespace Fiberd

open Tables Programs Machines

namespace PortHost

variable {host next : PortHost} {tid other : Nat} {fence : String}

variable {place : DeltaPlace} {delta : StoredDelta}

theorem gap_free (closed : host.hasGap fence = false)
    {mover : String} (got : host.deltas.get place = some delta)
    (here : delta.here = true) (moving : delta.moving = some mover) (away : mover ≠ fence) :
    host.ports.get delta.manifest.port ≠ none := by
  intro free
  have mem := (mem_rows_iff host.deltas place delta).mpr got
  have refused := List.any_eq_false.mp closed _ mem
  simp [here, moving, away, free] at refused

theorem unmoved_of_not_isMoving (stopped : host.isMoving fence = false)
    (got : host.deltas.get place = some delta)
    (here : delta.here = true) : delta.moving ≠ some fence := by
  intro moving
  have mem := (mem_rows_iff host.deltas place delta).mpr got
  have refused := List.any_eq_false.mp stopped _ mem
  simp [here, moving] at refused

variable {port want : Nat}

theorem not_born (unborn : host.isBorn fence = false) :
    host.hands.get tid ≠ some ⟨fence, port, false⟩ := by
  intro got
  have mem := (mem_rows_iff host.hands tid _).mpr got
  have refused := List.any_eq_false.mp unborn _ mem
  simp at refused

theorem knows_iff : host.knows fence = true ↔
    ∃ fiber, host.fibers.get fence = some fiber ∧ fiber.known = true := by
  simp [knows, Option.any_eq_true]

theorem isHere_iff : host.isHere place = true ↔
    ∃ delta, host.deltas.get place = some delta ∧ delta.here = true := by
  simp [isHere, Option.any_eq_true]

structure Step (thread : Nat) (later : PortStage) (host next : PortHost) : Prop where
  sound : next.Sound
  here : next.At thread later
  moves : Moves thread host next

theorem Step.same {stage : PortStage} (sound : host.Sound) (here : host.At tid stage) :
    Step tid stage host host := ⟨sound, here, Moves.refl host tid⟩

/-- What is not of the fence stays.  Of the ports only those of the fence change, and none that a
delta of another one still waits for. -/
structure Frame (fence : String) (host next : PortHost) : Prop where
  claimed : ∀ name delta, next.deltas.get (.claimed name) = some delta → delta.here = false
  ports : ∀ port name, name ≠ fence →
    (next.ports.get port = some name ↔ host.ports.get port = some name)
  free : ∀ name delta mover, host.deltas.get (.own name) = some delta → delta.here = true →
    delta.moving = some mover → host.ports.get delta.manifest.port = none →
      next.ports.get delta.manifest.port = none ∨
        next.ports.get delta.manifest.port = some mover
  fibers : ∀ name, name ≠ fence → next.fibers.get name = host.fibers.get name
  deltas : ∀ name, name ≠ fence → next.deltas.get (.own name) = host.deltas.get (.own name)
  minted : ∀ name t, host.minted.get name = some t → next.minted.get name = some t
  hands : ∀ t hand, hand.fence ≠ fence →
    (next.hands.get t = some hand ↔ host.hands.get t = some hand)

theorem Sound.frame (sound : host.Sound) (fence : String) : Frame fence host host :=
  ⟨sound.claimed, fun _ _ _ => .rfl, fun _ _ _ _ _ _ => .inl, fun _ _ => rfl, fun _ _ => rfl,
    fun _ _ => id, fun _ _ _ => .rfl⟩

theorem Sound.change (sound : host.Sound) (fence : String) (frame : Frame fence host next)
    (here : next.SoundAt fence) : next.Sound := by
  have all : ∀ name, next.SoundAt name := by
    intro name
    by_cases same : name = fence
    · exact same ▸ here
    have ports := fun port => frame.ports port name same
    obtain ⟨used, births, endings, flags, live, parking, kept, own, still, moving, held⟩ :=
      sound.each name
    simp only [← frame.fibers name same, ← frame.deltas name same, ← ports] at *
    refine ⟨?_, ?_, ?_, flags, live, parking, kept, own, still, ?_, ?_⟩
    · intro fiber got
      obtain ⟨t, minted⟩ := Option.isSome_iff_exists.mp (used fiber got)
      exact Option.isSome_iff_exists.mpr ⟨t, frame.minted name t minted⟩
    · intro t port hand
      obtain ⟨held, unborn, minted, positive⟩ := births t port ((frame.hands t _ same).mp hand)
      exact ⟨held, unborn, frame.minted name t minted, positive⟩
    · exact fun t port hand => endings t port ((frame.hands t _ same).mp hand)
    · intro delta mover got here moves
      obtain ⟨apart, free | took⟩ := moving delta mover got here moves
      · exact ⟨apart, frame.free name delta mover (frame.deltas name same ▸ got) here moves free⟩
      · refine ⟨apart, ?_⟩
        by_cases mine : mover = fence
        · cases now : next.ports.get delta.manifest.port with
          | none => exact .inl rfl
          | some holder =>
            by_cases own : holder = fence
            · exact .inr (by rw [own, mine])
            · have old := (frame.ports _ _ own).mp now
              cases took.symm.trans old
              exact absurd mine own
        · exact .inr ((frame.ports _ mover mine).mpr took)
    · intro port hold
      obtain ⟨t, ending, got⟩ | ⟨fiber, got, rest⟩ | ⟨delta, got, rest⟩ := held port hold
      · exact .inl ⟨t, ending, (frame.hands t _ same).mpr got⟩
      · exact .inr (.inl ⟨fiber, (frame.fibers name same).trans got, rest⟩)
      · exact .inr (.inr ⟨delta, (frame.deltas name same).trans got, rest⟩)
  exact ⟨all, frame.claimed⟩

theorem mint_sound (sound : host.Sound) (fresh : host.minted.get fence = none) :
    Sound { host with minted := host.minted.put fence tid } := by
  have minted : ∀ name t, host.minted.get name = some t →
      (host.minted.put fence tid).get name = some t :=
    fun _ _ got => get_put_fresh fresh got
  refine ⟨fun name => { sound.each name with used := ?_, births := ?_ }, sound.claimed⟩
  · intro fiber got
    obtain ⟨t, mine⟩ := Option.isSome_iff_exists.mp ((sound.each name).used fiber got)
    exact Option.isSome_iff_exists.mpr ⟨t, minted name t mine⟩
  · intro t port got
    obtain ⟨held, unborn, mine, positive⟩ := (sound.each name).births t port got
    exact ⟨held, unborn, minted name t mine, positive⟩

theorem stopMoving_get (host : PortHost) (fence : String) (place : DeltaPlace) :
    (host.stopMoving fence).deltas.get place = (host.deltas.get place).map fun delta =>
      if delta.moving = some fence then { delta with moving := none } else delta :=
  get_map _ _ _

/-- A change of the deltas that keeps what there is of those parked here. -/
theorem deltas_sound {deltas : Table DeltaPlace StoredDelta} (sound : host.Sound)
    (back : ∀ name delta, deltas.get (.own name) = some delta →
      ∃ old, host.deltas.get (.own name) = some old ∧ delta.manifest = old.manifest ∧
        delta.here = old.here ∧ (delta.here = true → delta.moving = old.moving))
    (forth : ∀ name old, host.deltas.get (.own name) = some old →
      (deltas.get (.own name)).isSome)
    (claimed : ∀ name delta, deltas.get (.claimed name) = some delta → delta.here = false) :
    Sound { host with deltas := deltas } := by
  have kept : ∀ name old, host.deltas.get (.own name) = some old → old.here = true →
      ∃ delta, deltas.get (.own name) = some delta ∧ delta.here = true ∧
        delta.moving = old.moving ∧ delta.manifest = old.manifest := by
    intro name old got here
    obtain ⟨delta, there⟩ := Option.isSome_iff_exists.mp (forth name old got)
    obtain ⟨again, stored, manifest, same, moving⟩ := back name delta there
    cases got.symm.trans stored
    have now := same.trans here
    exact ⟨delta, there, now, moving now, manifest⟩
  refine ⟨fun name => { sound.each name with
    kept := ?_, own := ?_, still := ?_, moving := ?_, held := ?_ }, claimed⟩
  · intro fiber got known parked
    obtain parking | ⟨old, stored, here⟩ := (sound.each name).kept fiber got known parked
    · exact .inl parking
    · obtain ⟨delta, there, now, _⟩ := kept name old stored here
      exact .inr ⟨delta, there, now⟩
  · intro delta there
    obtain ⟨old, stored, manifest, here, _⟩ := back name delta there
    obtain ⟨fiber, got, own⟩ := (sound.each name).own old stored
    exact ⟨fiber, got, { own with
      port := manifest ▸ own.port
      fence := manifest ▸ own.fence
      here := here ▸ own.here }⟩
  · intro delta there here unmoved
    obtain ⟨old, stored, manifest, same, moving⟩ := back name delta there
    rw [manifest]
    exact (sound.each name).still old stored (same ▸ here) (moving here ▸ unmoved)
  · intro delta mover there here moves
    obtain ⟨old, stored, manifest, same, moving⟩ := back name delta there
    rw [manifest]
    exact (sound.each name).moving old mover stored (same ▸ here) (moving here ▸ moves)
  · intro port held
    obtain hand | fiber | ⟨old, stored, here, unmoved, same⟩ := (sound.each name).held port held
    · exact .inl hand
    · exact .inr (.inl fiber)
    · obtain ⟨delta, there, now, moving, manifest⟩ := kept name old stored here
      exact .inr (.inr ⟨delta, there, now, moving.trans unmoved, manifest ▸ same⟩)

theorem stopMoving_here (stopped : host.isMoving fence = false)
    (got : (host.stopMoving fence).deltas.get place = some delta) :
    ∃ old, host.deltas.get place = some old ∧ delta.manifest = old.manifest ∧
      delta.here = old.here ∧ (delta.here = true → delta.moving = old.moving) := by
  rw [stopMoving_get, Option.map_eq_some_iff] at got
  obtain ⟨old, there, same⟩ := got
  refine ⟨old, there, ?_⟩
  split at same
  · rename_i moving
    subst delta
    exact ⟨rfl, rfl, fun here => absurd moving (unmoved_of_not_isMoving stopped there here)⟩
  · subst delta
    exact ⟨rfl, rfl, fun _ => rfl⟩

theorem stopMoving_sound (sound : host.Sound) (stopped : host.isMoving fence = false) :
    (host.stopMoving fence).Sound := by
  refine deltas_sound sound (fun name delta => stopMoving_here stopped) ?_ ?_
  · intro name old got
    simp only [get_map, got, Option.map_some, Option.isSome_some]
  · intro name delta got
    obtain ⟨old, stored, _, here, _⟩ := stopMoving_here stopped got
    rw [here, sound.claimed name old stored]

theorem stopMoving_moves (stopped : host.isMoving fence = false) :
    Moves tid host (host.stopMoving fence) := by
  refine { Moves.refl host tid with deltas := ?_ }
  intro place delta got
  have kept := stopMoving_get host fence place
  rw [got, Option.map_some] at kept
  obtain ⟨old, stored, manifest, here, same⟩ := stopMoving_here stopped kept
  cases got.symm.trans stored
  exact ⟨_, kept, manifest, fun now => ⟨here ▸ now, fun still => (same now).symm.trans still⟩⟩

theorem Sound.undelta (sound : host.Sound) (unborn : host.fibers.get fence = none) :
    host.deltas.get (.own fence) = none := by
  by_contra some
  obtain ⟨delta, there⟩ := Option.ne_none_iff_exists'.mp some
  obtain ⟨fiber, got, _⟩ := (sound.each fence).own delta there
  simp [unborn] at got

theorem allocPort_sound (sound : host.Sound) (empty : host.hands.get tid = none)
    (minted : host.Minted tid fence) (closed : host.hasGap fence = false)
    (free : host.ports.get port = none ∨ host.ports.get port = some fence) (positive : 0 < port) :
    Sound { host with
      ports := host.ports.put port fence
      hands := host.hands.put tid ⟨fence, port, false⟩ } := by
  obtain ⟨mine, unborn⟩ := minted
  have bare := sound.undelta unborn
  refine sound.change fence { sound.frame fence with ports := ?_, free := ?_, hands := ?_ }
    { sound.each fence with
      births := ?_, endings := ?_, live := by simp [unborn], parking := by simp [unborn]
      still := by simp [bare], moving := by simp [bare], held := ?_ }
  · intro one name other
    grind [get_put]
  · intro name delta mover got here moving
    have := gap_free closed got here moving
    grind [get_put]
  · intro t hand other
    grind [get_put]
  · intro t one got
    have := (sound.each fence).births t
    grind [get_put]
  · intro t one got
    have := (sound.each fence).endings t one
    grind [get_put]
  · intro one held
    obtain ⟨same, _⟩ | ⟨_, held⟩ := get_put_eq_some held
    · subst one
      exact .inl ⟨tid, false, get_put_same _ _ _⟩
    · obtain ⟨t, ending, got⟩ | rest := (sound.each fence).held one held
      · exact .inl ⟨t, ending, get_put_fresh empty got⟩
      · exact .inr rest

variable {manifest : PortManifest}

theorem takeOver_sound (sound : host.Sound)
    (held : host.ports.get manifest.port = some manifest.fence)
    (here : host.isHere (.own manifest.fence) = true)
    (gone : host.knows manifest.fence = false) (unborn : host.fibers.get fence = none)
    (stores : host.Stores (.own manifest.fence) manifest) :
    Sound { host with
      ports := host.ports.drop manifest.port
      deltas := host.deltas.edit (.own manifest.fence) fun delta =>
        { delta with moving := some fence } } := by
  obtain ⟨delta, got, rfl⟩ := stores
  obtain ⟨again, foundAgain, here⟩ := isHere_iff.mp here
  cases got.symm.trans foundAgain
  obtain ⟨fiber, noted, own⟩ := (sound.each _).own delta got
  have away : fence ≠ delta.manifest.fence := by
    intro same
    simp [same, noted] at unborn
  have changed : ∀ stored, (host.deltas.edit (.own delta.manifest.fence) fun delta =>
      { delta with moving := some fence }).get (.own delta.manifest.fence) = some stored →
        stored = { delta with moving := some fence } := by
    intro stored there
    simpa [get_edit, got, eq_comm] using there
  have live : ∀ other, host.fibers.get delta.manifest.fence = some other → other.known = false := by
    intro other there
    simpa [knows, there] using gone
  refine sound.change delta.manifest.fence
    { sound.frame delta.manifest.fence with
      claimed := ?_, ports := ?_, free := ?_
      deltas := fun name apart => get_edit_other _ _ (by simpa using apart) }
    { sound.each delta.manifest.fence with
      births := ?_, live := ?_, parking := ?_, kept := ?_, own := ?_, still := ?_, moving := ?_
      held := ?_ }
  · intro name stored there
    rw [get_edit_other _ _ (by simp)] at there
    exact sound.claimed name stored there
  · intro port name other
    grind [get_drop]
  · intro name stored mover _ _ _ none
    grind [get_drop]
  · intro t port hand
    have unborn := ((sound.each _).births t port hand).2.1
    simp [noted] at unborn
  · intro other there known
    simp [live other there] at known
  · intro other there parking
    cases noted.symm.trans there
    simp [own.parking] at parking
  · intro other there known
    simp [live other there] at known
  · intro stored there
    rw [changed stored there]
    exact ⟨fiber, noted, { own with }⟩
  · intro stored there _ still
    simp [changed stored there] at still
  · intro stored mover there _ moving
    rw [changed stored there] at moving ⊢
    cases moving
    exact ⟨away, .inl (get_drop_same _ _)⟩
  · intro port there
    obtain ⟨elsewhere, there⟩ := get_drop_eq_some there
    obtain hand | other | ⟨stored, kept, _, _, same⟩ := (sound.each _).held port there
    · exact .inl hand
    · exact .inr (.inl other)
    · cases got.symm.trans kept
      exact absurd same.symm elsewhere

theorem freePort_get (host : PortHost) (positive : 0 < port) (one : Nat) :
    (host.freePort port fence).ports.get one =
      if one = port ∧ host.ports.get port = some fence then none else host.ports.get one := by
  simp only [freePort]
  by_cases held : host.ports.get port = some fence
  · rw [if_pos ⟨by omega, held⟩]
    simp only [get_drop, held, and_true]
  · rw [if_neg (fun both => held both.2)]
    simp [held]

theorem freePort_sound (sound : host.Sound) {ending : Bool}
    (hand : host.hands.get tid = some ⟨fence, port, ending⟩) :
    Sound { host.freePort port fence with hands := host.hands.drop tid } := by
  have idle : (∀ fiber, host.fibers.get fence = some fiber →
      fiber.known = false ∧ fiber.parked = false) ∧ 0 < port := by
    cases ending with
    | false =>
      obtain ⟨_, unborn, _, positive⟩ := (sound.each fence).births tid port hand
      exact ⟨fun fiber got => by simp [unborn] at got, positive⟩
    | true =>
      obtain ⟨fiber, got, gone, unparked, same⟩ := (sound.each fence).endings tid port hand
      refine ⟨fun other there => ?_, same ▸ ((sound.each fence).flags fiber got).positive⟩
      cases got.symm.trans there
      exact ⟨gone, unparked⟩
  obtain ⟨idle, positive⟩ := idle
  have unparked : ∀ delta, host.deltas.get (.own fence) = some delta → delta.here = false := by
    intro delta got
    obtain ⟨fiber, there, own⟩ := (sound.each fence).own delta got
    by_contra here
    have parked := (own.here (by simpa using here)).1
    simp [(idle fiber there).2] at parked
  refine sound.change fence { sound.frame fence with ports := ?_, free := ?_, hands := ?_ }
    { sound.each fence with
      births := ?_, endings := ?_, live := ?_, parking := ?_, still := ?_, moving := ?_
      held := ?_ }
  · intro one name other
    rw [freePort_get host positive]
    grind
  · intro name delta mover _ _ _ none
    rw [freePort_get host positive]
    grind
  · intro t other apart
    grind [get_drop]
  · -- Nobody else has a port in hand for the fence before its birth.
    intro t one got
    obtain ⟨apart, got⟩ := get_drop_eq_some got
    obtain ⟨_, unborn, mine, _⟩ := (sound.each fence).births t one got
    cases ending with
    | false =>
      have own := ((sound.each fence).births tid port hand).2.2.1
      rw [mine, Option.some.injEq] at own
      exact absurd own apart
    | true =>
      obtain ⟨fiber, there, _⟩ := (sound.each fence).endings tid port hand
      simp [unborn] at there
  · intro t one got
    exact (sound.each fence).endings t one (get_drop_eq_some got).2
  · intro fiber got known
    simp [(idle fiber got).1] at known
  · intro fiber got parking kept
    have parked := (((sound.each fence).flags fiber got).parking parking).2 kept
    simp [(idle fiber got).2] at parked
  · intro delta got here
    simp [unparked delta got] at here
  · intro delta mover got here
    simp [unparked delta got] at here
  · intro one held
    rw [freePort_get host positive] at held
    split at held
    · simp at held
    · rename_i other
      obtain ⟨t, ended, got⟩ | account := (sound.each fence).held one held
      · refine .inl ⟨t, ended, ?_⟩
        rw [get_drop_other]
        · exact got
        · rintro rfl
          rw [hand] at got
          cases got
          exact other ⟨rfl, held⟩
      · exact .inr account

theorem register_sound (sound : host.Sound)
    (hand : host.hands.get tid = some ⟨fence, port, false⟩) :
    Sound { host with
      fibers := host.fibers.put fence { port := port }
      hands := host.hands.drop tid } := by
  obtain ⟨reserved, unborn, mine, positive⟩ := (sound.each fence).births tid port hand
  have bare := sound.undelta unborn
  have born : ∀ fiber, (host.fibers.put fence { port := port }).get fence = some fiber →
      fiber = { port := port } := by
    intro fiber got
    simpa [eq_comm] using got
  refine sound.change fence
    { sound.frame fence with fibers := fun _ apart => get_put_other _ _ apart, hands := ?_ }
    { sound.each fence with
      used := ?_, births := ?_, endings := ?_, flags := ?_, live := ?_, parking := ?_, kept := ?_
      own := by simp [bare], held := ?_ }
  · intro t other apart
    grind [get_drop]
  · exact fun _ _ => Option.isSome_iff_exists.mpr ⟨tid, mine⟩
  · intro t one got
    obtain ⟨apart, got⟩ := get_drop_eq_some got
    exact absurd (Option.some.inj (((sound.each fence).births t one got).2.2.1.symm.trans mine)) apart
  · intro t one got
    obtain ⟨_, got⟩ := get_drop_eq_some got
    obtain ⟨fiber, there, _⟩ := (sound.each fence).endings t one got
    simp [unborn] at there
  · intro fiber got
    rw [born fiber got]
    exact ⟨fun _ => ⟨rfl, rfl⟩, by simp, fun _ => by simp, positive⟩
  · intro fiber got _
    rw [born fiber got]
    exact reserved
  · intro fiber got parking
    simp [born fiber got] at parking
  · intro fiber got _ parked
    simp [born fiber got] at parked
  · intro one held
    obtain ⟨t, ending, got⟩ | ⟨fiber, there, _⟩ | ⟨delta, there, _⟩ := (sound.each fence).held one held
    · by_cases same : t = tid
      · rw [same, hand] at got
        cases got
        exact .inr (.inl ⟨_, get_put_same _ _ _, rfl, .inl rfl⟩)
      · exact .inl ⟨t, ending, (get_drop_other _ same).trans got⟩
    · simp [unborn] at there
    · simp [bare] at there

theorem register_moves (mine : host.minted.get fence = some tid)
    (unborn : host.fibers.get fence = none) :
    Moves tid host { host with
      fibers := host.fibers.put fence { port := port }
      hands := host.hands.drop tid } := by
  refine { Moves.refl host tid with hands := ?_, unborn := ?_, unready := ?_, parking := ?_ }
  · exact fun _ apart => get_drop_other _ apart
  · intro name t apart his fresh
    rw [get_put_other _ _ (by rintro rfl; exact apart (Option.some.inj (his.symm.trans mine)))]
    exact fresh
  · exact fun name fiber t _ _ got unready => ⟨fiber, get_put_fresh unborn got, rfl, unready⟩
  · exact fun name fiber t _ got parking => ⟨fiber, get_put_fresh unborn got, parking⟩

variable {fiber later : PortFiber}

variable {deltas : Table DeltaPlace StoredDelta}

theorem fiber_sound (sound : host.Sound) {hands : Table Nat PortHand} {parks : Table Nat String}
    (got : host.fibers.get fence = some fiber) (port : later.port = fiber.port)
    (flags : Flags later) (live : later.known = true → fiber.known = true)
    (ends : fiber.known = false → fiber.parked = false → later.parked = false)
    (parking : later.parking.isSome → later.discarded = false →
      host.ports.get fiber.port = some fence)
    (kept : later.known = true → later.parked = true → later.parking.isSome ∨ ∃ delta,
      deltas.get (.own fence) = some delta ∧ delta.here = true)
    (others : ∀ place, place ≠ .own fence → deltas.get place = host.deltas.get place)
    (own : ∀ delta, deltas.get (.own fence) = some delta → OwnDelta fence later delta)
    (still : ∀ delta, deltas.get (.own fence) = some delta → delta.here = true →
      delta.moving = none → host.ports.get fiber.port = some fence)
    (moving : ∀ delta mover, deltas.get (.own fence) = some delta → delta.here = true →
      delta.moving = some mover → mover ≠ fence ∧ (host.ports.get fiber.port = none ∨
      host.ports.get fiber.port = some mover))
    (added : ∀ tid hand, hands.get tid = some hand → host.hands.get tid = some hand ∨
      (hand = ⟨fence, fiber.port, true⟩ ∧ later.known = false ∧ later.parked = false))
    (same : ∀ tid hand, host.hands.get tid = some hand → hands.get tid = some hand)
    (accounted : ∀ port, host.ports.get port = some fence →
      Accounted { host with
        fibers := host.fibers.put fence later, deltas := deltas, hands := hands,
        parks := parks } fence port) :
    Sound { host with
      fibers := host.fibers.put fence later, deltas := deltas, hands := hands,
      parks := parks } := by
  have mine : ∀ other, (host.fibers.put fence later).get fence = some other → other = later := by
    intro other there
    simpa [eq_comm] using there
  refine sound.change fence
    { sound.frame fence with
      claimed := ?_, hands := ?_, fibers := fun _ apart => get_put_other _ _ apart
      deltas := fun name apart => others _ (by simpa using apart) }
    ⟨fun _ _ => (sound.each fence).used fiber got, ?_, ?_, ?_, ?_, ?_, ?_, ?_, ?_, ?_, accounted⟩
  · intro name delta there
    rw [others _ (by simp)] at there
    exact sound.claimed name delta there
  · intro t hand apart
    refine ⟨fun there => ?_, same t hand⟩
    obtain old | ⟨rfl, _⟩ := added t hand there
    · exact old
    · exact absurd rfl apart
  · intro t one there
    obtain old | ⟨hand, _⟩ := added t _ there
    · have unborn := ((sound.each fence).births t one old).2.1
      simp [got] at unborn
    · simp at hand
  · intro t one there
    refine ⟨later, get_put_same _ _ _, ?_⟩
    obtain old | ⟨hand, gone, unparked⟩ := added t _ there
    · obtain ⟨other, stands, gone, unparked, his⟩ := (sound.each fence).endings t one old
      cases got.symm.trans stands
      refine ⟨?_, ends gone unparked, port.trans his⟩
      by_contra known
      simp [live (by simpa using known)] at gone
    · cases hand
      exact ⟨gone, unparked, port⟩
  · intro other there
    exact mine other there ▸ flags
  · intro other there known
    rw [mine other there] at known ⊢
    exact port ▸ (sound.each fence).live fiber got (live known)
  · intro other there waits spared
    rw [mine other there] at waits spared ⊢
    exact port ▸ parking waits spared
  · intro other there known parked
    rw [mine other there] at known parked ⊢
    exact kept known parked
  · exact fun delta there => ⟨later, get_put_same _ _ _, own delta there⟩
  · intro delta there here unmoved
    rw [(own delta there).port, port]
    exact still delta there here unmoved
  · intro delta mover there here moves
    rw [(own delta there).port, port]
    exact moving delta mover there here moves

def KeepsDeltas (before after : Table DeltaPlace StoredDelta) : Prop :=
  ∀ place delta, before.get place = some delta → ∃ later, after.get place = some later ∧
    later.manifest = delta.manifest ∧
    (later.here = true → delta.here = true ∧ (later.moving = none → delta.moving = none))

theorem fiber_moves {hands : Table Nat PortHand} {parks : Table Nat String}
    (got : host.fibers.get fence = some fiber) (port : later.port = fiber.port)
    (ready : later.ready = fiber.ready ∨ host.minted.get fence = some tid)
    (parking : ∀ other, other ≠ tid → fiber.parking = some other → later.parking = some other)
    (stays : ∀ other, other ≠ tid → hands.get other = host.hands.get other)
    (kept : KeepsDeltas host.deltas deltas) :
    Moves tid host { host with
      fibers := host.fibers.put fence later, deltas := deltas, hands := hands,
      parks := parks } := by
  refine ⟨stays, fun _ _ minted => minted, ?_, kept, ?_, ?_⟩
  · intro name t apart his fresh
    rw [get_put_other _ _ (by rintro rfl; simp [got] at fresh)]
    exact fresh
  · intro name other t apart his there unready
    by_cases mine : name = fence
    · subst name
      cases got.symm.trans there
      refine ⟨later, get_put_same _ _ _, port, ?_⟩
      rcases ready with same | minted
      · rw [same, unready]
      · exact absurd (Option.some.inj (his.symm.trans minted)) apart
    · exact ⟨other, (get_put_other _ _ mine).trans there, rfl, unready⟩
  · intro name other t apart there waits
    by_cases mine : name = fence
    · subst name
      cases got.symm.trans there
      exact ⟨later, get_put_same _ _ _, parking t apart waits⟩
    · exact ⟨other, (get_put_other _ _ mine).trans there, waits⟩

section OneFiber

variable {fiber : PortFiber} {delta : StoredDelta}

section

variable (sound : host.Sound) (got : host.fibers.get fence = some fiber)
  (there : host.deltas.get (.own fence) = some delta)
include sound got there

theorem Sound.ownDelta : OwnDelta fence fiber delta := by
  obtain ⟨other, stands, own⟩ := (sound.each fence).own delta there
  cases got.symm.trans stands
  exact own

theorem Sound.stillAt (here : delta.here = true) (unmoved : delta.moving = none) :
    host.ports.get fiber.port = some fence := by
  rw [← (sound.ownDelta got there).port]
  exact (sound.each fence).still delta there here unmoved

theorem Sound.movingAt {mover : String} (here : delta.here = true)
    (moving : delta.moving = some mover) : mover ≠ fence ∧
      (host.ports.get fiber.port = none ∨ host.ports.get fiber.port = some mover) := by
  rw [← (sound.ownDelta got there).port]
  exact (sound.each fence).moving delta mover there here moving

end

theorem Sound.bare (sound : host.Sound) (got : host.fibers.get fence = some fiber)
    (off : ∀ delta, ¬OwnDelta fence fiber delta) : host.deltas.get (.own fence) = none := by
  by_contra some
  obtain ⟨delta, there⟩ := Option.ne_none_iff_exists'.mp some
  exact off delta (sound.ownDelta got there)

theorem Sound.unmoved_of_known (sound : host.Sound) (got : host.fibers.get fence = some fiber)
    (known : fiber.known = true) (there : host.deltas.get (.own fence) = some delta)
    (here : delta.here = true) : delta.moving = none := by
  cases moving : delta.moving with
  | none => rfl
  | some mover =>
    have held := (sound.each fence).live fiber got known
    obtain ⟨apart, free | took⟩ := sound.movingAt got there here moving
    · simp [held] at free
    · rw [held, Option.some.injEq] at took
      exact absurd took.symm apart

variable (sound : host.Sound)
include sound

theorem takeEnd_sound (empty : host.hands.get tid = none)
    (got : host.fibers.get fence = some fiber) (known : fiber.parked → fiber.known = true) :
    Sound { host with
      fibers := host.fibers.put fence { fiber with known := false }
      hands := if fiber.parked then host.hands
        else host.hands.put tid ⟨fence, fiber.port, true⟩ } := by
  have flags := (sound.each fence).flags fiber got
  have kept : ∀ t hand, host.hands.get t = some hand →
      (if fiber.parked then host.hands
        else host.hands.put tid ⟨fence, fiber.port, true⟩).get t = some hand := by
    intro t hand there
    split
    · exact there
    · exact get_put_fresh empty there
  refine fiber_sound sound got rfl { flags with discarded := by simp } (by simp) (fun _ => id)
    ((sound.each fence).parking fiber got) (by simp) (fun _ _ => rfl)
    (fun delta there => { sound.ownDelta got there with })
    (fun delta there => sound.stillAt got there)
    (fun delta mover there => sound.movingAt got there) ?_ kept ?_
  · intro t hand there
    split at there
    · exact .inl there
    · rename_i unparked
      obtain ⟨_, rfl⟩ | ⟨_, there⟩ := get_put_eq_some there
      · exact .inr ⟨rfl, rfl, by simpa using unparked⟩
      · exact .inl there
  · intro port held
    obtain ⟨t, ending, hand⟩ | ⟨other, there, same, _⟩ | stored := (sound.each fence).held port held
    · exact .inl ⟨t, ending, kept t _ hand⟩
    · cases got.symm.trans there
      by_cases parked : fiber.parked = true
      · replace known := known parked
        have spared : fiber.discarded = false := by
          by_contra discarded
          simp only [Bool.not_eq_false] at discarded
          simp [flags.discarded known discarded] at parked
        obtain parking | ⟨delta, stored, here⟩ := (sound.each fence).kept fiber got known parked
        · exact .inr (.inl ⟨_, get_put_same _ _ _, same, .inr ⟨parking, spared⟩⟩)
        · exact .inr (.inr ⟨delta, stored, here, sound.unmoved_of_known got known stored here,
            (sound.ownDelta got stored).port.trans same⟩)
      · refine .inl ⟨tid, true, ?_⟩
        simp [parked, same]
    · exact .inr (.inr stored)

theorem beginPark_sound (got : host.fibers.get fence = some fiber) (known : fiber.known = true)
    (unreleased : fiber.released = false) (ready : fiber.ready = true)
    (spared : fiber.discarded = false) (parks : Table Nat String) :
    Sound { host with
      fibers := host.fibers.put fence
        { fiber with released := true, parked := true, parking := some tid }
      parks := parks } := by
  have flags := (sound.each fence).flags fiber got
  have bare := sound.bare got fun _ own => by simp [own.released] at unreleased
  refine fiber_sound sound got rfl ⟨by simp [ready], by simp, by simp [spared], flags.positive⟩
    id (by simp [known]) (fun _ _ => (sound.each fence).live fiber got known) (by simp)
    (fun _ _ => rfl) (by simp [bare]) (by simp [bare]) (by simp [bare]) (fun _ _ => .inl)
    (fun _ _ => id) ?_
  intro port held
  obtain hand | ⟨other, there, same, _⟩ | ⟨delta, there, _⟩ := (sound.each fence).held port held
  · exact .inl hand
  · cases got.symm.trans there
    exact .inr (.inl ⟨_, get_put_same _ _ _, same, .inl known⟩)
  · simp [bare] at there

theorem unpark_sound (got : host.fibers.get fence = some fiber) (known : fiber.known = true)
    (parking : fiber.parking.isSome) (parks : Table Nat String) :
    Sound { host with
      fibers := host.fibers.put fence
        { fiber with released := false, parked := false, parking := none }
      parks := parks } := by
  have flags := (sound.each fence).flags fiber got
  have bare := sound.bare got fun _ own => by simp [own.parking] at parking
  refine fiber_sound sound got rfl ⟨by simp, by simp, by simp, flags.positive⟩
    id (by simp) (by simp) (by simp) (fun _ _ => rfl) (by simp [bare]) (by simp [bare])
    (by simp [bare]) (fun _ _ => .inl) (fun _ _ => id) ?_
  intro port held
  obtain hand | ⟨other, there, same, _⟩ | ⟨delta, there, _⟩ := (sound.each fence).held port held
  · exact .inl hand
  · cases got.symm.trans there
    exact .inr (.inl ⟨_, get_put_same _ _ _, same, .inl known⟩)
  · simp [bare] at there

theorem dump_sound (got : host.fibers.get fence = some fiber) (parking : fiber.parking.isSome)
    (relay readable : Bool) (parks : Table Nat String) :
    Sound { host with
      fibers := host.fibers.put fence { fiber with parking := none }
      deltas := host.deltas.put (.own fence)
        { manifest := ⟨fence, fiber.port, relay⟩
          readable := readable
          here := !fiber.discarded }
      parks := parks } := by
  have flags := (sound.each fence).flags fiber got
  obtain ⟨released, parked⟩ := flags.parking parking
  have bare := sound.bare got fun _ own => by simp [own.parking] at parking
  refine fiber_sound sound got rfl
    ⟨fun unready => ⟨(flags.unready unready).1, rfl⟩, by simp, flags.discarded, flags.positive⟩
    id (fun _ => id) (by simp) ?_ (fun place apart => get_put_other _ _ apart) ?_ ?_ ?_
    (fun _ _ => .inl) (fun _ _ => id) ?_
  · intro known parked
    refine .inr ⟨_, get_put_same _ _ _, ?_⟩
    cases discarded : fiber.discarded with
    | false => rfl
    | true => simp [flags.discarded known discarded] at parked
  · intro delta there
    rw [get_put_same] at there
    cases there
    refine ⟨released, rfl, rfl, rfl, fun here => ?_⟩
    have spared : fiber.discarded = false := by simpa using here
    exact ⟨parked spared, spared⟩
  · intro delta there here _
    rw [get_put_same] at there
    cases there
    exact (sound.each fence).parking fiber got parking (by simpa using here)
  · intro delta mover there _ moving
    rw [get_put_same] at there
    cases there
    simp at moving
  · intro port held
    obtain hand | ⟨other, there, same, known | waits⟩ | ⟨delta, there, _⟩ :=
      (sound.each fence).held port held
    · exact .inl hand
    · cases got.symm.trans there
      exact .inr (.inl ⟨_, get_put_same _ _ _, same, .inl known⟩)
    · cases got.symm.trans there
      exact .inr (.inr ⟨_, get_put_same _ _ _, by simp [waits.2], rfl, same⟩)
    · simp [bare] at there

theorem ready_sound (got : host.fibers.get fence = some fiber) :
    Sound { host with fibers := host.fibers.put fence { fiber with ready := true } } := by
  have flags := (sound.each fence).flags fiber got
  refine fiber_sound sound got rfl { flags with unready := by simp } id (fun _ => id)
    ((sound.each fence).parking fiber got) ((sound.each fence).kept fiber got) (fun _ _ => rfl)
    (fun delta there => { sound.ownDelta got there with })
    (fun delta there => sound.stillAt got there)
    (fun delta mover there => sound.movingAt got there) (fun _ _ => .inl) (fun _ _ => id) ?_
  intro port held
  obtain hand | ⟨other, there, rest⟩ | stored := (sound.each fence).held port held
  · exact .inl hand
  · cases got.symm.trans there
    exact .inr (.inl ⟨_, get_put_same _ _ _, rest⟩)
  · exact .inr (.inr stored)

theorem beginRelease_sound (got : host.fibers.get fence = some fiber) (known : fiber.known = true)
    (discard : Bool) :
    Sound { host with
      fibers := host.fibers.put fence
        { fiber with
          released := true
          parked := fiber.parked && !discard
          discarded := fiber.discarded || discard }
      deltas := if discard then (host.leave (.own fence)).deltas else host.deltas } := by
  have flags := (sound.each fence).flags fiber got
  have accounted : ∀ (later : PortFiber) deltas, later.port = fiber.port → later.known = true →
      ∀ port, host.ports.get port = some fence → Accounted { host with
        fibers := host.fibers.put fence later, deltas := deltas } fence port := by
    intro later deltas same still port held
    obtain hand | ⟨other, there, same', _⟩ | ⟨delta, there, here, _, same'⟩ :=
      (sound.each fence).held port held
    · exact .inl hand
    · cases got.symm.trans there
      exact .inr (.inl ⟨_, get_put_same _ _ _, same.trans same', .inl still⟩)
    · refine .inr (.inl ⟨_, get_put_same _ _ _, ?_, .inl still⟩)
      rw [same, ← (sound.ownDelta got there).port, same']
  cases discard with
  | false =>
    simp only [Bool.not_false, Bool.and_true, Bool.or_false, Bool.false_eq_true, if_false]
    refine fiber_sound sound got rfl
      { flags with parking := fun waits => ⟨rfl, (flags.parking waits).2⟩ } id (fun _ => id)
      ((sound.each fence).parking fiber got) ((sound.each fence).kept fiber got) (fun _ _ => rfl)
      (fun delta there => { sound.ownDelta got there with released := rfl })
      (fun delta there => sound.stillAt got there)
      (fun delta mover there => sound.movingAt got there) (fun _ _ => .inl) (fun _ _ => id)
      (accounted _ _ rfl known)
  | true =>
    simp only [Bool.not_true, Bool.and_false, Bool.or_true, if_true, leave]
    have gone : ∀ delta, (host.deltas.edit (.own fence) fun delta =>
        { delta with here := false }).get (.own fence) = some delta →
          delta.here = false ∧ ∃ old, host.deltas.get (.own fence) = some old ∧
            delta.manifest = old.manifest := by
      intro delta there
      obtain ⟨_, old, stored, rfl⟩ | ⟨apart, _⟩ := get_edit_eq_some there
      · exact ⟨rfl, old, stored, rfl⟩
      · exact absurd rfl apart
    refine fiber_sound sound got rfl
      ⟨fun unready => ⟨rfl, (flags.unready unready).2⟩, by simp, by simp, flags.positive⟩ id
      (by simp) (by simp) (by simp) (fun place apart => get_edit_other _ _ apart) ?_ ?_ ?_
      (fun _ _ => .inl) (fun _ _ => id) (accounted _ _ rfl known)
    · intro delta there
      obtain ⟨here, old, stored, manifest⟩ := gone delta there
      have own := sound.ownDelta got stored
      exact ⟨rfl, own.parking, manifest ▸ own.port, manifest ▸ own.fence, by simp [here]⟩
    · intro delta there here
      simp [(gone delta there).1] at here
    · intro delta mover there here
      simp [(gone delta there).1] at here

end OneFiber

variable {change : StoredDelta → StoredDelta}

theorem edit_sound (sound : host.Sound)
    (manifest : ∀ delta, (change delta).manifest = delta.manifest)
    (moving : ∀ delta, (change delta).moving = delta.moving)
    (here : ∀ delta, host.deltas.get place = some delta → (change delta).here = delta.here) :
    Sound { host with deltas := host.deltas.edit place change } := by
  have back : ∀ other delta, (host.deltas.edit place change).get other = some delta →
      ∃ old, host.deltas.get other = some old ∧ delta.manifest = old.manifest ∧
        delta.here = old.here ∧ (delta.here = true → delta.moving = old.moving) := by
    intro other delta there
    obtain ⟨rfl, old, stored, rfl⟩ | ⟨_, there⟩ := get_edit_eq_some there
    · exact ⟨old, stored, manifest old, here old stored, fun _ => moving old⟩
    · exact ⟨delta, there, rfl, rfl, fun _ => rfl⟩
  refine deltas_sound sound (fun name => back _) ?_ ?_
  · intro name old got
    rw [get_edit]
    split
    · rename_i same
      simp [← same, got]
    · simp [got]
  · intro name delta there
    obtain ⟨old, stored, _, same, _⟩ := back _ delta there
    rw [same, sound.claimed name old stored]

theorem leave_sound (sound : host.Sound) (handed : host.Handed place) :
    (host.leave place).Sound := by
  obtain ⟨delta, got, away⟩ := handed
  cases here : delta.here with
  | false =>
    refine edit_sound sound (fun _ => rfl) (fun _ => rfl) ?_
    intro other there
    cases got.symm.trans there
    exact here.symm
  | true =>
    cases place with
    | claimed name => simp [sound.claimed name delta got] at here
    | own name =>
      obtain ⟨mover, moving⟩ := Option.ne_none_iff_exists'.mp (away here)
      have left : ∀ stored, (host.leave (.own name)).deltas.get (.own name) = some stored →
          stored = { delta with here := false } := by
        intro stored there
        simpa [leave, get_edit, got, eq_comm] using there
      refine sound.change name
        { sound.frame name with
          claimed := ?_, deltas := fun other apart => get_edit_other _ _ (by simpa using apart) }
        { sound.each name with kept := ?_, own := ?_, still := ?_, moving := ?_, held := ?_ }
      · intro other stored there
        simp only [leave] at there
        rw [get_edit_other _ _ (by simp)] at there
        exact sound.claimed other stored there
      · intro fiber noted known parked
        obtain parking | ⟨stored, there, _⟩ := (sound.each name).kept fiber noted known parked
        · exact .inl parking
        · simp [sound.unmoved_of_known noted known got here] at moving
      · intro stored there
        obtain ⟨fiber, noted, own⟩ := (sound.each name).own delta got
        rw [left stored there]
        exact ⟨fiber, noted, { own with here := by simp }⟩
      · intro stored there present
        simp [left stored there] at present
      · intro stored mover there present
        simp [left stored there] at present
      · intro port held
        obtain hand | fiber | ⟨stored, there, _, unmoved, _⟩ := (sound.each name).held port held
        · exact .inl hand
        · exact .inr (.inl fiber)
        · cases got.symm.trans there
          simp [unmoved] at moving

theorem freePorts_sound (sound : host.Sound)
    (unknown : host.knows fence = false) (unborn : host.isBorn fence = false)
    (mine : place = .own fence ∨
      (host.isHere (.own fence) = false ∧ host.isParking fence = false ∧
        ∀ name, place ≠ .own name)) :
    Sound { host.freePorts fence with
      fibers := host.fibers.edit fence fun fiber => { fiber with discarded := true }
      deltas := (host.leave place).deltas } := by
  have ports : ∀ port name, (host.freePorts fence).ports.get port = some name ↔
      host.ports.get port = some name ∧ name ≠ fence := by
    intro port name
    simp only [freePorts, get_keep, decide_eq_true_eq]
  have back : ∀ fiber, (host.fibers.edit fence fun fiber =>
      { fiber with discarded := true }).get fence = some fiber →
        ∃ old, host.fibers.get fence = some old ∧ old.known = false ∧
          fiber = { old with discarded := true } := by
    intro fiber there
    obtain ⟨_, old, got, rfl⟩ | ⟨apart, _⟩ := get_edit_eq_some there
    · exact ⟨old, got, by simpa [knows, got] using unknown, rfl⟩
    · exact absurd rfl apart
  have deltas : ∀ other stored, (host.leave place).deltas.get other = some stored →
      ∃ old, host.deltas.get other = some old ∧ stored.manifest = old.manifest ∧
        (stored.here = true → old.here = true ∧ other ≠ place) := by
    intro other stored there
    obtain ⟨rfl, old, got, rfl⟩ | ⟨apart, there⟩ := get_edit_eq_some there
    · exact ⟨old, got, rfl, by simp⟩
    · exact ⟨stored, there, rfl, fun here => ⟨here, apart⟩⟩
  have gone : ∀ stored, (host.leave place).deltas.get (.own fence) = some stored →
      stored.here = false := by
    intro stored there
    by_contra present
    obtain ⟨old, got, _, kept⟩ := deltas _ stored there
    obtain ⟨here, apart⟩ := kept (by simpa using present)
    rcases mine with rfl | ⟨absent, _⟩
    · exact apart rfl
    · simp [isHere, got, here] at absent
  refine sound.change fence
    { sound.frame fence with
      claimed := ?_, ports := ?_, free := ?_, fibers := fun _ apart => get_edit_other _ _ apart
      deltas := ?_ } ⟨?_, ?_, ?_, ?_, ?_, ?_, ?_, ?_, ?_, ?_, ?_⟩
  · intro name stored there
    obtain ⟨old, got, _, kept⟩ := deltas _ stored there
    by_contra present
    have here := (kept (by simpa using present)).1
    simp [sound.claimed name old got] at here
  · intro port name apart
    simp [ports, apart]
  · intro name delta mover _ _ _ none
    cases now : (host.freePorts fence).ports.get delta.manifest.port with
    | none => exact .inl rfl
    | some holder => simp [((ports _ _).mp now).1] at none
  · intro name apart
    refine get_edit_other _ _ ?_
    rcases mine with rfl | ⟨_, _, other⟩
    · simpa using apart
    · exact (other name).symm
  · intro fiber there
    obtain ⟨old, got, _⟩ := back fiber there
    exact (sound.each fence).used old got
  · exact fun t port hand => absurd hand (not_born unborn)
  · intro t port hand
    obtain ⟨fiber, got, facts⟩ := (sound.each fence).endings t port hand
    exact ⟨{ fiber with discarded := true }, by simp [get_edit, got], facts⟩
  · intro fiber there
    obtain ⟨old, got, unrecorded, rfl⟩ := back fiber there
    have flags := (sound.each fence).flags old got
    exact ⟨flags.unready, fun waits => ⟨(flags.parking waits).1, by simp⟩,
      by simp [unrecorded], flags.positive⟩
  · intro fiber there known
    obtain ⟨old, _, unrecorded, rfl⟩ := back fiber there
    simp [unrecorded] at known
  · intro fiber there _ spared
    obtain ⟨old, _, _, rfl⟩ := back fiber there
    simp at spared
  · intro fiber there known
    obtain ⟨old, _, unrecorded, rfl⟩ := back fiber there
    simp [unrecorded] at known
  · intro stored there
    obtain ⟨old, got, manifest, _⟩ := deltas _ stored there
    obtain ⟨fiber, noted, facts⟩ := (sound.each fence).own old got
    exact ⟨{ fiber with discarded := true }, by simp [get_edit, noted], facts.released,
      facts.parking, manifest ▸ facts.port, manifest ▸ facts.fence, by simp [gone stored there]⟩
  · intro stored there present
    simp [gone stored there] at present
  · intro stored mover there present
    simp [gone stored there] at present
  · exact fun port held => absurd rfl ((ports _ _).mp held).2

theorem pull_sound (sound : host.Sound) (name : String) (manifest : PortManifest) :
    Sound { host with
      deltas := host.deltas.put (.claimed name) { manifest := manifest } } := by
  have own : ∀ fence, (host.deltas.put (.claimed name) { manifest := manifest }).get
      (.own fence) = host.deltas.get (.own fence) :=
    fun fence => get_put_other _ _ (by simp)
  refine deltas_sound sound ?_ ?_ ?_
  · intro fence delta there
    exact ⟨delta, own fence ▸ there, rfl, rfl, fun _ => rfl⟩
  · intro fence old got
    simp [own, got]
  · intro other delta there
    obtain ⟨_, rfl⟩ | ⟨_, there⟩ := get_put_eq_some there
    · rfl
    · exact sound.claimed other delta there

theorem edit_moves (manifest : ∀ delta, (change delta).manifest = delta.manifest)
    (here : ∀ delta, (change delta).here = true → delta.here = true)
    (moving : ∀ delta, (change delta).moving = none → delta.moving = none) :
    KeepsDeltas host.deltas (host.deltas.edit place change) := by
  intro other delta there
  rw [get_edit]
  split
  · rename_i same
    subst other
    exact ⟨change delta, by simp [there], manifest delta,
      fun present => ⟨here delta present, moving delta⟩⟩
  · exact ⟨delta, there, rfl, fun present => ⟨present, id⟩⟩

theorem freePorts_moves (fence : String) (place : DeltaPlace) :
    Moves tid host { host.freePorts fence with
      fibers := host.fibers.edit fence fun fiber => { fiber with discarded := true }
      deltas := (host.leave place).deltas } := by
  have fibers : ∀ name fiber, host.fibers.get name = some fiber → ∃ later,
      (host.fibers.edit fence fun fiber => { fiber with discarded := true }).get name =
        some later ∧ later.port = fiber.port ∧ later.ready = fiber.ready ∧
        later.parking = fiber.parking := by
    intro name fiber got
    rw [get_edit]
    split
    · rename_i same
      subst name
      exact ⟨{ fiber with discarded := true }, by rw [got, Option.map_some], rfl, rfl, rfl⟩
    · exact ⟨fiber, got, rfl, rfl, rfl⟩
  refine { Moves.refl host tid with
    unborn := ?_, deltas := ?_, unready := ?_, parking := ?_ }
  · intro name other _ _ fresh
    rw [get_edit]
    split
    · rename_i same
      rw [← same, fresh, Option.map_none]
    · exact fresh
  · exact edit_moves (fun _ => rfl) (by simp) (fun _ => id)
  · intro name fiber other _ _ got unready
    obtain ⟨later, there, port, ready, _⟩ := fibers name fiber got
    exact ⟨later, there, port, ready.trans unready⟩
  · intro name fiber other _ got parking
    obtain ⟨later, there, _, _, same⟩ := fibers name fiber got
    exact ⟨later, there, same.trans parking⟩

theorem deltas_moves (kept : KeepsDeltas host.deltas deltas) (ports : Table Nat String) :
    Moves tid host { host with ports := ports, deltas := deltas } :=
  { Moves.refl host tid with deltas := kept }

variable {range : PortRange}

theorem allocPort_free (given : host.allocPort range fence want = some port) :
    (host.ports.get port = none ∨ host.ports.get port = some fence) ∧ 0 < port ∧
      (want ≠ 0 → port = want) := by
  unfold allocPort at given
  split at given
  · rename_i wanted
    split at given
    · rename_i holder held
      split at given
      · simp at given
      · rename_i mine
        simp only [Option.some.injEq] at given
        simp only [ne_eq, Decidable.not_not] at mine
        subst port
        exact ⟨.inr (mine ▸ held), by omega, fun _ => rfl⟩
    · rename_i free
      cases given
      exact ⟨.inl free, by omega, fun _ => rfl⟩
  · rename_i unwanted
    have free := List.find?_some given
    have mem := List.mem_of_find?_eq_some given
    obtain ⟨offset, _, rfl⟩ := List.mem_map.mp mem
    have positive := range.positive
    exact ⟨.inl (by simpa using free), by omega, fun wanted => absurd wanted unwanted⟩

theorem alloc_step {source : Option DeltaPlace}
    (sound : host.Sound) (empty : host.hands.get tid = none)
    (minted : host.Minted tid fence) (closed : host.hasGap fence = false)
    (given : host.allocPort range fence want = some port)
    (handed : ∀ place, source = some place → host.Handed place) :
    Step tid (.holding fence port source) host { host with
      ports := host.ports.put port fence
      hands := host.hands.put tid ⟨fence, port, false⟩ } := by
  obtain ⟨free, positive, _⟩ := allocPort_free given
  have moves : Moves tid host { host with
      ports := host.ports.put port fence
      hands := host.hands.put tid ⟨fence, port, false⟩ } :=
    { Moves.refl host tid with hands := fun _ apart => get_put_other _ _ apart }
  exact ⟨allocPort_sound sound empty minted closed free positive,
    ⟨get_put_same _ _ _, fun place from' => (handed place from').moves moves⟩, moves⟩

theorem handed_of_alloc (sound : host.Sound) (minted : host.Minted tid fence)
    (stores : host.Stores place manifest) (pinned : manifest.port ≠ 0)
    (given : host.allocPort range fence manifest.port = some port) : host.Handed place := by
  obtain ⟨delta, got, rfl⟩ := stores
  refine ⟨delta, got, fun here unmoved => ?_⟩
  cases place with
  | claimed name => simp [sound.claimed name delta got] at here
  | own name =>
    have held := (sound.each name).still delta got here unmoved
    obtain ⟨free, _, same⟩ := allocPort_free given
    rw [same pinned, held] at free
    obtain ⟨fiber, noted, _⟩ := (sound.each name).own delta got
    rcases free with none | mine
    · simp at none
    · rw [Option.some.inj mine, minted.2] at noted
      simp at noted

theorem takeOver_step (sound : host.Sound) (here : host.At tid (.reading fence place manifest))
    (pinned : manifest.port ≠ 0) (held : host.ports.get manifest.port = some manifest.fence)
    (mine : place = .own manifest.fence) (present : host.isHere place = true)
    (gone : host.knows manifest.fence = false) :
    Step tid (.taken fence place manifest) host { host.freePort manifest.port manifest.fence with
      deltas := host.deltas.edit place fun delta => { delta with moving := some fence } } := by
  obtain ⟨empty, minted, stores⟩ := here
  subst place
  have ports : (host.freePort manifest.port manifest.fence).ports =
      host.ports.drop manifest.port := if_pos ⟨pinned, held⟩
  have moves : Moves tid host { host.freePort manifest.port manifest.fence with
      deltas := host.deltas.edit (.own manifest.fence) fun delta =>
        { delta with moving := some fence } } := by
    refine deltas_moves ?_ _
    exact edit_moves (fun _ => rfl) (fun _ => id) (by simp)
  refine ⟨?_, ⟨empty, minted, stores.moves moves, ?_⟩, moves⟩
  · have took := takeOver_sound sound held present gone minted.2 stores
    rw [← ports] at took
    exact took
  · obtain ⟨delta, got, _⟩ := stores
    exact ⟨_, by simp only [get_edit, if_pos, got, Option.map_some]; rfl, by simp⟩

theorem handed_of_held (sound : host.Sound) (stores : host.Stores place manifest)
    (held : host.ports.get manifest.port ≠ some manifest.fence) : host.Handed place := by
  obtain ⟨delta, got, rfl⟩ := stores
  refine ⟨delta, got, fun here unmoved => ?_⟩
  cases place with
  | claimed name => simp [sound.claimed name delta got] at here
  | own name =>
    obtain ⟨_, _, own⟩ := (sound.each name).own delta got
    exact held (own.fence ▸ (sound.each name).still delta got here unmoved)

end PortHost

end Fiberd
