import Fiberd.Host.FiberEnd

/-!
The host never hides a death.  `released` is set before a fiber is killed, and the
exit is withheld while it is.  A Park that fails takes the flag back and sends what
was withheld; a Release that gives up waiting does not, so its wait must last.
-/

namespace Fiberd

open Tables Programs Machines

/-- No two Parks that find the fiber overlap, and no Release gives up its wait. -/
def waitsOut (host : FiberHost) (_ : Nat) (action : FiberAct) (choice : Bool) : Bool :=
  match action with
  | .beginPark => !host.known || host.parks.rows.isEmpty
  | .awaitReleased _ => choice
  | _ => true

inductive FiberStage where
  | idle
  | parking
  | releasing
  | ended
  | owes
  | drops
  deriving DecidableEq

namespace FiberStage

def after : FiberStage → (action : FiberAct) → action.Result → Option FiberStage
  | .idle, .beginPark, found => some (if found then .parking else .idle)
  | .idle, .beginRelease _, found => some (if found then .releasing else .idle)
  | .idle, .killOrphan fromCore, killed => some (if killed && fromCore then .drops else .idle)
  | .idle, .takeEnd, none => some .idle
  | .idle, .takeEnd, some released => some (if released then .ended else .owes)
  | .idle, .lookUp, _ => some .idle
  | .idle, .awaitDone, _ => some .idle
  | .idle, .receiveExit, _ => some .drops
  | .parking, .dump fromCore, kept =>
    some (if kept then if fromCore then .drops else .idle else .parking)
  | .parking, .unpark, died => some (if died then .owes else .idle)
  | .releasing, .awaitReleased fromCore, done =>
    some (if done && fromCore then .drops else .idle)
  | .ended, .closeDone, _ => some .idle
  | .owes, .closeDone, _ => some .owes
  | .owes, .sendExit, _ => some .idle
  | .drops, .awaitDone, _ => some .drops
  | .drops, .onPark _, _ => some .idle
  | .drops, .onRelease, _ => some .idle
  | .drops, .onFiberExit, _ => some .idle
  | _, _, _ => none

end FiberStage

namespace FiberHost

def Held (marks : Table Nat Unit) : Prop := ∃ thread, (marks.get thread).isSome

def Once (host : FiberHost) : Prop :=
  (host.sent = 1 ∧ ¬Held host.owing ∧ ¬Held host.parks) ∨
  (host.sent = 0 ∧ ¬Held host.parks ∧ ∃ thread, (host.owing.get thread).isSome ∧
    ∀ other, (host.owing.get other).isSome → other = thread) ∨
  (host.sent = 0 ∧ ¬Held host.owing ∧ Held host.parks)

structure Accounts (host : FiberHost) : Prop where
  alive : host.known = true →
    host.exit = false ∧ host.done = false ∧ host.sent = 0 ∧ ¬Held host.owing
  flagged : host.known = true → host.released = true →
    host.refs = true ∨ host.nils = true ∨ Held host.parks ∨ Held host.releases
  parking : host.known = true → Held host.parks → host.released = true
  single : ∀ one other, (host.parks.get one).isSome → (host.parks.get other).isSome → one = other
  gone : host.known = false → host.exit = true ∧
    (host.refs = true ∨ host.nils = true ∨ Held host.releases ∨ host.Once)

structure Told (fiber : HostedFiber) (host : FiberHost) : Prop where
  received : host.received ≤ host.sent
  answers : (host.system.ledger.fibers.get fiber.id).isSome →
    host.refs = true ∨ host.nils = true → host.bare = true ∨ Held host.dropping
  exits : (host.system.ledger.fibers.get fiber.id).isSome → 0 < host.received →
    Held host.dropping
  runs : host.system.SessionsRun

structure Sound (fiber : HostedFiber) (host : FiberHost) : Prop where
  accounts : host.Accounts
  told : host.Told fiber

structure Marks (host : FiberHost) (thread : Nat) (parks releases owing dropping : Bool) :
    Prop where
  parks : (host.parks.get thread).isSome = parks
  releases : (host.releases.get thread).isSome = releases
  owing : (host.owing.get thread).isSome = owing
  dropping : (host.dropping.get thread).isSome = dropping

def At (host : FiberHost) (thread : Nat) : FiberStage → Prop
  | .idle => host.Marks thread false false false false
  | .parking => host.Marks thread true false false false
  | .releasing => host.Marks thread false true false false
  | .ended => host.Marks thread false false false false ∧ host.known = false
  | .owes => host.Marks thread false false true false
  | .drops => host.Marks thread false false false true

structure Moves (thread : Nat) (host next : FiberHost) : Prop where
  parks : ∀ other, other ≠ thread → next.parks.get other = host.parks.get other
  releases : ∀ other, other ≠ thread → next.releases.get other = host.releases.get other
  owing : ∀ other, other ≠ thread → next.owing.get other = host.owing.get other
  dropping : ∀ other, other ≠ thread → next.dropping.get other = host.dropping.get other
  known : host.known = false → next.known = false

variable {fiber : HostedFiber} {host next : FiberHost} {thread other : Nat}

theorem Marks.moves {parks releases owing dropping : Bool}
    (marks : host.Marks other parks releases owing dropping) (moves : Moves thread host next)
    (apart : other ≠ thread) : next.Marks other parks releases owing dropping :=
  ⟨by rw [moves.parks other apart, marks.parks],
    by rw [moves.releases other apart, marks.releases],
    by rw [moves.owing other apart, marks.owing],
    by rw [moves.dropping other apart, marks.dropping]⟩

variable {stage later : FiberStage}

theorem At.moves (here : host.At other stage) (moves : Moves thread host next)
    (apart : other ≠ thread) : next.At other stage := by
  cases stage with
  | ended => exact ⟨here.1.moves moves apart, moves.known here.2⟩
  | _ => exact Marks.moves here moves apart

theorem held_put (marks : Table Nat Unit) (thread : Nat) : Held (marks.put thread ()) :=
  ⟨thread, by simp⟩

variable {marks : Table Nat Unit}

theorem Held.of_drop (held : Held (marks.drop thread)) : Held marks := by
  obtain ⟨other, there⟩ := held
  refine ⟨other, ?_⟩
  rw [get_drop] at there
  split at there
  · simp at there
  · exact there

theorem not_held_drop (single : ∀ other, (marks.get other).isSome → other = thread) :
    ¬Held (marks.drop thread) := by
  rintro ⟨other, there⟩
  rw [get_drop] at there
  split at there
  · simp at there
  · rename_i apart
    exact apart (single other there)

theorem held_of_mark (here : (marks.get thread).isSome = true) : Held marks :=
  ⟨thread, here⟩

structure Step (fiber : HostedFiber) (thread : Nat) (later : FiberStage)
    (host next : FiberHost) : Prop where
  sound : next.Sound fiber
  here : next.At thread later
  moves : Moves thread host next

theorem Moves.refl (host : FiberHost) (thread : Nat) : Moves thread host host :=
  ⟨fun _ _ => rfl, fun _ _ => rfl, fun _ _ => rfl, fun _ _ => rfl, id⟩

theorem Step.same (sound : host.Sound fiber) (here : host.At thread stage) :
    Step fiber thread stage host host :=
  ⟨sound, here, .refl host thread⟩

theorem beginPark_step (sound : host.Sound fiber) (here : host.At thread .idle)
    (known : host.known = true) (alone : host.parks.rows.isEmpty = true) :
    Step fiber thread .parking host { host with
      released := true
      parked := true
      parks := host.parks.put thread () } := by
  have none : ∀ other, host.parks.get other = none := by
    intro other
    cases got : host.parks.get other with
    | none => rfl
    | some mark =>
      have mem := (mem_rows_iff _ _ _).mpr got
      simp [List.isEmpty_iff.mp alone] at mem
  refine ⟨⟨⟨sound.accounts.alive, fun _ _ => .inr (.inr (.inl (held_put _ _))), fun _ _ => rfl, ?_,
    fun gone => by simp [known] at gone⟩, ⟨sound.told.received, sound.told.answers,
    sound.told.exits, sound.told.runs⟩⟩,
    ⟨by simp, here.releases, here.owing, here.dropping⟩,
    { Moves.refl host thread with parks := fun _ apart => get_put_other _ _ apart }⟩
  intro one two first second
  simp only [get_put, none] at first second
  split at first
  · rename_i same
    split at second
    · rename_i again
      rw [same, again]
    · simp at second
  · simp at first

theorem answered_accounts (accounts : host.Accounts) (thread : Nat) (fromCore : Bool) :
    (host.answered thread fromCore).Accounts := by
  cases fromCore with
  | true | false =>
    exact ⟨accounts.alive, accounts.flagged, accounts.parking, accounts.single, accounts.gone⟩

theorem answered_told (received : host.received ≤ host.sent)
    (exits : (host.system.ledger.fibers.get fiber.id).isSome → 0 < host.received →
      Held host.dropping) (runs : host.system.SessionsRun) (thread : Nat) (fromCore : Bool) :
    (host.answered thread fromCore).Told fiber := by
  cases fromCore with
  | true => exact ⟨received, fun _ _ => .inr (held_put _ _), fun _ _ => held_put _ _, runs⟩
  | false => exact ⟨received, fun _ _ => .inl rfl, exits, runs⟩

theorem answered_here (marks : host.Marks thread false false false false) (fromCore : Bool) :
    (host.answered thread fromCore).At thread (if fromCore then .drops else .idle) := by
  cases fromCore with
  | true => exact ⟨marks.parks, marks.releases, marks.owing, by simp [answered]⟩
  | false => exact ⟨marks.parks, marks.releases, marks.owing, marks.dropping⟩

theorem Moves.answered (moves : Moves thread host next) (fromCore : Bool) :
    Moves thread host (next.answered thread fromCore) := by
  cases fromCore with
  | true =>
    refine { moves with dropping := ?_ }
    intro other apart
    simp only [FiberHost.answered, if_true]
    rw [get_put_other _ _ apart, moves.dropping other apart]
  | false => exact { moves with }

theorem answered_step {mid : FiberHost} (accounts : mid.Accounts)
    (marks : mid.Marks thread false false false false) (moves : Moves thread host mid)
    (received : mid.received ≤ mid.sent)
    (exits : (mid.system.ledger.fibers.get fiber.id).isSome → 0 < mid.received →
      Held mid.dropping) (runs : mid.system.SessionsRun) (fromCore : Bool) :
    Step fiber thread (if fromCore then .drops else .idle) host
      (mid.answered thread fromCore) :=
  ⟨⟨answered_accounts accounts thread fromCore,
    answered_told received exits runs thread fromCore⟩,
    answered_here marks fromCore, moves.answered fromCore⟩

section

variable (sound : host.Sound fiber)
include sound

theorem keptRef_step (here : host.At thread .parking) (fromCore : Bool) :
    Step fiber thread (if fromCore then .drops else .idle) host
      ({ host with
        refs := true
        parks := host.parks.drop thread }.answered thread fromCore) := by
  have accounts : ({ host with refs := true, parks := host.parks.drop thread } :
      FiberHost).Accounts := by
    refine ⟨sound.accounts.alive, fun _ _ => .inl rfl,
      fun known held => sound.accounts.parking known held.of_drop, ?_,
      fun gone => ⟨(sound.accounts.gone gone).1, .inl rfl⟩⟩
    intro one two first second
    simp only [get_drop] at first second
    split at first
    · simp at first
    · split at second
      · simp at second
      · exact sound.accounts.single one two first second
  have marks : ({ host with refs := true, parks := host.parks.drop thread } :
      FiberHost).Marks thread false false false false :=
    ⟨by simp, here.releases, here.owing, here.dropping⟩
  have moves : Moves thread host { host with refs := true, parks := host.parks.drop thread } :=
    { Moves.refl host thread with parks := fun _ apart => get_drop_other _ apart }
  exact answered_step accounts marks moves sound.told.received sound.told.exits sound.told.runs
    fromCore

theorem released_nil_step (here : host.At thread .releasing) (fromCore : Bool) :
    Step fiber thread (if fromCore then .drops else .idle) host
      ({ host with
        nils := true
        releases := host.releases.drop thread }.answered thread fromCore) := by
  have accounts : ({ host with nils := true, releases := host.releases.drop thread } :
      FiberHost).Accounts :=
    ⟨sound.accounts.alive, fun _ _ => .inr (.inl rfl), sound.accounts.parking,
      sound.accounts.single, fun gone => ⟨(sound.accounts.gone gone).1, .inr (.inl rfl)⟩⟩
  have marks : ({ host with nils := true, releases := host.releases.drop thread } :
      FiberHost).Marks thread false false false false :=
    ⟨here.parks, by simp, here.owing, here.dropping⟩
  have moves : Moves thread host { host with
      nils := true, releases := host.releases.drop thread } :=
    { Moves.refl host thread with releases := fun _ apart => get_drop_other _ apart }
  exact answered_step accounts marks moves sound.told.received sound.told.exits sound.told.runs
    fromCore

theorem orphan_step (here : host.At thread .idle) (fromCore : Bool) :
    Step fiber thread (if fromCore then .drops else .idle) host
      ({ host with nils := true }.answered thread fromCore) := by
  have accounts : ({ host with nils := true } : FiberHost).Accounts :=
    ⟨sound.accounts.alive, fun _ _ => .inr (.inl rfl), sound.accounts.parking,
      sound.accounts.single, fun gone => ⟨(sound.accounts.gone gone).1, .inr (.inl rfl)⟩⟩
  have marks : ({ host with nils := true } : FiberHost).Marks thread false false false false :=
    ⟨here.parks, here.releases, here.owing, here.dropping⟩
  have moves : Moves thread host { host with nils := true } := { Moves.refl host thread with }
  exact answered_step accounts marks moves sound.told.received sound.told.exits sound.told.runs
    fromCore

theorem beginRelease_step (here : host.At thread .idle) (known : host.known = true)
    (discard : Bool) :
    Step fiber thread .releasing host { host with
      released := true
      parked := host.parked && !discard
      releases := host.releases.put thread () } :=
  ⟨⟨⟨sound.accounts.alive, fun _ _ => .inr (.inr (.inr (held_put _ _))), fun _ _ => rfl,
      sound.accounts.single, fun gone => by simp [known] at gone⟩,
      ⟨sound.told.received, sound.told.answers, sound.told.exits, sound.told.runs⟩⟩,
    ⟨here.parks, by simp, here.owing, here.dropping⟩,
    { Moves.refl host thread with releases := fun _ apart => get_put_other _ _ apart }⟩

theorem unpark_step (here : host.At thread .parking) :
    Step fiber thread (if host.exit then .owes else .idle) host { host with
      released := false
      parked := false
      parks := host.parks.drop thread
      owing := if host.exit then host.owing.put thread () else host.owing } := by
  have alone : ¬Held (host.parks.drop thread) :=
    not_held_drop fun other there => sound.accounts.single other thread there here.parks
  have single : ∀ one two, ((host.parks.drop thread).get one).isSome →
      ((host.parks.drop thread).get two).isSome → one = two :=
    fun one two first _ => absurd ⟨one, first⟩ alone
  have told : ({ host with
      released := false
      parked := false
      parks := host.parks.drop thread
      owing := if host.exit then host.owing.put thread () else host.owing } : FiberHost).Told
        fiber :=
    ⟨sound.told.received, sound.told.answers, sound.told.exits, sound.told.runs⟩
  by_cases known : host.known = true
  · obtain ⟨unended, undone, unsent, unowed⟩ := sound.accounts.alive known
    simp only [unended, Bool.false_eq_true, if_false] at told ⊢
    exact ⟨⟨⟨fun _ => ⟨rfl, undone, unsent, unowed⟩, fun _ flag => by simp at flag,
      fun _ held => absurd held alone, single, fun gone => by simp [known] at gone⟩, told⟩,
      ⟨by simp, here.releases, here.owing, here.dropping⟩,
      { Moves.refl host thread with parks := fun _ apart => get_drop_other _ apart }⟩
  · simp only [Bool.not_eq_true] at known
    obtain ⟨ended, outcome⟩ := sound.accounts.gone known
    simp only [ended, if_true] at told ⊢
    refine ⟨⟨⟨fun alive => by simp [known] at alive, fun alive => by simp [known] at alive,
      fun alive => by simp [known] at alive, single, fun _ => ⟨rfl, ?_⟩⟩, told⟩,
      ⟨by simp, here.releases, by simp, here.dropping⟩,
      { Moves.refl host thread with
        parks := fun _ apart => get_drop_other _ apart
        owing := fun _ apart => get_put_other _ _ apart }⟩
    obtain refs | nils | releases | once := outcome
    · exact .inl refs
    · exact .inr (.inl nils)
    · exact .inr (.inr (.inl releases))
    · refine .inr (.inr (.inr ?_))
      obtain ⟨_, _, none⟩ | ⟨_, none, _⟩ | ⟨unsent, unowed, _⟩ := once
      · exact absurd (held_of_mark here.parks) none
      · exact absurd (held_of_mark here.parks) none
      · refine .inr (.inl ⟨unsent, alone, thread, by simp, ?_⟩)
        intro other there
        simp only [get_put] at there
        split at there
        · assumption
        · exact absurd ⟨other, there⟩ unowed

theorem sendExit_step (here : host.At thread .owes) :
    Step fiber thread .idle host { host with
      sent := host.sent + 1
      owing := host.owing.drop thread } := by
  have known : host.known = false := by
    by_contra alive
    simp only [Bool.not_eq_false] at alive
    exact (sound.accounts.alive alive).2.2.2 (held_of_mark here.owing)
  obtain ⟨ended, outcome⟩ := sound.accounts.gone known
  refine ⟨⟨⟨fun alive => by simp [known] at alive, fun alive => by simp [known] at alive,
    fun alive => by simp [known] at alive, sound.accounts.single, fun _ => ⟨ended, ?_⟩⟩,
    ⟨Nat.le_succ_of_le sound.told.received, sound.told.answers, sound.told.exits,
      sound.told.runs⟩⟩,
    ⟨here.parks, here.releases, by simp, here.dropping⟩,
    { Moves.refl host thread with owing := fun _ apart => get_drop_other _ apart }⟩
  obtain refs | nils | releases | once := outcome
  · exact .inl refs
  · exact .inr (.inl nils)
  · exact .inr (.inr (.inl releases))
  · refine .inr (.inr (.inr (.inl ?_)))
    obtain ⟨_, none, _⟩ | ⟨unsent, none, owner, _, single⟩ | ⟨_, none, _⟩ := once
    · exact absurd (held_of_mark here.owing) none
    · refine ⟨by simp [unsent], not_held_drop ?_, none⟩
      intro other there
      rw [single other there, single thread here.owing]
    · exact absurd (held_of_mark here.owing) none

theorem takeEnd_step (here : host.At thread .idle) (known : host.known = true) :
    Step fiber thread (if host.released then .ended else .owes) host { host with
      known := false
      exit := true
      owing := if host.released then host.owing else host.owing.put thread () } := by
  obtain ⟨_, _, unsent, unowed⟩ := sound.accounts.alive known
  have told : ({ host with
      known := false
      exit := true
      owing := if host.released then host.owing else host.owing.put thread () } :
        FiberHost).Told fiber :=
    ⟨sound.told.received, sound.told.answers, sound.told.exits, sound.told.runs⟩
  by_cases released : host.released = true
  · simp only [released, if_true] at told ⊢
    refine ⟨⟨⟨by simp, by simp, by simp, sound.accounts.single, fun _ => ⟨rfl, ?_⟩⟩, told⟩,
      ⟨⟨here.parks, here.releases, here.owing, here.dropping⟩, rfl⟩,
      { Moves.refl host thread with known := fun _ => rfl }⟩
    obtain refs | nils | parks | releases := sound.accounts.flagged known released
    · exact .inl refs
    · exact .inr (.inl nils)
    · exact .inr (.inr (.inr (.inr (.inr ⟨unsent, unowed, parks⟩))))
    · exact .inr (.inr (.inl releases))
  · have unparked : ¬Held host.parks := fun parks => released (sound.accounts.parking known parks)
    simp only [released, Bool.false_eq_true, if_false] at told ⊢
    refine ⟨⟨⟨by simp, by simp, by simp, sound.accounts.single, fun _ => ⟨rfl, ?_⟩⟩, told⟩,
      ⟨here.parks, here.releases, by simp, here.dropping⟩,
      { Moves.refl host thread with
        known := fun _ => rfl
        owing := fun _ apart => get_put_other _ _ apart }⟩
    refine .inr (.inr (.inr (.inr (.inl ⟨unsent, unparked, thread, by simp, ?_⟩))))
    intro other there
    simp only [get_put] at there
    split at there
    · assumption
    · exact absurd ⟨other, there⟩ unowed

theorem closeDone_sound (known : host.known = false) :
    ({ host with done := true } : FiberHost).Sound fiber :=
  ⟨⟨fun alive => by simp [known] at alive, sound.accounts.flagged, sound.accounts.parking,
    sound.accounts.single, sound.accounts.gone⟩,
    ⟨sound.told.received, sound.told.answers, sound.told.exits, sound.told.runs⟩⟩

theorem receiveExit_step (here : host.At thread .idle) (waiting : host.received < host.sent) :
    Step fiber thread .drops host { host with
      received := host.received + 1
      dropping := host.dropping.put thread () } :=
  ⟨⟨⟨sound.accounts.alive, sound.accounts.flagged, sound.accounts.parking, sound.accounts.single,
      sound.accounts.gone⟩,
      ⟨waiting, fun _ _ => .inr (held_put _ _), fun _ _ => held_put _ _, sound.told.runs⟩⟩,
    ⟨here.parks, here.releases, here.owing, by simp⟩,
    { Moves.refl host thread with dropping := fun _ apart => get_put_other _ _ apart }⟩

theorem withLedger_step {ledger : Ledger} (here : host.At thread .drops)
    (dropped : ledger.fibers.get fiber.id = none)
    (runs : (host.system.withLedger ledger).SessionsRun) :
    Step fiber thread .idle host (host.withLedger thread ledger) := by
  have gone : ¬((host.system.withLedger ledger).ledger.fibers.get fiber.id).isSome := by
    simp [LedgerSystem.withLedger, dropped]
  exact ⟨⟨⟨sound.accounts.alive, sound.accounts.flagged, sound.accounts.parking,
      sound.accounts.single, sound.accounts.gone⟩,
      ⟨sound.told.received, fun there => absurd there gone, fun there => absurd there gone,
        runs⟩⟩,
    ⟨here.parks, here.releases, here.owing, by simp [FiberHost.withLedger]⟩,
    { Moves.refl host thread with dropping := fun _ apart => get_drop_other _ apart }⟩

theorem onPark_step (here : host.At thread .drops) (ref : String) : Step fiber thread .idle host
      (host.withLedger thread (host.system.ledger.onPark fiber.id ref).1) := by
  cases known : host.system.ledger.fibers.get fiber.id with
  | none =>
    rw [Ledger.onPark_unknown ref known]
    exact withLedger_step sound here known sound.told.runs
  | some noted =>
    refine withLedger_step sound here ?_ (sound.told.runs.onPark ref known)
    rw [Ledger.onPark_known ref known]
    simp

theorem onGone_step (here : host.At thread .drops) : Step fiber thread .idle host
      (host.withLedger thread (host.system.ledger.onGone fiber.id).1) := by
  cases known : host.system.ledger.fibers.get fiber.id with
  | none =>
    rw [Ledger.onGone_unknown known]
    exact withLedger_step sound here known sound.told.runs
  | some noted =>
    refine withLedger_step sound here ?_ (sound.told.runs.onGone known)
    rw [Ledger.onGone_known known]
    simp

end

variable {action : FiberAct} {choice : Bool}

variable {result : action.Result}

variable (sound : host.Sound fiber)
include sound

theorem idle_step (here : host.At thread .idle)
    (may : FiberStage.after .idle action result = some later)
    (waits : waitsOut host thread action choice = true)
    (ran : host.perform fiber thread action choice = some (result, next)) :
    Step fiber thread later host next := by
  cases action with
  | beginPark =>
    cases may
    simp only [perform] at ran
    split at ran
    · rename_i known
      cases ran
      exact beginPark_step sound here known (by simpa [waitsOut, known] using waits)
    · cases ran
      exact .same sound here
  | beginRelease discard =>
    cases may
    simp only [perform] at ran
    split at ran
    · rename_i known
      cases ran
      exact beginRelease_step sound here known discard
    · cases ran
      exact .same sound here
  | killOrphan fromCore =>
    cases may
    cases choice with
    | true =>
      simp only [perform, if_true] at ran
      cases ran
      simpa using orphan_step sound here fromCore
    | false =>
      simp only [perform, Bool.false_eq_true, if_false] at ran
      cases ran
      exact .same sound here
  | takeEnd =>
    simp only [perform] at ran
    split at ran
    · rename_i known
      cases ran
      cases may
      exact takeEnd_step sound here known
    · cases ran
      cases may
      exact .same sound here
  | lookUp =>
    cases may
    cases ran
    exact .same sound here
  | awaitDone =>
    replace may := Option.some.inj may
    simp only [perform, Option.ite_none_left_eq_some, Option.some.injEq,
      Prod.mk.injEq] at ran
    obtain ⟨_, _, rfl⟩ := ran
    subst later
    exact .same sound here
  | receiveExit =>
    replace may := Option.some.inj may
    simp only [perform, Option.ite_none_right_eq_some, Option.some.injEq,
      Prod.mk.injEq] at ran
    obtain ⟨waiting, _, rfl⟩ := ran
    subst later
    exact receiveExit_step sound here waiting
  | _ => cases may

theorem parking_step (here : host.At thread .parking)
    (may : FiberStage.after .parking action result = some later)
    (ran : host.perform fiber thread action choice = some (result, next)) :
    Step fiber thread later host next := by
  cases action with
  | dump fromCore =>
    cases may
    cases choice with
    | true =>
      simp only [perform, if_true] at ran
      cases ran
      exact keptRef_step sound here fromCore
    | false =>
      simp only [perform, Bool.false_eq_true, if_false] at ran
      cases ran
      exact .same sound here
  | unpark =>
    cases may
    cases ran
    exact unpark_step sound here
  | _ => cases may

theorem releasing_step (here : host.At thread .releasing)
    (may : FiberStage.after .releasing action result = some later)
    (waits : waitsOut host thread action choice = true)
    (ran : host.perform fiber thread action choice = some (result, next)) :
    Step fiber thread later host next := by
  cases action with
  | awaitReleased fromCore =>
    cases may
    simp only [waitsOut] at waits
    subst choice
    simp only [perform, if_true, Option.ite_none_right_eq_some, Option.some.injEq,
      Prod.mk.injEq] at ran
    obtain ⟨_, rfl, rfl⟩ := ran
    simpa using released_nil_step sound here fromCore
  | _ => cases may

theorem owes_known (here : host.At thread .owes) : host.known = false := by
  by_contra alive
  simp only [Bool.not_eq_false] at alive
  exact (sound.accounts.alive alive).2.2.2 (held_of_mark here.owing)

theorem stage_step (here : host.At thread stage) (may : stage.after action result = some later)
    (waits : waitsOut host thread action choice = true)
    (ran : host.perform fiber thread action choice = some (result, next)) :
    Step fiber thread later host next := by
  cases stage with
  | idle => exact idle_step sound here may waits ran
  | parking => exact parking_step sound here may ran
  | releasing => exact releasing_step sound here may waits ran
  | ended =>
    cases action with
    | closeDone =>
      cases may
      cases ran
      obtain ⟨marks, known⟩ := here
      exact ⟨closeDone_sound sound known,
        ⟨marks.parks, marks.releases, marks.owing, marks.dropping⟩,
        { Moves.refl host thread with }⟩
    | _ => cases may
  | owes =>
    cases action with
    | closeDone =>
      cases may
      cases ran
      exact ⟨closeDone_sound sound (owes_known sound here),
        ⟨here.parks, here.releases, here.owing, here.dropping⟩,
        { Moves.refl host thread with }⟩
    | sendExit =>
      cases may
      cases ran
      exact sendExit_step sound here
    | _ => cases may
  | drops =>
    cases action with
    | awaitDone =>
      replace may := Option.some.inj may
      simp only [perform, Option.ite_none_left_eq_some, Option.some.injEq,
        Prod.mk.injEq] at ran
      obtain ⟨_, _, rfl⟩ := ran
      subst later
      exact .same sound here
    | onPark ref =>
      cases may
      cases ran
      exact onPark_step sound here ref
    | onRelease =>
      replace may := Option.some.inj may
      simp only [perform, Ledger.onRelease_ledger] at ran
      cases ran
      subst later
      exact onGone_step sound here
    | onFiberExit =>
      cases may
      cases ran
      exact onGone_step sound here
    | _ => cases may

end FiberHost

namespace FiberProg

abbrev Stages {β : Type} (program : FiberProg β) (stage : FiberStage)
    (post : β → FiberStage → Prop) : Prop :=
  program.Follows FiberStage.after stage post

theorem finish_stages : finish.Stages .idle fun _ later => later = .idle := by
  refine follows_act ?_
  intro took
  cases took with
  | none => exact ⟨.idle, rfl, rfl⟩
  | some released =>
    cases released with
    | true => exact ⟨.ended, rfl, follows_act fun _ => ⟨.idle, rfl, rfl⟩⟩
    | false =>
      exact ⟨.owes, rfl, follows_act fun _ => ⟨.owes, rfl, fun _ => ⟨.idle, rfl, rfl⟩⟩⟩

theorem park_stages (fiber : HostedFiber) (fromCore : Bool) :
    (park fiber fromCore).Stages .idle fun kept later =>
      later = if kept && fromCore then .drops else .idle := by
  refine follows_act ?_
  intro got
  cases got with
  | false => exact ⟨.idle, rfl, rfl⟩
  | true =>
    refine ⟨.parking, rfl, ?_⟩
    simp only [if_true, fiber.parses]
    refine follows_act ?_
    intro kept
    cases kept with
    | true =>
      refine ⟨_, rfl, follows_act ?_⟩
      intro _
      cases fromCore with
      | true => exact ⟨.drops, rfl, rfl⟩
      | false => exact ⟨.idle, rfl, rfl⟩
    | false =>
      refine ⟨.parking, rfl, follows_act ?_⟩
      intro died
      cases died with
      | true => exact ⟨.owes, rfl, follows_act fun _ => ⟨.idle, rfl, rfl⟩⟩
      | false => exact ⟨.idle, rfl, rfl⟩

theorem release_stages (fiber : HostedFiber) (discard fromCore : Bool) :
    (release fiber discard fromCore).Stages .idle fun done later =>
      later = if done && fromCore then .drops else .idle := by
  refine follows_act ?_
  intro got
  cases got with
  | true => exact ⟨.releasing, rfl, fun done => ⟨_, rfl, rfl⟩⟩
  | false =>
    refine ⟨.idle, rfl, ?_⟩
    simp only [Bool.false_eq_true, if_false, fiber.parses]
    exact fun killed => ⟨_, rfl, rfl⟩

theorem corePark_stages (fiber : HostedFiber) (ref : String) :
    (corePark fiber ref).Stages .idle fun _ later => later = .idle := by
  refine follows_act ?_
  intro noted
  cases noted with
  | false => exact ⟨.idle, rfl, rfl⟩
  | true =>
    refine ⟨.idle, rfl, (park_stages fiber true).bind ?_⟩
    rintro kept _ rfl
    cases kept with
    | true => exact fun _ => ⟨.idle, rfl, rfl⟩
    | false => rfl

theorem coreRelease_stages (fiber : HostedFiber) (discard : Bool) :
    (coreRelease fiber discard).Stages .idle fun _ later => later = .idle := by
  refine follows_act ?_
  intro noted
  cases noted with
  | false => exact ⟨.idle, rfl, rfl⟩
  | true =>
    refine ⟨.idle, rfl, (release_stages fiber discard true).bind ?_⟩
    rintro done _ rfl
    cases done with
    | true => exact fun _ => ⟨.idle, rfl, rfl⟩
    | false => rfl

end FiberProg

theorem FiberCall.body_stages (fiber : HostedFiber) (call : FiberCall) :
    (call.body fiber).Stages .idle fun _ later => later = .idle := by
  cases call with
  | finish => exact FiberProg.finish_stages
  | park =>
    refine (FiberProg.park_stages fiber false).bind ?_
    rintro kept _ rfl
    rw [Bool.and_false]
    rfl
  | release discard =>
    refine (FiberProg.release_stages fiber discard false).bind ?_
    rintro done _ rfl
    rw [Bool.and_false]
    rfl
  | corePark ref => exact FiberProg.corePark_stages fiber ref
  | coreRelease discard => exact FiberProg.coreRelease_stages fiber discard
  | coreRun => exact follows_act fun _ => ⟨.drops, rfl, fun _ => ⟨.idle, rfl, rfl⟩⟩

def fiberProtocol (fiber : HostedFiber) :
    Protocol ((fiberKernel fiber).guarded waitsOut) FiberStage where
  inv := FiberHost.Sound fiber
  idle := .idle
  At thread stage host := host.At thread stage
  ends _ later := later = .idle
  after := FiberStage.after
  started := by
    rintro host ⟨system, runs, recorded, rfl⟩
    refine ⟨⟨⟨?_, ?_, ?_, ?_, ?_⟩, ⟨?_, ?_, ?_, runs⟩⟩, fun thread => ⟨?_, ?_, ?_, ?_⟩⟩ <;>
      simp [FiberHost.Held]
  moved := by
    intro host thread stage action choice result next later sound here may ran
    obtain ⟨waits, done⟩ := Kernel.guarded_perform ran
    have step := FiberHost.stage_step sound here may waits done
    exact ⟨step.sound, step.here, fun other stage apart there => there.moves step.moves apart⟩
  bodies := FiberCall.body_stages fiber

namespace FiberHost

theorem idle_of_ended {fiber : HostedFiber} {threads : FiberThreads}
    (kept : (fiberProtocol fiber).Kept threads) (ended : threads.ended = true) (thread : Nat) :
    threads.shared.At thread .idle := by
  cases got : threads.programs.get thread with
  | none => exact kept.unused thread got
  | some prog =>
    obtain ⟨value, rfl⟩ := Threads.done_of_ended ended got
    obtain ⟨stage, here, rfl⟩ := kept.ended got
    exact here

variable {fiber : HostedFiber} {host : FiberHost}

theorem Sound.exit_told (sound : host.Sound fiber) (idle : ∀ thread, host.At thread .idle)
    (gone : host.known = false) : host.sent = 1 ∨ host.refs = true ∨ host.nils = true := by
  have parks : ¬Held host.parks := fun ⟨thread, held⟩ => by simp [(idle thread).parks] at held
  have releases : ¬Held host.releases := fun ⟨thread, held⟩ => by
    simp [(idle thread).releases] at held
  obtain ⟨_, ref | nil | waiting | sent | owed | parking⟩ := sound.accounts.gone gone
  · exact .inr (.inl ref)
  · exact .inr (.inr nil)
  · exact absurd waiting releases
  · exact .inl sent.1
  · obtain ⟨_, _, thread, owing, _⟩ := owed
    simp [(idle thread).owing] at owing
  · exact absurd parking.2.2 parks

theorem Sound.dropped (sound : host.Sound fiber) (idle : ∀ thread, host.At thread .idle)
    (told : host.sent = 1 ∨ host.refs = true ∨ host.nils = true) (core : host.bare = false)
    (took : host.received = host.sent) : host.system.ledger.fibers.get fiber.id = none := by
  have dropping : ¬Held host.dropping := fun ⟨thread, held⟩ => by
    simp [(idle thread).dropping] at held
  by_contra noted
  have here : (host.system.ledger.fibers.get fiber.id).isSome = true :=
    Option.isSome_iff_ne_none.mpr noted
  rcases told with sent | answer
  · exact dropping (sound.told.exits here (by omega))
  · rcases sound.told.answers here answer with bare | held
    · simp [core] at bare
    · exact dropping held

end FiberHost

/-- Where no two Parks overlap and no Release gives up, the end of a fiber is told to somebody,
and a core that has heard of it neither records the fiber nor has a session run in it. -/
theorem death_never_hidden {fiber : HostedFiber} {first final : FiberThreads}
    {events : List FiberEvent} (started : (fiberKernel fiber).machine.start first)
    (meets : (fiberKernel fiber).machine.Meets (Kernel.Allows waitsOut) first events)
    (run : (fiberKernel fiber).machine.exec first events = some final)
    (ended : final.ended = true) (gone : final.shared.known = false) :
    (final.shared.sent = 1 ∨ final.shared.refs = true ∨ final.shared.nils = true) ∧
      (final.shared.bare = false → final.shared.received = final.shared.sent →
        final.shared.system.ledger.fibers.get fiber.id = none ∧
          ∀ key session, final.shared.system.ledger.sessions.get key = some session →
            session.state = .running → session.handle.id ≠ fiber.id) := by
  have guarded := Kernel.guarded_exec meets run
  have kept : (fiberProtocol fiber).Kept final :=
    Protocol.kept_of_reachable ⟨first, events, started, guarded⟩
  have sound : final.shared.Sound fiber := kept.inv
  have idle := FiberHost.idle_of_ended kept ended
  have told := sound.exit_told idle gone
  refine ⟨told, fun core taken => ?_⟩
  have dropped := sound.dropped idle told core taken
  refine ⟨dropped, fun key session present running named => ?_⟩
  obtain ⟨ref, recorded, _⟩ := sound.told.runs.running key session present running
  rw [named, dropped] at recorded
  simp at recorded

def firstFiber : HostedFiber := ⟨⟨"g", 1, 1⟩, by decide, by decide, by decide⟩

def clonedSystem : LedgerSystem :=
  [.admitGrant { uid := "g" }, .resolve 0 "g" "s" .warm 0, .commit 0 "tcp://a" false false].foldl
    (fun system op => (system.apply op).getD system) (newSystem 1)

def clonedSession : Session where
  name := "s"
  grantUID := "g"
  state := .running
  fence := ⟨"g", 1, 1⟩
  handle := { id := firstFiber.id, endpoint := "tcp://a" }

theorem clonedSystem_sessions :
    clonedSystem.ledger.sessions = Table.put ∅ (sessionKey "g" "s") clonedSession := rfl

theorem clonedSystem_fibers :
    clonedSystem.ledger.fibers =
      Table.put ∅ firstFiber.id ⟨"g", sessionKey "g" "s", ⟨"g", 1, 1⟩, 0⟩ := rfl

theorem clonedSystem_runs : clonedSystem.SessionsRun := by
  refine ⟨?_, ?_, ?_⟩ <;> intro key value got <;>
    simp only [clonedSystem_sessions, clonedSystem_fibers, get_put, get_empty] at got ⊢ <;>
    split at got <;> simp only [Option.some.injEq, reduceCtorEq] at got
  · rename_i same
    rw [same]
    exact sessionKey_ne_empty "g" "s"
  · rename_i same
    subst key value
    intro _
    exact ⟨clonedSession, if_pos rfl, rfl, rfl, rfl⟩
  · rename_i same
    subst key value
    intro _
    exact ⟨_, if_pos rfl, rfl⟩

def clonedFiber : FiberThreads := ⟨{ system := clonedSystem }, ∅⟩

theorem clonedFiber_start : (fiberKernel firstFiber).machine.start clonedFiber :=
  ⟨⟨clonedSystem, clonedSystem_runs, rfl, rfl⟩, rfl⟩

/-- A Park fails after the process died and sends the exit it had withheld; the core takes it. -/
def failedPark : List FiberEvent :=
  [.start 0 (.corePark "r"), .act 0 true, .act 0 true, .start 1 .finish, .act 1 true, .act 1 true,
   .act 0 false, .act 0 true, .act 0 true, .start 2 .coreRun, .act 2 true, .act 2 true]

/-- A Release gives up its wait, and the process ends after. -/
def gaveUp : List FiberEvent :=
  [.start 0 (.coreRelease false), .act 0 true, .act 0 true, .act 0 false,
   .start 1 .finish, .act 1 true, .act 1 true]

theorem death_told_by_failed_park :
    ∃ final, (fiberKernel firstFiber).machine.exec clonedFiber failedPark = some final ∧
      final.shared.sent = 1 ∧ final.shared.refs = false ∧
      final.shared.system.ledger.fibers.get firstFiber.id = none := by
  obtain ⟨final, run, ended, gone, sent, received, refs, core⟩ : ∃ final,
    (fiberKernel firstFiber).machine.exec clonedFiber failedPark = some final ∧
      final.ended = true ∧ final.shared.known = false ∧ final.shared.sent = 1 ∧
      final.shared.received = 1 ∧ final.shared.refs = false ∧ final.shared.bare = false := by
    decide +kernel
  have told := death_never_hidden clonedFiber_start (by decide +kernel) run ended gone
  exact ⟨final, run, sent, refs, (told.2 core (received.trans sent.symm)).1⟩

/-- Every call has returned, the process is gone, and nobody was told: the ledger has the fiber
and a Clone of the session would be answered with its endpoint. -/
theorem release_hides_death :
    ∃ final, (fiberKernel firstFiber).machine.exec clonedFiber gaveUp = some final ∧
      final.ended = true ∧ final.shared.known = false ∧ final.shared.sent = 0 ∧
      final.shared.refs = false ∧ final.shared.nils = false ∧
      final.shared.system.ledger.sessions.get (sessionKey "g" "s") = some clonedSession := by
  decide +kernel

end Fiberd
