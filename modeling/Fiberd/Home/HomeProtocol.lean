import Fiberd.Home.HomeGates
import Fiberd.Ledger.LedgerSessions

/-!
What every call finds true of the home while it stands at some point, and that
each action of a call keeps this for it and for all the others.
-/

namespace Fiberd

open Heaps Tables Programs LedgerSystem

structure SlotsKept (home : Home) : Prop where
  placed : ∀ uid channel, home.admitting.get uid = some channel →
    channel < home.channels.size ∧ (home.channels.read channel).closed = false
  single : ∀ first second channel, home.admitting.get first = some channel →
    home.admitting.get second = some channel → first = second

structure Home.Ok (home : Home) : Prop where
  sound : Sound home.system
  runs : SessionsRun home.system
  gates : GatesKept home.ledger home.holds
  slots : SlotsKept home

def OpenedAt (thread : Nat) (opened : Option OpenHold) (home : Home) : Prop :=
  match opened with
  | none => home.system.resolved.get thread = none
  | some hold => ∃ resolution, home.system.resolved.get thread = some resolution ∧
      hold.key = (if resolution.session = "" then none else some resolution.key) ∧
      (hold.fresh = true → resolution.act ≠ .attach ∧ resolution.committed = false) ∧
      ∀ key, hold.fresh = true → hold.key = some key → ¬home.ledger.Runs key

def SlotAt (thread : Nat) (slot : SlotHold) (home : Home) : Prop :=
  match slot with
  | .out => True
  | .entered uid channel passed => home.admitting.get uid = some channel ∧
      (home.channels.read channel).owner = thread ∧
      (home.channels.read channel).passed = passed
  | .left channel => channel < home.channels.size ∧
      (home.channels.read channel).owner = thread ∧
      ∀ uid, home.admitting.get uid ≠ some channel

structure LocalAt (thread : Nat) (holds : Local) (home : Home) : Prop where
  gate : GateAt thread holds.gate home
  opened : OpenedAt thread holds.opened home
  coupled : ∀ hold key, holds.opened = some hold → hold.key = some key →
    holds.gate = .locked key
  slot : SlotAt thread holds.slot home
  fence : (home.resolvedAt.get thread).map Prod.snd = holds.fence

variable {tid : Nat} {holds later : Local} {home next : Home}

theorem LocalAt.of_core (stands : LocalAt tid holds home) (same : later.core = holds.core) :
    LocalAt tid later home := by
  obtain ⟨gate, opened, slot, fence, template⟩ := later
  obtain ⟨_, _, _, _, _⟩ := holds
  simp only [Local.core] at same
  cases same
  exact ⟨stands.gate, stands.opened, stands.coupled, stands.slot, stands.fence⟩

section Carry

variable {home next : Home} {tid : Nat} {holds : Local}

theorem OpenedAt.carry {opened : Option OpenHold} (stands : OpenedAt tid opened home)
    (resolved : next.system.resolved.get tid = home.system.resolved.get tid)
    (idle : ∀ hold key, opened = some hold → hold.key = some key → hold.fresh = true →
      next.ledger.Runs key → home.ledger.Runs key) : OpenedAt tid opened next := by
  cases opened with
  | none => exact resolved.trans stands
  | some hold =>
    obtain ⟨resolution, got, key, open_, quiet⟩ := stands
    refine ⟨resolution, resolved.trans got, key, open_, ?_⟩
    intro name fresh named runs
    exact quiet name fresh named (idle hold name rfl named fresh runs)

theorem SlotAt.carry {slot : SlotHold} (stands : SlotAt tid slot home)
    (admitting : next.admitting = home.admitting) (channels : next.channels = home.channels) :
    SlotAt tid slot next := by
  cases slot with
  | out => trivial
  | entered uid channel passed | left channel =>
    simp only [SlotAt, admitting, channels]
    exact stands

theorem SlotsKept.same (kept : SlotsKept home) (admitting : next.admitting = home.admitting)
    (channels : next.channels = home.channels) : SlotsKept next := by
  refine ⟨?_, ?_⟩
  · rw [admitting, channels]
    exact kept.placed
  · rw [admitting]
    exact kept.single

theorem GateAt.same {gate : GateHold} (stands : GateAt tid gate home)
    (holds : next.holds = home.holds) (gates : next.ledger.gates = home.ledger.gates) :
    GateAt tid gate next := by
  refine stands.carry (by rw [holds]) ?_
  intro key pointer _
  rw [gates]

theorem LocalAt.still (stands : LocalAt tid holds home) (system : next.system = home.system)
    (locks : home.SameLocks next) (asked : next.resolvedAt = home.resolvedAt) :
    LocalAt tid holds next := by
  have ledger : next.ledger = home.ledger := congrArg LedgerSystem.ledger system
  refine ⟨stands.gate.same locks.holds (by rw [ledger]), ?_, stands.coupled,
    stands.slot.carry locks.admitting locks.channels, by rw [asked, stands.fence]⟩
  refine stands.opened.carry (by rw [system]) ?_
  intro _ key _ _ _ runs
  rwa [ledger] at runs

theorem Home.Ok.still (kept : home.Ok) (system : next.system = home.system)
    (locks : home.SameLocks next) : next.Ok := by
  have ledger : next.ledger = home.ledger := congrArg LedgerSystem.ledger system
  refine ⟨system ▸ kept.sound, system ▸ kept.runs, ?_,
    kept.slots.same locks.admitting locks.channels⟩
  rw [ledger, locks.holds]
  exact kept.gates

variable {op : LedgerOp}

theorem LocalAt.carryOp (stands : LocalAt tid holds home)
    (done : home.system.apply op = some next.system) (locks : home.SameLocks next)
    (asked : next.resolvedAt.get tid = home.resolvedAt.get tid) (foreign : op.clone? ≠ some tid)
    (apart : ∀ key, Starts home.system op key → holds.gate ≠ .locked key) :
    LocalAt tid holds next := by
  have gates := gates_apply done
  refine ⟨stands.gate.same locks.holds gates.1, ?_, stands.coupled,
    stands.slot.carry locks.admitting locks.channels, by rw [asked, stands.fence]⟩
  refine stands.opened.carry (resolved_apply done foreign) ?_
  intro hold key opened named _ runs
  rcases runs_apply done runs with old | starts
  · exact old
  · exact (apart key starts (stands.coupled hold key opened named)).elim

theorem Home.Ok.carryOp (kept : home.Ok)
    (done : home.system.apply op = some next.system) (locks : home.SameLocks next)
    (idle : CommitsIdle home.system op) : next.Ok := by
  obtain ⟨gates, perSession⟩ := gates_apply done
  refine ⟨kept.sound.apply done, kept.runs.apply kept.sound idle done, ?_,
    kept.slots.same locks.admitting locks.channels⟩
  rw [locks.holds]
  exact kept.gates.same gates perSession

theorem LocalAt.starts_locked (stands : LocalAt tid holds home) {key : String}
    (mine : op.clone? = some tid) (starts : Starts home.system op key) :
    holds.gate = .locked key := by
  obtain ⟨clone, resolution, isClone, got, _, _, named, sameKey⟩ := starts
  cases mine.symm.trans isClone
  cases opened : holds.opened with
  | none =>
    have none := stands.opened
    rw [opened] at none
    simp [OpenedAt, got] at none
  | some hold =>
    have some_ := stands.opened
    rw [opened] at some_
    obtain ⟨again, foundAgain, holdKey, _⟩ := some_
    cases got.symm.trans foundAgain
    refine stands.coupled hold key opened ?_
    rw [holdKey, if_neg named, sameKey]

theorem LocalAt.carryForeign {other : Nat} {held : Local} (kept : home.Ok)
    (mover : LocalAt tid holds home) (stands : LocalAt other held home)
    (apart : other ≠ tid) (mine : op.clone? = some tid)
    (done : home.system.apply op = some next.system) (locks : home.SameLocks next)
    (asked : next.resolvedAt.get other = home.resolvedAt.get other) : LocalAt other held next := by
  refine stands.carryOp done locks asked ?_ ?_
  · rw [mine, ne_eq, Option.some.injEq]
    exact Ne.symm apart
  · intro key starts locked
    have mineLocked := mover.starts_locked mine starts
    have here := mover.gate
    have there := stands.gate
    rw [mineLocked] at here
    rw [locked] at there
    exact apart (kept.gates.exclusive there here)

variable {system : LedgerSystem}

theorem not_starts_of_plain (plain : op.clone? = none) (key : String) : ¬Starts system op key := by
  rintro ⟨clone, resolution, isClone, _⟩
  simp [plain] at isClone

theorem LocalAt.carryPlain (stands : LocalAt tid holds home)
    (done : home.system.apply op = some next.system) (locks : home.SameLocks next)
    (asked : next.resolvedAt = home.resolvedAt) (plain : op.clone? = none) :
    LocalAt tid holds next := by
  refine stands.carryOp done locks (by rw [asked]) (by simp [plain]) ?_
  intro key starts
  exact (not_starts_of_plain plain key starts).elim

theorem commitsIdle_of_plain (plain : op.clone? = none) : CommitsIdle system op := by
  cases op with
  | commit => simp [LedgerOp.clone?] at plain
  | _ => trivial

theorem Act.plainOp_clone {action : Act} (does : action.plainOp = some op) : op.clone? = none := by
  cases action with
  | _ =>
    simp only [Act.plainOp, Option.some.injEq, reduceCtorEq] at does <;>
      exact does ▸ rfl

theorem Act.plainOp_after {action : Act} {out : action.Result}
    {old later : Local} (does : action.plainOp = some op)
    (may : old.after action out = some later) : later.core = old.core := by
  cases action with
  | revokeGrant uid =>
    simp only [Local.after] at may
    split at may <;> cases may
    rfl
  | _ =>
    simp only [Act.plainOp, reduceCtorEq] at does <;>
      · replace may := Option.some.inj may
        rw [may]

end Carry

section Resolutions

variable {home next : Home} {tid : Nat} {holds later : Local}

variable {resolution : Resolution}

theorem LocalAt.resolve {uid session : String} {tier : Tier} {now : Time}
    {ledger : Ledger} (stands : LocalAt tid holds home) (may : holds.mayResolve uid session = true)
    (got : home.ledger.resolveHeld uid session tier now = .ok (resolution, ledger))
    (done : home.system.apply (.resolve tid uid session tier now) = some next.system)
    (locks : home.SameLocks next) (asked : next.resolvedAt =
      home.resolvedAt.put tid (home.ledger.epoch, resolution.fence)) :
    LocalAt tid (holds.resolved uid session
      (.ok (resolution.act, resolution.fence, resolution.ref))) next := by
  simp only [Local.mayResolve, Bool.and_eq_true, decide_eq_true_eq, Bool.or_eq_true] at may
  have gates := gates_apply done
  have free := stands.opened
  rw [may.1.1] at free
  have nextEq : next.system = home.system.opened tid resolution ledger := by
    simp only [LedgerSystem.apply, show home.system.resolved.get tid = none from free,
      got, Option.some.injEq] at done
    exact done.symm
  have shape : resolution.grantUID = uid ∧ resolution.session = session ∧
      (resolution.act ≠ .attach → resolution.committed = false ∧
        (session ≠ "" → ¬next.ledger.Runs (sessionKey uid session))) := by
    obtain ⟨pointer, admitted, ⟨minted, idle⟩ | ⟨_, _, _, _, _, attach⟩⟩ :=
      Ledger.resolveHeld_ok got
    · refine ⟨minted.sameGrant, minted.sameSession, fun _ => ⟨minted.notCommitted, ?_⟩⟩
      rintro named ⟨item, here, runs⟩
      simp only [Home.ledger, nextEq, LedgerSystem.opened, minted.nextEq] at here
      simp [idle named item here] at runs
    · rw [attach]
      exact ⟨rfl, rfl, fun fresh => (fresh rfl).elim⟩
  refine ⟨stands.gate.same locks.holds gates.1, ?_, ?_,
    stands.slot.carry locks.admitting locks.channels, by simp [asked, Local.resolved]⟩
  · refine ⟨resolution, by simp [nextEq, LedgerSystem.opened], ?_, ?_, ?_⟩
    · simp [Resolution.key, shape.1, shape.2.1]
    · intro fresh
      simp only [decide_eq_true_eq] at fresh
      exact ⟨fresh, (shape.2.2 fresh).1⟩
    · intro key fresh named
      simp only [decide_eq_true_eq] at fresh
      simp only [Option.ite_none_left_eq_some, Option.some.injEq] at named
      obtain ⟨isNamed, rfl⟩ := named
      exact (shape.2.2 fresh).2 isNamed
  · intro hold key opened named
    simp only [Local.resolved] at opened
    cases opened
    simp only [Option.ite_none_left_eq_some, Option.some.injEq] at named
    obtain ⟨isNamed, rfl⟩ := named
    rcases may.2 with bare | locked
    · exact (isNamed bare).elim
    · exact locked

variable {endpoint : String}

theorem LocalAt.commitsIdle {hold : OpenHold} {pooled refuse : Bool}
    (stands : LocalAt tid holds home) (opened : holds.opened = some hold)
    (fresh : hold.fresh = true) : CommitsIdle home.system (.commit tid endpoint pooled refuse) := by
  have open_ := stands.opened
  rw [opened] at open_
  obtain ⟨resolution, got, key, _, idle⟩ := open_
  intro other foundOther _ _ named
  cases got.symm.trans foundOther
  exact idle resolution.key fresh (by rw [key, if_neg named])

theorem LocalAt.commit {hold : OpenHold} {pooled : Bool} (stands : LocalAt tid holds home)
    (opened : holds.opened = some hold) (fresh : hold.fresh = true)
    (got : home.system.resolved.get tid = some resolution)
    (done : home.system.apply (.commit tid endpoint pooled home.draining) =
      some next.system) (locks : home.SameLocks next)
    (asked : next.resolvedAt = home.resolvedAt) :
    LocalAt tid { holds with opened := some { hold with
      fresh := !(home.system.commit tid resolution endpoint pooled home.draining).1 } }
      next := by
  have gates := gates_apply done
  have open_ := stands.opened
  rw [opened] at open_
  obtain ⟨again, foundAgain, key, may, idle⟩ := open_
  cases got.symm.trans foundAgain
  obtain ⟨act, uncommitted⟩ := may fresh
  have nextEq : next.system =
      (home.system.commit tid resolution endpoint pooled home.draining).2 := by
    simp only [LedgerSystem.apply, got, act, uncommitted, Bool.false_eq_true, or_self,
      if_false, Option.some.injEq] at done
    exact done.symm
  refine ⟨stands.gate.same locks.holds gates.1, ?_, ?_,
    stands.slot.carry locks.admitting locks.channels, by rw [asked, stands.fence]⟩
  · rcases commit_cases home.system tid resolution endpoint pooled home.draining with
      refused | ⟨_, _, _, landed⟩
    · have same : next.system = home.system := by rw [nextEq, refused]
      rw [refused]
      refine ⟨resolution, by rw [same, got], key, fun _ => ⟨act, uncommitted⟩, ?_⟩
      intro name _ named
      rw [Home.ledger, same]
      exact idle name fresh named
    · rw [landed]
      refine ⟨{ resolution with committed := true }, by simp [nextEq, landed, committed], key,
        by simp, by simp⟩
  · intro other name isOpened named
    cases isOpened
    exact stands.coupled hold name opened named

theorem LocalAt.unlock (stands : LocalAt tid holds home)
    (done : home.system.apply (.unlock tid) = some next.system)
    (locks : home.SameLocks next) (asked : next.resolvedAt = home.resolvedAt) :
    LocalAt tid { holds with opened := none } next := by
  have gates := gates_apply done
  refine ⟨stands.gate.same locks.holds gates.1, ?_, by simp,
    stands.slot.carry locks.admitting locks.channels, by rw [asked, stands.fence]⟩
  simp only [LedgerSystem.apply] at done
  split at done
  · simp at done
  · simp only [Option.some.injEq] at done
    simp [OpenedAt, ← done, LedgerSystem.unlock]

end Resolutions

def Ledger.SameBooks (ledger next : Ledger) : Prop :=
  next = { ledger with gates := next.gates, perSession := next.perSession }

variable {ledger : Ledger}

theorem Ledger.SameBooks.sessions {next : Ledger} (books : ledger.SameBooks next) :
    next.sessions = ledger.sessions := by
  rw [books]

theorem Ledger.SameBooks.fibers {next : Ledger} (books : ledger.SameBooks next) :
    next.fibers = ledger.fibers := by
  rw [books]

theorem Ledger.SameBooks.quiet {next : Ledger} (books : ledger.SameBooks next) :
    ledger.Quiet next := by
  rw [books]
  exact ⟨rfl, rfl, rfl, rfl, fun _ => rfl, fun _ => rfl,
    fun _ ref got => ⟨ref, got, rfl, rfl, rfl⟩⟩

section Gates

variable {home : Home} {tid : Nat} {holds : Local}

variable {table : Table Nat (String × Nat)}

variable {ledger : Ledger}

theorem LocalAt.carryGates {gate : GateHold} (stands : LocalAt tid holds home)
    (at_ : GateAt tid gate { home.withLedger ledger with holds := table })
    (coupled : ∀ hold key, holds.opened = some hold → hold.key = some key → gate = .locked key)
    (books : home.ledger.SameBooks ledger) :
    LocalAt tid { holds with gate := gate }
      { home.withLedger ledger with holds := table } := by
  refine ⟨at_, ?_, coupled, stands.slot.carry rfl rfl, stands.fence⟩
  refine stands.opened.carry rfl ?_
  rintro _ key _ _ _ ⟨session, here, runs⟩
  exact ⟨session, books.sessions ▸ here, runs⟩

theorem joinGate_books (ledger : Ledger) (key : String) :
    ledger.SameBooks (ledger.joinGate key).2 := by
  unfold Ledger.joinGate
  split <;> rfl

theorem joinGate_holder (ledger : Ledger) (key : String) (pointer : Nat)
    (bound : pointer < ledger.gates.size) : ((ledger.joinGate key).2.gates.read pointer).holder =
      (ledger.gates.read pointer).holder := by
  unfold Ledger.joinGate
  split
  · dsimp only
    rw [read_write]
    split
    · rename_i same
      rw [same]
    · rfl
  · dsimp only
    rw [read_alloc_old _ _ bound]

theorem lockGate_eq {next : Ledger} {pointer : Nat}
    (took : ledger.lockGate pointer tid = some next) :
    (ledger.gates.read pointer).holder = none ∧ ledger.SameBooks next ∧
      ∀ query, (next.gates.read query).holder =
        if query = pointer then some tid else (ledger.gates.read query).holder := by
  unfold Ledger.lockGate at took
  split at took <;> cases took
  rename_i free
  refine ⟨free, rfl, ?_⟩
  intro query
  rw [read_write]
  split <;> rfl

theorem unlockGate_holder (ledger : Ledger) (pointer query : Nat) :
    ((ledger.unlockGate pointer).gates.read query).holder =
      if query = pointer then none else (ledger.gates.read query).holder := by
  simp only [Ledger.unlockGate, read_write]
  split <;> rfl

theorem GatesKept.joined_unheld (kept : GatesKept ledger table) (key : String)
    (free : table.get tid = none) :
    ((ledger.joinGate key).2.gates.read (ledger.joinGate key).1).holder ≠ some tid := by
  unfold Ledger.joinGate
  cases here : ledger.perSession.get key with
  | none => simp
  | some pointer =>
    intro held
    simp only [read_write_same] at held
    have bound := kept.placed key pointer here
    obtain ⟨_, got⟩ := kept.holder pointer tid bound held
    simp [free] at got

end Gates

theorem sameBooks_of_eq {other : Ledger} (same : other = ledger) : ledger.SameBooks other := by
  subst same
  rfl

def LedgerOp.grantAct? : LedgerOp → Option Act
  | .admitGrant grant => some (.admitGrant grant)
  | .revokeGrant uid => some (.revokeGrant uid)
  | _ => none

variable {action : Act}

theorem Act.plainOp_grantAct {mover : Act} {op : LedgerOp}
    (does : action.plainOp = some op) (moves : op.grantAct? = some mover) : action = mover := by
  cases action with
  | _ =>
    cases does <;> simp_all [LedgerOp.grantAct?]

variable {answer : Answer}

variable {out : action.Result}

theorem Home.perform_books (ran : home.perform tid action answer = some (out, next)) :
    (∃ op, home.system.apply op = some next.system ∧
        ∀ mover, op.grantAct? = some mover → action = mover) ∨
      next.system = home.system.withLedger next.ledger ∧ home.ledger.SameBooks next.ledger := by
  have unchanged : ∀ later : Home, later.system = home.system →
      later.system = home.system.withLedger later.ledger ∧
        home.ledger.SameBooks later.ledger := by
    intro later same
    have ledger : later.ledger = home.ledger := congrArg LedgerSystem.ledger same
    exact ⟨by rw [ledger, same]; rfl, sameBooks_of_eq ledger⟩
  cases perform_effect ran with
  | still system _ _ _ | passed system _ _ _ _ | refused system _ _ =>
    exact .inr (unchanged _ system)
  | plain does done _ _ => exact .inl ⟨_, done, fun _ => Act.plainOp_grantAct does⟩
  | admitted done _ _ => exact .inl ⟨_, done, fun _ => Option.some.inj⟩
  | resolved done _ _ _ | committed _ done _ _ | closed done _ _ =>
    exact .inl ⟨_, done, by simp [LedgerOp.grantAct?]⟩
  | joined _ => exact .inr ⟨rfl, joinGate_books _ _⟩
  | locked _ took => exact .inr ⟨rfl, (lockGate_eq took).2.1⟩
  | unlocked _ | left _ => exact .inr ⟨rfl, rfl⟩
  | entered _ | leftSlot | closedSlot => exact .inr (unchanged _ rfl)

theorem Home.perform_grants (ran : home.perform tid action answer = some (out, next))
    (uid : String) : next.ledger.grants.get uid = home.ledger.grants.get uid ∨
      (∃ grant, action = .admitGrant grant ∧ grant.uid = uid ∧ next.ledger.grants.get uid ≠ none) ∨
      action = .revokeGrant uid ∧ next.ledger.grants.get uid = none := by
  rcases perform_books ran with ⟨op, done, moves⟩ | ⟨_, books⟩
  · rcases grants_apply done uid with same | ⟨grant, rfl, mine, admitted⟩ | ⟨rfl, revoked⟩
    · exact .inl same
    · exact .inr (.inl ⟨grant, moves _ rfl, mine, admitted⟩)
    · exact .inr (.inr ⟨moves _ rfl, revoked⟩)
  · exact .inl (congrArg (·.get uid) books.quiet.grants)

theorem Home.perform_revokes {uid : String} {out : (Act.revokeGrant uid).Result}
    (ran : home.perform tid (.revokeGrant uid) answer = some (out, next)) :
    next.ledger.grants = home.ledger.grants.drop uid ∧
      next.yielding = home.yielding.put tid (uid, home.ledger.entries.size) := by
  simp only [perform, op, LedgerSystem.apply, Option.map_some] at ran
  cases ran
  exact ⟨(revokeGrant_fields home.ledger uid).2.1, rfl⟩

structure Moved (thread : Nat) (later : Local) (home next : Home) : Prop where
  ok : next.Ok
  mover : LocalAt thread later next
  others : ∀ other held, other ≠ thread → LocalAt other held home → LocalAt other held next

theorem Moved.of_core (moved : Moved tid holds home next) (same : later.core = holds.core) :
    Moved tid later home next :=
  ⟨moved.ok, moved.mover.of_core same, moved.others⟩

section Moves

variable {home next : Home} {tid : Nat} {holds : Local}

theorem moved_own {op : LedgerOp} {later : Local} (kept : home.Ok)
    (stands : LocalAt tid holds home) (mine : op.clone? = some tid)
    (done : home.system.apply op = some next.system) (locks : home.SameLocks next)
    (asked : ∀ other, other ≠ tid → next.resolvedAt.get other = home.resolvedAt.get other)
    (idle : CommitsIdle home.system op) (mover : LocalAt tid later next) :
    Moved tid later home next :=
  ⟨kept.carryOp done locks idle, mover, fun other _ apart standsThere =>
    stands.carryForeign kept standsThere apart mine done locks (asked other apart)⟩

theorem moved_plain {op : LedgerOp} (kept : home.Ok) (stands : LocalAt tid holds home)
    (plain : op.clone? = none) (done : home.system.apply op = some next.system)
    (locks : home.SameLocks next) (asked : next.resolvedAt = home.resolvedAt) :
    Moved tid holds home next :=
  ⟨kept.carryOp done locks (commitsIdle_of_plain plain),
    stands.carryPlain done locks asked plain, fun _ _ _ other =>
      other.carryPlain done locks asked plain⟩

theorem LocalAt.anonymous (stands : LocalAt tid holds home)
    (unlocked : ∀ key, holds.gate ≠ .locked key) (hold : OpenHold)
    (opened : holds.opened = some hold) : hold.key = none := by
  by_contra named
  obtain ⟨key, isKey⟩ := Option.ne_none_iff_exists'.mp named
  exact unlocked key (stands.coupled hold key opened isKey)

theorem moved_gates {ledger : Ledger} {table : Table Nat (String × Nat)} {gate : GateHold}
    (kept : home.Ok) (stands : LocalAt tid holds home) (books : home.ledger.SameBooks ledger)
    (gates : GatesKept ledger table)
    (at_ : GateAt tid gate { home.withLedger ledger with holds := table })
    (bare : ∀ hold, holds.opened = some hold → hold.key = none)
    (apart : ∀ other, other ≠ tid → table.get other = home.holds.get other)
    (unseen : ∀ other key pointer, other ≠ tid → home.holds.get other = some (key, pointer) →
      ((ledger.gates.read pointer).holder = some other ↔
        (home.ledger.gates.read pointer).holder = some other)) :
    Moved tid { holds with gate := gate } home
      { home.withLedger ledger with holds := table } := by
  refine ⟨⟨kept.sound.quiet books.quiet, kept.runs.same books.sessions books.fibers, gates,
    kept.slots.same rfl rfl⟩, stands.carryGates at_ ?_ books, ?_⟩
  · intro hold key opened named
    simp [bare hold opened] at named
  · intro other held different standsThere
    have gate : GateAt other held.gate { home.withLedger ledger with holds := table } := by
      refine standsThere.gate.carry (apart other different) ?_
      intro key pointer got
      exact unseen other key pointer different got
    exact standsThere.carryGates gate standsThere.coupled books

theorem moved_join (kept : home.Ok) (stands : LocalAt tid holds home) (key : String)
    (free : holds.gate = .free) :
    Moved tid { holds with gate := .joined key } home
      { home.withLedger (home.ledger.joinGate key).2 with
        holds := home.holds.put tid (key, (home.ledger.joinGate key).1) } := by
  have none : home.holds.get tid = none := by
    have at_ := stands.gate
    rw [free] at at_
    exact at_
  refine moved_gates kept stands (joinGate_books _ key) (kept.gates.join key none) ?_
    (stands.anonymous (by simp [free])) ?_ ?_
  · exact ⟨_, get_put_same _ _ _, kept.gates.joined_unheld key none⟩
  · intro other apart
    exact get_put_other _ _ apart
  · intro other name pointer _ got
    rw [joinGate_holder _ key pointer (kept.gates.bound got)]

variable {key name uid : String} {pointer channel : Nat}

section

variable (kept : home.Ok) (stands : LocalAt tid holds home)
include kept stands

theorem moved_lock {ledger : Ledger} (waits : holds.gate = .joined key)
    (joined : home.holds.get tid = some (key, pointer))
    (took : home.ledger.lockGate pointer tid = some ledger) :
    Moved tid { holds with gate := .locked key } home (home.withLedger ledger) := by
  obtain ⟨free, books, holder⟩ := lockGate_eq took
  refine moved_gates kept stands books (kept.gates.lock joined took) ?_
    (stands.anonymous (by simp [waits])) (fun _ _ => rfl) ?_
  · exact ⟨pointer, joined, (holder pointer).trans (if_pos rfl)⟩
  · intro other name query apart _
    rw [holder]
    split
    · rename_i same
      rw [same, free]
      simp [Ne.symm apart]
    · rfl

theorem moved_unlock (inside : holds.gate = .locked key) (closed : holds.opened = none)
    (joined : home.holds.get tid = some (name, pointer)) :
    Moved tid { holds with gate := .left key } home
      (home.withLedger (home.ledger.unlockGate pointer)) := by
  have at_ := stands.gate
  rw [inside] at at_
  obtain ⟨again, got, held⟩ := at_
  rw [joined, Option.some.injEq, Prod.mk.injEq] at got
  obtain ⟨rfl, rfl⟩ := got
  refine moved_gates kept stands rfl (kept.gates.unlock pointer) ?_ (by simp [closed])
    (fun _ _ => rfl) ?_
  · refine ⟨pointer, joined, ?_⟩
    simp [Home.withLedger, Home.ledger, withLedger, unlockGate_holder]
  · intro other name query apart _
    rw [unlockGate_holder]
    split
    · rename_i same
      rw [same, held]
      simp [Ne.symm apart]
    · rfl

theorem moved_leave (outside : holds.gate = .left key)
    (joined : home.holds.get tid = some (name, pointer)) :
    Moved tid { holds with gate := .free } home
      { home.withLedger (home.ledger.leaveGate name pointer) with
        holds := home.holds.drop tid } := by
  have at_ := stands.gate
  rw [outside] at at_
  obtain ⟨again, got, unheld⟩ := at_
  rw [joined, Option.some.injEq, Prod.mk.injEq] at got
  obtain ⟨rfl, rfl⟩ := got
  refine moved_gates kept stands rfl (kept.gates.leave joined unheld) ?_
    (stands.anonymous (by simp [outside])) ?_ ?_
  · exact get_drop_same _ _
  · intro other apart
    exact get_drop_other _ apart
  · intro other _ query _ _
    simp only [Home.ledger, Ledger.leaveGate, read_write]
    split
    · rename_i same
      rw [same]
    · rfl

theorem moved_slots {slot : SlotHold} (system : next.system = home.system)
    (table : next.holds = home.holds) (asked : next.resolvedAt = home.resolvedAt)
    (slots : SlotsKept next) (at_ : SlotAt tid slot next)
    (unseen : ∀ other held, other ≠ tid → SlotAt other held home → SlotAt other held next) :
    Moved tid { holds with slot := slot } home next := by
  have ledger : next.ledger = home.ledger := congrArg LedgerSystem.ledger system
  have opened : ∀ other held, OpenedAt other held home → OpenedAt other held next := by
    intro other held stands
    refine stands.carry (by rw [system]) ?_
    intro _ key _ _ _ runs
    rwa [ledger] at runs
  refine ⟨⟨system ▸ kept.sound, system ▸ kept.runs, by rw [ledger, table]; exact kept.gates,
    slots⟩, ?_, ?_⟩
  · exact ⟨stands.gate.same table (by rw [ledger]), opened _ _ stands.opened, stands.coupled, at_,
      by rw [asked, stands.fence]⟩
  · intro other held apart standsThere
    exact ⟨standsThere.gate.same table (by rw [ledger]), opened _ _ standsThere.opened,
      standsThere.coupled, unseen _ _ apart standsThere.slot,
      by rw [asked, standsThere.fence]⟩

theorem moved_enter (free : home.admitting.get uid = none) :
    Moved tid { holds with slot := .entered uid home.channels.size false } home { home with
      admitting := home.admitting.put uid home.channels.size
      channels := home.channels.alloc { owner := tid } } := by
  refine moved_slots kept stands rfl rfl rfl ⟨?_, ?_⟩ ?_ ?_
  · intro query channel got
    obtain ⟨_, rfl⟩ | ⟨_, got⟩ := get_put_eq_some got
    · simp
    · obtain ⟨bound, runs⟩ := kept.slots.placed query channel got
      refine ⟨by rw [size_alloc]; omega, ?_⟩
      dsimp only
      rw [read_alloc_old _ _ bound]
      exact runs
  · intro first second channel one two
    simp only [get_put] at one two
    split at one <;> split at two
    · rename_i mine its
      exact mine.trans its.symm
    · simp only [Option.some.injEq] at one
      have bound := (kept.slots.placed second channel two).1
      omega
    · simp only [Option.some.injEq] at two
      have bound := (kept.slots.placed first channel one).1
      omega
    · exact kept.slots.single first second channel one two
  · exact ⟨get_put_same _ _ _, by simp, by simp⟩
  · intro other held different there
    cases held with
    | out => trivial
    | entered name channel passed =>
      obtain ⟨got, owner, mark⟩ := there
      have bound := (kept.slots.placed name channel got).1
      have apart : name ≠ uid := by
        rintro rfl
        simp [free] at got
      refine ⟨(get_put_other _ _ apart).trans got, ?_, ?_⟩ <;>
        · dsimp only
          rw [read_alloc_old _ _ bound]
          assumption
    | left channel =>
      obtain ⟨bound, owner, gone⟩ := there
      refine ⟨by rw [size_alloc]; omega, ?_, ?_⟩
      · dsimp only
        rw [read_alloc_old _ _ bound]
        exact owner
      · intro name got
        obtain ⟨_, got⟩ | ⟨_, got⟩ := get_put_eq_some got
        · omega
        · exact gone name got

end

theorem SlotAt.write {slot : SlotHold} {value : AdmitChannel}
    (stands : SlotAt tid slot home) (admitting : next.admitting = home.admitting)
    (channels : next.channels = home.channels.write channel value)
    (owner : (home.channels.read channel).owner ≠ tid) : SlotAt tid slot next := by
  have unread : ∀ query, (home.channels.read query).owner = tid →
      next.channels.read query = home.channels.read query := by
    intro query mine
    rw [channels, read_write, if_neg]
    rintro rfl
    exact owner mine
  cases slot with
  | out => trivial
  | entered uid query passed =>
    obtain ⟨got, mine, mark⟩ := stands
    exact ⟨by rw [admitting, got], by rw [unread query mine, mine],
      by rw [unread query mine, mark]⟩
  | left query =>
    obtain ⟨bound, mine, gone⟩ := stands
    refine ⟨by rw [channels, size_write]; exact bound, by rw [unread query mine, mine], ?_⟩
    rw [admitting]
    exact gone

theorem moved_pass (kept : home.Ok)
    (stands : LocalAt tid holds home) (inside : holds.slot = .entered uid channel false)
    (system : next.system = home.system) (table : next.holds = home.holds)
    (admitting : next.admitting = home.admitting)
    (channels : next.channels = home.channels.write channel
      { home.channels.read channel with passed := true })
    (asked : next.resolvedAt = home.resolvedAt) :
    Moved tid { holds with slot := .entered uid channel true } home next := by
  have at_ := stands.slot
  rw [inside] at at_
  obtain ⟨got, owner, _⟩ := at_
  refine moved_slots kept stands system table asked ⟨?_, ?_⟩ ?_ ?_
  · intro query other there
    rw [admitting] at there
    obtain ⟨bound, runs⟩ := kept.slots.placed query other there
    refine ⟨by rw [channels, size_write]; exact bound, ?_⟩
    rw [channels, read_write]
    split
    · rename_i same
      rw [← runs, same]
    · exact runs
  · rw [admitting]
    exact kept.slots.single
  · exact ⟨by rw [admitting, got], by simp [channels, owner], by simp [channels]⟩
  · intro other held apart there
    exact there.write admitting channels (by rw [owner]; exact Ne.symm apart)

theorem moved_leaveSlot {passed : Bool} (kept : home.Ok)
    (stands : LocalAt tid holds home) (inside : holds.slot = .entered uid channel passed) :
    Moved tid { holds with slot := .left channel } home
      { home with admitting := home.admitting.drop uid } := by
  have at_ := stands.slot
  rw [inside] at at_
  obtain ⟨got, owner, _⟩ := at_
  have older : ∀ query other, (home.admitting.drop uid).get query = some other →
      home.admitting.get query = some other ∧ query ≠ uid := by
    intro query other there
    obtain ⟨different, there⟩ := get_drop_eq_some there
    exact ⟨there, different⟩
  refine moved_slots kept stands rfl rfl rfl ⟨?_, ?_⟩ ?_ ?_
  · intro query other there
    exact kept.slots.placed query other (older query other there).1
  · intro first second other one two
    exact kept.slots.single first second other (older _ _ one).1 (older _ _ two).1
  · refine ⟨(kept.slots.placed uid channel got).1, owner, ?_⟩
    intro query there
    obtain ⟨old, different⟩ := older query channel there
    exact different (kept.slots.single query uid channel old got)
  · intro other held different there
    cases held with
    | out => trivial
    | entered name query mark =>
      obtain ⟨here, its, marked⟩ := there
      refine ⟨?_, its, marked⟩
      have apart : name ≠ uid := by
        rintro rfl
        cases got.symm.trans here
        exact different (its.symm.trans owner)
      exact (get_drop_other _ apart).trans here
    | left query =>
      obtain ⟨bound, its, gone⟩ := there
      exact ⟨bound, its, fun name here => gone name (older name query here).1⟩

theorem moved_closeSlot (kept : home.Ok) (stands : LocalAt tid holds home)
    (outside : holds.slot = .left channel) :
    Moved tid { holds with slot := .out } home { home with
      channels := home.channels.write channel
        { home.channels.read channel with closed := true } } := by
  have at_ := stands.slot
  rw [outside] at at_
  obtain ⟨_, owner, gone⟩ := at_
  refine moved_slots kept stands rfl rfl rfl ⟨?_, kept.slots.single⟩ trivial ?_
  · intro query other there
    obtain ⟨bound, runs⟩ := kept.slots.placed query other there
    refine ⟨bound, ?_⟩
    have apart : other ≠ channel := by
      rintro rfl
      exact gone query there
    dsimp only
    rw [read_write, if_neg apart]
    exact runs
  · intro other held different there
    exact there.write rfl rfl (by rw [owner]; exact Ne.symm different)

end Moves

theorem Home.moved (kept : home.Ok) (stands : LocalAt tid holds home)
    (allowed : holds.after action out = some later)
    (ran : home.perform tid action answer = some (out, next)) : Moved tid later home next := by
  cases perform_effect ran with
  | still system locks asked unmoved =>
    exact ⟨kept.still system locks,
      (stands.still system locks asked).of_core (unmoved holds later allowed),
      fun _ _ _ other => other.still system locks asked⟩
  | plain does done locks asked =>
    exact (moved_plain kept stands (Act.plainOp_clone does) done locks asked).of_core
      (Act.plainOp_after does allowed)
  | admitted done locks asked =>
    simp only [Local.after] at allowed
    split at allowed
    · split at allowed <;> cases allowed
      exact moved_plain kept stands rfl done locks asked
    · simp at allowed
  | resolved done got locks asked =>
    simp only [Local.after] at allowed
    split at allowed <;> cases allowed
    rename_i may
    refine moved_own kept stands rfl done locks ?_ trivial
      (stands.resolve may got done locks asked)
    intro other apart
    rw [asked, get_put_other _ _ apart]
  | committed got done locks asked =>
    simp only [Local.after] at allowed
    split at allowed
    · rename_i hold opened
      split at allowed <;> cases allowed
      rename_i fresh
      exact moved_own kept stands rfl done locks (fun _ _ => by rw [asked])
        (stands.commitsIdle opened fresh)
        (stands.commit opened fresh got done locks asked)
    · simp at allowed
  | closed done locks asked =>
    simp only [Local.after] at allowed
    split at allowed <;> cases allowed
    exact moved_own kept stands rfl done locks (fun _ _ => by rw [asked]) trivial
      (stands.unlock done locks asked)
  | joined free =>
    simp only [Local.after] at allowed
    split at allowed <;> cases allowed
    rename_i isFree
    exact moved_join kept stands _ isFree
  | locked joined took =>
    simp only [Local.after] at allowed
    split at allowed <;> cases allowed
    rename_i key waits
    have at_ := stands.gate
    rw [waits] at at_
    obtain ⟨pointer, got, _⟩ := at_
    rw [joined, Option.some.injEq, Prod.mk.injEq] at got
    exact moved_lock kept stands waits (got.1 ▸ joined) took
  | unlocked joined =>
    simp only [Local.after] at allowed
    split at allowed <;> cases allowed
    rename_i key inside closed
    exact moved_unlock kept stands inside closed joined
  | left joined =>
    simp only [Local.after] at allowed
    split at allowed <;> cases allowed
    rename_i key outside
    exact moved_leave kept stands outside joined
  | entered free =>
    simp only [Local.after] at allowed
    split at allowed <;> cases allowed
    exact moved_enter kept stands free
  | passed system table admitting channels asked =>
    simp only [Local.after] at allowed
    split at allowed <;> cases allowed
    rename_i inside
    exact moved_pass kept stands inside system table admitting channels asked
  | refused system locks asked =>
    simp only [Local.after] at allowed
    split at allowed
    · rename_i inside
      simp only [Bool.not_true, Option.some.injEq] at allowed
      rw [← inside] at allowed
      subst later
      exact ⟨kept.still system locks, stands.still system locks asked,
        fun _ _ _ other => other.still system locks asked⟩
    · simp at allowed
  | leftSlot =>
    simp only [Local.after] at allowed
    split at allowed
    · rename_i inside
      split at allowed <;> cases allowed
      rename_i same
      exact (moved_leaveSlot kept stands (same ▸ inside)).of_core rfl
    · simp at allowed
  | closedSlot =>
    simp only [Local.after] at allowed
    split at allowed <;> cases allowed
    rename_i outside
    exact moved_closeSlot kept stands outside

variable {out : (Act.admitGrant grant).Result}

theorem Local.admits {grant : Grant} (turn : holds.after (.admitGrant grant) out = some later) :
    later = holds ∧ holds.template.ready = true ∧
      ∃ channel, holds.slot = .entered grant.uid channel true := by
  simp only [Local.after] at turn
  split at turn
  · rename_i uid channel passed place
    split at turn
    · rename_i mine
      obtain ⟨rfl, rfl, ready⟩ := mine
      simp only [Option.some.injEq] at turn
      exact ⟨turn.symm, ready, channel, place⟩
    · simp at turn
  · simp at turn

theorem LocalAt.admits {grant : Grant} (stands : LocalAt tid holds home)
    (turn : holds.after (.admitGrant grant) out = some later) :
    ∃ channel, home.admitting.get grant.uid = some channel ∧
      (home.channels.read channel).passed = true := by
  obtain ⟨_, _, channel, place⟩ := Local.admits turn
  have slot := stands.slot
  rw [place] at slot
  exact ⟨channel, slot.1, slot.2.2⟩

theorem newHome_ok (epoch : Nat) (revoked : Option Revoked) : (newHome epoch revoked).Ok := by
  refine ⟨sound_new epoch, sessionsRun_new epoch, ⟨?_, ?_, ?_, ?_, ?_⟩, ⟨?_, ?_⟩⟩ <;>
    simp [newHome, newSystem, newLedger, Heap.empty]

theorem newHome_idle (epoch : Nat) (revoked : Option Revoked) (tid : Nat) :
    LocalAt tid {} (newHome epoch revoked) := by
  refine ⟨?_, ?_, by simp, trivial, by simp [newHome]⟩
  · simp [GateAt, newHome]
  · simp [OpenedAt, newHome, newSystem]

end Fiberd
