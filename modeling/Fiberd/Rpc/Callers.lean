import Fiberd.Ledger.LedgerSound

/-!
The calls of the control API that name a fiber, on a listener with mutual TLS.
The check of the caller and the action look the fiber up apart, each lookup is one
hold of the ledger's lock, and anything may happen to the ledger between them.
-/

namespace Fiberd

open Tables Machines

inductive FiberVerb where
  | park
  | release
  | upload
  | download
  | listFiles
  deriving DecidableEq

def FiberVerb.isFile : FiberVerb → Bool
  | .park | .release => false
  | _ => true

/-- `refused` stands for every refusal the fiber's own state gives. -/
inductive CallerAnswer where
  | notFound
  | noWorkspace
  | refused
  | served
  deriving DecidableEq

/-- The next thing a call does.  `core` is the lookup of `Core.Park` and `Core.Release`, with
the grant that `ownsFiber` checked, if it found one. -/
inductive CallerStage where
  | ownsFiber
  | owns (uid : String)
  | grant (uid : String)
  | core (uid : Option String)
  | act (uid : String)
  | answered (answer : CallerAnswer)
  deriving DecidableEq

structure CallerCall where
  verb : FiberVerb
  caller : String
  fiberID : String
  stage : CallerStage := .ownsFiber
  deriving DecidableEq

def CallerCall.look (call : CallerCall) (ledger : Ledger) : CallerStage :=
  match call.stage with
  | .ownsFiber =>
    match ledger.fiber? call.fiberID with
    | some fence => .owns fence.grantUID
    | none => if call.verb.isFile then .answered .notFound else .core none
  | .owns uid =>
    if ledger.grantBoundTo uid call.caller then
      if call.verb.isFile then .grant uid else .core (some uid)
    else .answered .notFound
  | .grant uid =>
    match ledger.grant? uid with
    | none => .answered .notFound
    | some grant => if grant.diskBudgetBytes = 0 then .answered .noWorkspace else .act uid
  | .core _ =>
    match ledger.fiber? call.fiberID with
    | none => .answered .notFound
    | some fence => .act fence.grantUID
  | stage => stage

/-- An action on a fiber: who asked, and whom its grant was bound to then. -/
structure FiberTouch where
  caller : String
  bound : Option String
  deriving DecidableEq

structure CallerHome where
  system : LedgerSystem
  calls : Table Nat CallerCall := ∅
  touched : List FiberTouch := []

inductive CallerStep where
  | ledger (op : LedgerOp)
  | call (thread : Nat) (verb : FiberVerb) (caller fiberID : String)
  | look (thread : Nat)
  | refuse (thread : Nat)
  | act (thread : Nat) (more : Bool)

namespace CallerHome

def bound (home : CallerHome) (uid : String) : Option String :=
  (home.system.ledger.grant? uid).map Grant.callerThumbprint

def turn (home : CallerHome) (thread : Nat) (call : CallerCall) (stage : CallerStage) :
    CallerHome :=
  { home with calls := home.calls.put thread { call with stage := stage } }

def step (home : CallerHome) : CallerStep → Option CallerHome
  | .ledger op => (home.system.apply op).map fun system => { home with system := system }
  | .call thread verb caller fiberID =>
    if (home.calls.get thread).isNone then
      some { home with calls := home.calls.put thread ⟨verb, caller, fiberID, .ownsFiber⟩ }
    else none
  | .look thread => (home.calls.get thread).map fun call =>
      home.turn thread call (call.look home.system.ledger)
  | .refuse thread => (home.calls.get thread).bind fun call =>
      match call.stage with
      | .act _ => some (home.turn thread call (.answered .refused))
      | _ => none
  | .act thread more => (home.calls.get thread).bind fun call =>
      match call.stage with
      | .act uid =>
        let next := { home with touched := ⟨call.caller, home.bound uid⟩ :: home.touched }
        some (if more then next else next.turn thread call (.answered .served))
      | _ => none

end CallerHome

def callerMachine : Machine CallerHome CallerStep where
  start home := ∃ epoch, home = { system := newSystem epoch }
  step := CallerHome.step

theorem Ledger.grant?_admitGrant (ledger : Ledger) (grant : Grant) :
    (ledger.admitGrant grant).grant? grant.uid = some grant := by
  unfold admitGrant
  split <;> simp [grant?, *]

theorem Ledger.grant?_revokeGrant (ledger : Ledger) (uid : String) :
    (ledger.revokeGrant uid).grant? uid = none := by
  unfold revokeGrant
  split <;> simp [grant?, *]

namespace CallerHome

/-- The fiber is recorded and not the caller's, or there is no such fiber. -/
def hides (home : CallerHome) (caller fiberID : String) (known : Bool) : Prop :=
  match home.system.ledger.fiber? fiberID with
  | none => known = false
  | some fence => known = true ∧ home.system.ledger.grantBoundTo fence.grantUID caller = false

/-- A call made now has one answer, whatever comes between its lookups, whether each of them finds
the fiber of another caller or each finds none. -/
structure Isolated (home : CallerHome) : Prop where
  own : ∀ touch ∈ home.touched, ∀ bound, touch.bound = some bound → bound = touch.caller
  hidden : ∀ known thread verb caller fiberID labels later call answer,
    callerMachine.Meets (fun home label => label = .look thread → home.hides caller fiberID known)
      home (.call thread verb caller fiberID :: labels) →
    callerMachine.exec home (.call thread verb caller fiberID :: labels) = some later →
    later.calls.get thread = some call → call.stage = .answered answer → answer = .notFound

/-- A grant that a call in flight has passed, or that its fiber is of, is bound to nobody else,
and a fiber whose id a call found unknown is committed only under a grant of the caller's. -/
def keepsCallers (home : CallerHome) : CallerStep → Bool
  | .ledger (.admitGrant grant) => home.calls.rows.all fun row =>
      match row.2.stage with
      | .grant uid | .core (some uid) | .act uid =>
        uid ≠ grant.uid ∨ grant.callerThumbprint = row.2.caller
      | .core none => (home.system.ledger.fiber? row.2.fiberID).all fun fence =>
        fence.grantUID ≠ grant.uid ∨ grant.callerThumbprint = row.2.caller
      | _ => true
  | .ledger (.commit clone _ _ _) => (home.system.resolved.get clone).all fun resolution =>
      home.calls.rows.all fun row => row.2.stage ≠ .core none ∨
        resolution.fence.string ≠ row.2.fiberID ∨
        home.bound resolution.grantUID = some row.2.caller
  | _ => true

def Theirs (home : CallerHome) (caller uid : String) : Prop :=
  ∀ bound, home.bound uid = some bound → bound = caller

def Names (fiberID uid : String) : Prop := ∃ fence : Fence, fence.string = fiberID ∧
  fence.grantUID = uid

def Vouched (home : CallerHome) (call : CallerCall) : Prop :=
  match call.stage with
  | .owns uid => Names call.fiberID uid
  | .grant uid | .core (some uid) | .act uid =>
    Names call.fiberID uid ∧ home.Theirs call.caller uid
  | .core none => ∀ fence, home.system.ledger.fiber? call.fiberID = some fence →
    home.Theirs call.caller fence.grantUID
  | _ => True

structure Guarded (home : CallerHome) : Prop where
  sound : home.system.Sound
  calls : ∀ thread call, home.calls.get thread = some call → home.Vouched call
  own : ∀ touch ∈ home.touched, ∀ bound, touch.bound = some bound → bound = touch.caller

variable {home next : CallerHome}

theorem names_of_sound (sound : home.system.Sound) {fiberID : String} {fence : Fence}
    (got : home.system.ledger.fiber? fiberID = some fence) : fence.string = fiberID := by
  obtain ⟨ref, known, rfl⟩ := Option.map_eq_some_iff.mp got
  exact (sound.recorded fiberID ref known).1.symm

section Hidden

variable {known : Bool} {thread : Nat} {caller fiberID : String}

/-- The call has passed no check, or passed the first because the ledger has no such fiber. -/
def Unserved (known : Bool) (caller fiberID : String) (call : CallerCall) : Prop :=
  call.caller = caller ∧ call.fiberID = fiberID ∧
    match call.stage with
    | .ownsFiber => True
    | .owns uid => known = true ∧ Names fiberID uid
    | .core uid => known = false ∧ uid = none
    | .answered answer => answer = .notFound
    | _ => False

theorem Unserved.look (sound : home.system.Sound) (hides : home.hides caller fiberID known)
    {call : CallerCall} (unserved : Unserved known caller fiberID call) :
    Unserved known caller fiberID { call with stage := call.look home.system.ledger } := by
  obtain ⟨rfl, rfl, at_⟩ := unserved
  refine ⟨rfl, rfl, ?_⟩
  unfold CallerHome.hides at hides
  cases stage : call.stage with
  | ownsFiber =>
    cases got : home.system.ledger.fiber? call.fiberID with
    | none =>
      simp only [got] at hides
      cases file : call.verb.isFile <;> simp [CallerCall.look, stage, got, file, hides]
    | some fence =>
      simp only [got] at hides
      simpa [CallerCall.look, stage, got, hides.1] using ⟨fence, names_of_sound sound got, rfl⟩
  | owns uid =>
    simp only [stage] at at_
    obtain ⟨rfl, other, same, rfl⟩ := at_
    cases got : home.system.ledger.fiber? call.fiberID with
    | none => simp [got] at hides
    | some fence =>
      simp only [got] at hides
      -- both lookups found the one fence that the id spells
      rw [Fence.string_inj ((names_of_sound sound got).trans same.symm)] at hides
      simp [CallerCall.look, stage, hides.2]
  | core uid =>
    simp only [stage] at at_
    obtain ⟨rfl, rfl⟩ := at_
    cases got : home.system.ledger.fiber? call.fiberID with
    | none => simp [CallerCall.look, stage, got]
    | some fence => simp [got] at hides
  | answered answer => simpa [CallerCall.look, stage] using at_
  | grant uid | act uid => simp [stage] at at_

def Turned (known : Bool) (thread : Nat) (caller fiberID : String) (home : CallerHome) : Prop :=
  home.system.Sound ∧ ∃ call, home.calls.get thread = some call ∧
    Unserved known caller fiberID call

theorem Turned.put (turned : home.Turned known thread caller fiberID) {tid : Nat}
    (other : thread ≠ tid) (call : CallerCall) (touched : List FiberTouch) :
    Turned known thread caller fiberID ⟨home.system, home.calls.put tid call, touched⟩ := by
  obtain ⟨sound, mine, got, unserved⟩ := turned
  exact ⟨sound, mine, (get_put_other _ _ other).trans got, unserved⟩

theorem Turned.step {label : CallerStep} (turned : home.Turned known thread caller fiberID)
    (hides : label = .look thread → home.hides caller fiberID known)
    (took : home.step label = some next) : next.Turned known thread caller fiberID := by
  obtain ⟨sound, call, got, unserved⟩ := id turned
  have acts {tid : Nat} {mine : CallerCall} {uid : String}
      (there : home.calls.get tid = some mine) (stage : mine.stage = .act uid) : thread ≠ tid := by
    rintro rfl
    cases got.symm.trans there
    simpa only [Unserved, stage] using unserved.2.2
  cases label with
  | ledger op =>
    obtain ⟨system, done, rfl⟩ := Option.map_eq_some_iff.mp took
    exact ⟨sound.apply done, call, got, unserved⟩
  | call tid verb who named =>
    simp only [CallerHome.step] at took
    split at took <;> cases took
    rename_i free
    have other : thread ≠ tid := by
      rintro rfl
      simp [got] at free
    exact turned.put other _ _
  | look tid =>
    obtain ⟨mine, there, rfl⟩ := Option.map_eq_some_iff.mp took
    by_cases same : thread = tid
    · subst same
      cases got.symm.trans there
      exact ⟨sound, _, get_put_same .., unserved.look sound (hides rfl)⟩
    · exact turned.put same _ _
  | refuse tid =>
    obtain ⟨mine, there, took⟩ := Option.bind_eq_some_iff.mp took
    split at took <;> cases took
    rename_i uid stage
    exact turned.put (acts there stage) _ _
  | act tid more =>
    obtain ⟨mine, there, took⟩ := Option.bind_eq_some_iff.mp took
    split at took <;> cases took
    rename_i uid stage
    split
    · exact ⟨sound, call, got, unserved⟩
    · exact turned.put (acts there stage) _ _

end Hidden

variable (guarded : home.Guarded)
include guarded

theorem Guarded.look {call : CallerCall} (vouched : home.Vouched call) :
    home.Vouched { call with stage := call.look home.system.ledger } := by
  unfold CallerCall.look
  split <;> rename_i stage
  · split
    · rename_i fence got
      exact ⟨fence, names_of_sound guarded.sound got, rfl⟩
    · rename_i unknown
      split
      · trivial
      · intro fence got
        rw [unknown] at got
        cases got
  · rename_i uid
    have names : Names call.fiberID uid := by simpa only [Vouched, stage] using vouched
    split
    · rename_i passed
      have theirs : home.Theirs call.caller uid := by
        intro bound got
        simp only [CallerHome.bound] at got
        simp only [Ledger.grantBoundTo] at passed
        grind
      split <;> exact ⟨names, theirs⟩
    · trivial
  · rename_i uid
    have facts : Names call.fiberID uid ∧ home.Theirs call.caller uid := by
      simpa only [Vouched, stage] using vouched
    split
    · trivial
    · split
      · trivial
      · exact facts
  · rename_i passed
    split
    · trivial
    · rename_i fence got
      refine ⟨⟨fence, names_of_sound guarded.sound got, rfl⟩, ?_⟩
      cases passed with
      | none =>
        simp only [Vouched, stage] at vouched
        exact vouched fence got
      | some uid =>
        obtain ⟨⟨other, same, rfl⟩, theirs⟩ := by simpa only [Vouched, stage] using vouched
        rwa [Fence.string_inj ((names_of_sound guarded.sound got).trans same.symm)]
  · exact vouched

theorem Guarded.bound_apply {op : LedgerOp} {system : LedgerSystem}
    (took : home.system.apply op = some system) {uid bound : String}
    (got : { home with system := system }.bound uid = some bound) :
    home.bound uid = some bound ∨
      ∃ grant, op = .admitGrant grant ∧ grant.uid = uid ∧ grant.callerThumbprint = bound := by
  simp only [CallerHome.bound] at got ⊢
  rcases guarded.sound.grant?_apply took uid with same | ⟨grant, rfl, rfl⟩ | rfl
  · exact .inl (same ▸ got)
  · refine .inr ⟨grant, rfl, rfl, ?_⟩
    cases took
    simpa [LedgerSystem.withLedger, Ledger.grant?_admitGrant] using got
  · cases took
    simp [LedgerSystem.withLedger, Ledger.grant?_revokeGrant] at got

theorem Guarded.apply {op : LedgerOp} {system : LedgerSystem}
    (keeps : home.keepsCallers (.ledger op) = true) (took : home.system.apply op = some system) :
    Guarded { home with system := system } := by
  have sound := guarded.sound.apply took
  refine ⟨sound, fun tid call got => ?_, guarded.own⟩
  have row := (mem_rows_iff _ _ _).mpr got
  have vouched := guarded.calls tid call got
  have stays {uid : String} (theirs : home.Theirs call.caller uid)
      (same : ∀ grant, op = .admitGrant grant → uid = grant.uid →
        grant.callerThumbprint = call.caller) :
      Theirs { home with system := system } call.caller uid := by
    intro bound there
    rcases guarded.bound_apply took there with before | ⟨grant, admits, named, rfl⟩
    · exact theirs bound before
    · exact same grant admits named.symm
  have admits {uid : String} (mine : ∀ grant, op = .admitGrant grant →
      decide (uid ≠ grant.uid ∨ grant.callerThumbprint = call.caller) = true) (grant : Grant)
      (admits : op = .admitGrant grant) (same : uid = grant.uid) :
      grant.callerThumbprint = call.caller := by
    simpa [same] using mine grant admits
  have passed {uid : String} (facts : Names call.fiberID uid ∧ home.Theirs call.caller uid)
      (mine : ∀ grant, op = .admitGrant grant →
        decide (uid ≠ grant.uid ∨ grant.callerThumbprint = call.caller) = true) :
      Names call.fiberID uid ∧ Theirs { home with system := system } call.caller uid :=
    ⟨facts.1, stays facts.2 (admits mine)⟩
  unfold Vouched at vouched ⊢
  split <;> rename_i stage <;> simp only [stage] at vouched
  · exact vouched
  · refine passed vouched ?_
    rintro grant rfl
    have kept := List.all_eq_true.mp keeps _ row
    simpa only [stage] using kept
  · refine passed vouched ?_
    rintro grant rfl
    have kept := List.all_eq_true.mp keeps _ row
    simpa only [stage] using kept
  · refine passed vouched ?_
    rintro grant rfl
    have kept := List.all_eq_true.mp keeps _ row
    simpa only [stage] using kept
  · intro fence there
    obtain ⟨ref, known, rfl⟩ := Option.map_eq_some_iff.mp there
    obtain ⟨named, _⟩ := sound.recorded _ ref known
    cases before : home.system.ledger.fiber? call.fiberID with
    | some old =>
      have same := Fence.string_inj ((names_of_sound guarded.sound before).trans named)
      refine stays (same ▸ vouched old before) (admits ?_)
      rintro grant rfl
      have kept := List.all_eq_true.mp keeps _ row
      simpa only [stage, before, same, Option.all_some] using kept
    | none =>
      have unknown : home.system.ledger.fibers.get call.fiberID = none := by
        simpa [Ledger.fiber?] using before
      obtain ⟨old, stood, _⟩ | ⟨clone, endpoint, pooled, rfl⟩ :=
        LedgerSystem.fibers_apply took known
      · simp [unknown] at stood
      · cases LedgerSystem.apply_effect took with
        | refused => simp [unknown] at known
        | gone ends _ => simp at ends
        | @committed _ res _ _ opened act _ _ _ =>
          have fresh : call.fiberID = res.fence.string := by
            by_contra other
            simp only [LedgerSystem.committed, get_put_other _ _ other] at known
            simp [unknown] at known
          have same := Fence.string_inj (named.symm.trans fresh)
          simp only [keepsCallers, opened, Option.all_some] at keeps
          have kept := List.all_eq_true.mp keeps _ row
          simp only [stage, fresh, ne_eq, not_true_eq_false, false_or, decide_eq_true_eq] at kept
          rw [same, (guarded.sound.minted clone res opened act).1]
          refine stays (fun bound there => Option.some.inj (there.symm.trans kept)) ?_
          simp
  · trivial

theorem Guarded.put {tid : Nat} {call : CallerCall} (vouched : home.Vouched call) :
    Guarded { home with calls := home.calls.put tid call } := by
  refine ⟨guarded.sound, fun other later got => ?_, guarded.own⟩
  obtain ⟨_, rfl⟩ | ⟨_, got⟩ := get_put_eq_some got
  · exact vouched
  · exact guarded.calls other later got

theorem Guarded.step {label : CallerStep} (keeps : home.keepsCallers label = true)
    (took : home.step label = some next) : next.Guarded := by
  cases label with
  | ledger op =>
    obtain ⟨system, done, rfl⟩ := Option.map_eq_some_iff.mp took
    exact guarded.apply keeps done
  | call tid verb caller fiberID =>
    simp only [CallerHome.step] at took
    split at took <;> cases took
    exact guarded.put trivial
  | look tid =>
    obtain ⟨call, got, rfl⟩ := Option.map_eq_some_iff.mp took
    exact guarded.put (guarded.look (guarded.calls tid call got))
  | refuse tid =>
    obtain ⟨call, got, took⟩ := Option.bind_eq_some_iff.mp took
    split at took <;> cases took
    exact guarded.put trivial
  | act tid more =>
    obtain ⟨call, got, took⟩ := Option.bind_eq_some_iff.mp took
    split at took <;> cases took
    rename_i uid stage
    have vouched := guarded.calls tid call got
    simp only [Vouched, stage] at vouched
    have acted : Guarded { home with
        touched := ⟨call.caller, home.bound uid⟩ :: home.touched } := by
      refine ⟨guarded.sound, guarded.calls, fun touch mem => ?_⟩
      rcases List.mem_cons.mp mem with rfl | earlier
      · exact vouched.2
      · exact guarded.own touch earlier
    split
    · exact acted
    · exact acted.put trivial

end CallerHome

theorem callers_isolated {first final : CallerHome} {labels : List CallerStep}
    (started : callerMachine.start first)
    (meets : callerMachine.Meets (fun home label => home.keepsCallers label = true) first labels)
    (run : callerMachine.exec first labels = some final) : final.Isolated := by
  obtain ⟨epoch, rfl⟩ := started
  have guarded : final.Guarded := by
    refine exec_keeps_of_meets (fun _ _ _ guarded keeps taken => guarded.step keeps taken) ?_
      meets run
    exact ⟨LedgerSystem.sound_new epoch, by simp, by simp⟩
  refine ⟨guarded.own, fun known thread verb caller fiberID labels later call answer hides made
    got answered => ?_⟩
  obtain ⟨next, began, rest⟩ := exec_cons_eq_some.mp made
  have starts : next.Turned known thread caller fiberID := by
    simp only [callerMachine, CallerHome.step] at began
    split at began <;> cases began
    exact ⟨guarded.sound, _, get_put_same .., rfl, rfl, trivial⟩
  obtain ⟨_, mine, there, unserved⟩ := exec_keeps_of_meets
    (fun home label next (turned : home.Turned known thread caller fiberID) hides taken =>
      turned.step hides taken) starts (hides.2 next began) rest
  cases got.symm.trans there
  simpa only [CallerHome.Unserved, answered] using unserved.2.2

/-- A Clone of a grant bound to "a" is about to commit its fiber. -/
def boundClone : List CallerStep :=
  [.ledger (.admitGrant { uid := "g", callerThumbprint := "a" }),
    .ledger (.resolve 0 "g" "" .snapshot 0)]

/-- Caller "b" asks for the fiber while "a" releases it, and the grant is admitted again. -/
def releasedOwn : List CallerStep :=
  boundClone ++ [.ledger (.commit 0 "" false false), .call 1 .release "a" "g/1/1", .look 1,
    .call 2 .download "b" "g/1/1", .look 2, .look 1,
    .ledger (.admitGrant { uid := "g", callerThumbprint := "a", diskBudgetBytes := 1 }), .look 2,
    .look 1, .act 1 false]

def releasedOther : List CallerStep :=
  boundClone ++ [.call 1 .release "b" "g/1/1", .look 1, .ledger (.commit 0 "" false false),
    .look 1, .act 1 false]

theorem own_release_isolated : ∃ final,
    callerMachine.exec { system := newSystem 1 } releasedOwn = some final ∧
      (final.touched = [⟨"a", some "a"⟩] ∧
        final.calls.get 2 = some ⟨.download, "b", "g/1/1", .answered .notFound⟩) ∧
      final.Isolated := by
  obtain ⟨final, run, facts⟩ : ∃ final, callerMachine.exec { system := newSystem 1 }
    releasedOwn = some final ∧ final.touched = [⟨"a", some "a"⟩] ∧
      final.calls.get 2 = some ⟨.download, "b", "g/1/1", .answered .notFound⟩ := by
    decide +kernel
  exact ⟨final, run, facts, callers_isolated ⟨1, rfl⟩ (by decide +kernel) run⟩

theorem commit_opens_release : ∃ final, callerMachine.start { system := newSystem 1 } ∧
    callerMachine.exec { system := newSystem 1 } releasedOther = some final ∧
      ¬final.Isolated := by
  obtain ⟨final, run, touched⟩ : ∃ final, callerMachine.exec { system := newSystem 1 }
    releasedOther = some final ∧ final.touched = [⟨"b", some "a"⟩] := by decide +kernel
  refine ⟨final, ⟨1, rfl⟩, run, fun isolated => ?_⟩
  have own := isolated.own ⟨"b", some "a"⟩ (by simp [touched]) "a" rfl
  simp at own

end Fiberd
