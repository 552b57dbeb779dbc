import Fiberd.Grant
import Fiberd.Lib.Programs

/-!
The key cache of `pkg/grant/jwks.go` and the verifier of `pkg/grant/verifier.go`.
Every action is one hold of the cache's mutex, one reading of the clock or one
answer of the issuer, and time may pass before it.  A token is trusted under a
key that a fresh set holds, unless a refresh of an old set drops the key after
the verifier has looked it up and before it reads how old the set is.
-/

namespace Fiberd

open Tables Programs Machines

structure KeyConfig where
  minRefresh : Time := 0
  maxStale : Time := 0
  deriving DecidableEq, Repr

def minute : Time := 60000000000

def KeyConfig.minRefreshOr (config : KeyConfig) : Time :=
  if 0 < config.minRefresh then config.minRefresh else minute

def KeyConfig.maxStaleOr (config : KeyConfig) : Time :=
  if 0 < config.maxStale then config.maxStale else 60 * minute

structure JSONWebKey (Key : Type) where
  keyID : String
  isPublic : Bool := true
  valid : Bool := true
  key : Key

/-- What the verifier reads of a token and checks of it under a key. -/
structure TokenKit (Token Key : Type) where
  parse : Token → Option String
  algorithm : Token → Key → Bool
  signed : Token → Key → Bool
  claims : Token → Option Grant

inductive VerifyError where
  | parse
  | noKID
  | neverLoaded (unavailable : Bool)
  | unknownKey
  | stale
  | keyMismatchAlg
  | signature
  | claims
  deriving DecidableEq, Repr

section Model

variable {Token Key : Type} (config : KeyConfig) (kit : TokenKit Token Key)

def TokenKit.verifyParsed (token : Token) (key : Key) : Except VerifyError Grant :=
  if !kit.algorithm token key then .error .keyMismatchAlg
  else if !kit.signed token key then .error .signature
  else
    match kit.claims token with
    | none => .error .claims
    | some grant => .ok grant

def usableKeys (set : List (JSONWebKey Key)) : Table String Key :=
  set.foldl (fun keys served =>
    if served.keyID = "" || !served.isPublic || !served.valid then keys
    else keys.put served.keyID served.key) ∅

/-- The cache and its clock.  `looked` has the key of each Verify that has yet to read the
age of the set; no action reads it. -/
structure KeyCache (Key : Type) where
  keys : Table String Key := ∅
  jwksURI : String := ""
  lastRefresh : Time := 0
  lastAttempt : Time := 0
  refreshing : Option Nat := none
  clock : Time := 0
  looked : Table Nat (String × Key) := ∅

inductive KeyAct (Key : Type) where
  | lookup (kid : String) (aged : Bool)
  | lookupLoaded (kid : String) (aged : Bool)
  | lockRefreshing
  | unlockRefreshing
  | due
  | attempt
  | discover
  | fetch (uri : String)
  | now
  | install (keys : Table String Key) (uri : String) (fetched : Time)
  | lastRefresh

abbrev KeyAct.Result : KeyAct Key → Type
  | .lookup _ _ => Option Key
  | .lookupLoaded _ _ => Option Key × Bool
  | .due => Bool
  | .attempt => String
  | .discover => Option String
  | .fetch _ => Option (List (JSONWebKey Key))
  | .now | .lastRefresh => Time
  | .lockRefreshing | .unlockRefreshing | .install _ _ _ => Unit

structure KeyTick (Key : Type) where
  elapsed : Time := 0
  uri : Option String := none
  set : Option (List (JSONWebKey Key)) := none

namespace KeyCache

def look (cache : KeyCache Key) (thread : Nat) (kid : String) (aged : Bool) : KeyCache Key :=
  match aged, cache.keys.get kid with
  | false, some key => { cache with looked := cache.looked.put thread (kid, key) }
  | _, _ => cache

def perform (cache : KeyCache Key) (thread : Nat) (action : KeyAct Key) (tick : KeyTick Key) :
    Option (action.Result × KeyCache Key) :=
  let cache := { cache with clock := cache.clock + tick.elapsed }
  match action with
  | .lookup kid aged => some (cache.keys.get kid, cache.look thread kid aged)
  | .lookupLoaded kid aged =>
    some ((cache.keys.get kid, decide (cache.lastRefresh ≠ 0)), cache.look thread kid aged)
  | .lockRefreshing =>
    match cache.refreshing with
    | some _ => none
    | none => some ((), { cache with refreshing := some thread })
  | .unlockRefreshing => some ((), { cache with refreshing := none })
  | .due => some (decide (config.minRefreshOr ≤ cache.clock - cache.lastAttempt), cache)
  | .attempt => some (cache.jwksURI, { cache with lastAttempt := cache.clock })
  | .discover => some (tick.uri, cache)
  | .fetch _ => some (tick.set, cache)
  | .now => some (cache.clock, cache)
  | .install keys uri fetched =>
    some ((), { cache with keys := keys, jwksURI := uri, lastRefresh := fetched })
  | .lastRefresh =>
    some (cache.lastRefresh, { cache with looked := cache.looked.drop thread })

def staleAt (cache : KeyCache Key) (time : Time) : Bool :=
  decide (cache.lastRefresh + config.maxStaleOr < time)

end KeyCache

abbrev KeyProg (Key : Type) := Prog (KeyAct Key) KeyAct.Result

namespace KeyProg

def act (action : KeyAct Key) : KeyProg Key action.Result := Prog.act action

def refresh : KeyProg Key Bool := do
  let known ← act .attempt
  let found ← if known = "" then act .discover else pure (some known)
  match found with
  | none => pure false
  | some uri =>
    match ← act (.fetch uri) with
    | none => pure false
    | some set =>
      if (usableKeys set).entries.isEmpty then pure false
      else
        let fetched ← act .now
        act (.install (usableKeys set) uri fetched)
        pure true

def refreshIfDue : KeyProg Key (Option Bool) := do
  act .lockRefreshing
  if ← act .due then
    let done ← refresh
    act .unlockRefreshing
    pure (some done)
  else
    act .unlockRefreshing
    pure none

def lockedRefresh : KeyProg Key Bool := do
  act .lockRefreshing
  let done ← refresh
  act .unlockRefreshing
  pure done

/-- `Cache.Key`; `aged` says whether the caller has read the age of the set. -/
def key (kid : String) (aged : Bool) : KeyProg Key (Except VerifyError Key) := do
  match ← act (.lookup kid aged) with
  | some key => pure (.ok key)
  | none =>
    let _ ← refreshIfDue
    match ← act (.lookupLoaded kid aged) with
    | (some key, _) => pure (.ok key)
    | (none, true) => pure (.error .unknownKey)
    | (none, false) => pure (.error (.neverLoaded false))

inductive Answer (Key : Type) where
  | accepted (key : Key) (grant : Grant)
  | refused (error : VerifyError)
  | refreshed (done : Option Bool)

def checked (token : Token) (key : Key) : KeyProg Key (Answer Key) :=
  match kit.verifyParsed token key with
  | .error error => pure (.refused error)
  | .ok grant => pure (.accepted key grant)

/-- The rest of `Verify` once the first reading of the age found the set stale. -/
def verifyStale (token : Token) (kid : String) : KeyProg Key (Answer Key) := do
  let _ ← refreshIfDue
  let now ← act .now
  let last ← act .lastRefresh
  if last + config.maxStaleOr < now then pure (.refused .stale)
  else
    match ← key kid true with
    | .error error => pure (.refused error)
    | .ok again => checked kit token again

def verifyKID (token : Token) (kid : String) : KeyProg Key (Answer Key) := do
  match ← key kid false with
  | .error (.neverLoaded _) => pure (.refused (.neverLoaded true))
  | .error error => pure (.refused error)
  | .ok first =>
    let now ← act .now
    let last ← act .lastRefresh
    if last + config.maxStaleOr < now then verifyStale config kit token kid
    else checked kit token first

def verify (token : Token) : KeyProg Key (Answer Key) :=
  match kit.parse token with
  | none => pure (.refused .parse)
  | some kid =>
    if kid = "" then pure (.refused .noKID)
    else verifyKID config kit token kid

end KeyProg

inductive KeyCall (Token : Type) where
  | verify (token : Token)
  | refresh
  | refreshIfDue

def KeyCall.body : KeyCall Token → KeyProg Key (KeyProg.Answer Key)
  | .verify token => KeyProg.verify config kit token
  | .refresh => do
      let done ← KeyProg.lockedRefresh
      pure (.refreshed (some done))
  | .refreshIfDue => do
      let done ← KeyProg.refreshIfDue
      pure (.refreshed done)

def keyKernel : Kernel (KeyCache Key) (KeyAct Key) KeyAct.Result (KeyTick Key) (KeyCall Token)
    (KeyProg.Answer Key) where
  start cache := ∃ clock, cache = { clock := clock }
  perform := KeyCache.perform config
  body := KeyCall.body config kit

abbrev KeyThreads (Key : Type) :=
  Threads (KeyCache Key) (KeyAct Key) KeyAct.Result (KeyProg.Answer Key)

abbrev KeyEvent (Token Key : Type) := Event (KeyCall Token) (KeyTick Key)

end Model

section Trust

variable {Token Key : Type} [DecidableEq Key] {config : KeyConfig} {kit : TokenKit Token Key}

/-- The key is in the current set, and the set is not too old. -/
def KeyCache.trusts (config : KeyConfig) (cache : KeyCache Key) (kid : String) (key : Key) : Bool :=
  decide (cache.keys.get kid = some key) && !cache.staleAt config cache.clock

/-- A refresh puts its set in place before the set is too old, and where it replaces one that is
too old the new set has the keys that were looked up and whose set's age is yet to be read. -/
def installsTrusted (config : KeyConfig) (cache : KeyCache Key) (_ : Nat) (action : KeyAct Key)
    (tick : KeyTick Key) : Bool :=
  match action with
  | .install keys _ fetched =>
    decide (cache.clock + tick.elapsed ≤ fetched + config.maxStaleOr) &&
      (!cache.staleAt config (cache.clock + tick.elapsed) ||
        cache.looked.rows.all fun row => decide (keys.get row.2.1 = some row.2.2))
  | _ => true

/-- An action that leaves the set as it is, or one that puts a new set in its place. -/
inductive KeyCache.SetMove (cache next : KeyCache Key) (tick : KeyTick Key) : KeyAct Key → Prop
  | same {action : KeyAct Key} (keys : next.keys = cache.keys)
      (last : next.lastRefresh = cache.lastRefresh) (later : cache.clock ≤ next.clock) :
      SetMove cache next tick action
  | installed {keys : Table String Key} {uri : String} {fetched : Time} (now : next.keys = keys)
      (last : next.lastRefresh = fetched) (clock : next.clock = cache.clock + tick.elapsed) :
      SetMove cache next tick (.install keys uri fetched)

omit [DecidableEq Key] in
theorem KeyCache.look_set (cache : KeyCache Key) (tid : Nat) (kid : String) (aged : Bool) :
    (cache.look tid kid aged).keys = cache.keys ∧
      (cache.look tid kid aged).lastRefresh = cache.lastRefresh ∧
      (cache.look tid kid aged).clock = cache.clock := by
  unfold look
  split <;> exact ⟨rfl, rfl, rfl⟩

variable {tid other : Nat}

variable {cache next : KeyCache Key}

omit [DecidableEq Key] in
theorem KeyCache.perform_set {action : KeyAct Key} {tick : KeyTick Key} {out : action.Result}
    (ran : cache.perform config tid action tick = some (out, next)) :
    cache.SetMove next tick action := by
  cases action with
  | lookup kid aged | lookupLoaded kid aged =>
    cases ran
    obtain ⟨keys, last, clock⟩ := look_set { cache with clock := cache.clock + tick.elapsed }
      tid kid aged
    exact .same keys last (by rw [clock]; exact Nat.le_add_right _ _)
  | lockRefreshing =>
    simp only [perform] at ran
    split at ran <;> cases ran
    exact .same rfl rfl (Nat.le_add_right _ _)
  | install keys uri fetched =>
    cases ran
    exact .installed rfl rfl rfl
  | unlockRefreshing | due | attempt | discover | fetch uri | now | lastRefresh =>
    cases ran
    exact .same rfl rfl (Nat.le_add_right _ _)

omit [DecidableEq Key] in
theorem KeyCache.perform_looked {action : KeyAct Key} {tick : KeyTick Key} {out : action.Result}
    (ran : cache.perform config tid action tick = some (out, next))
    (apart : other ≠ tid) : next.looked.get other = cache.looked.get other := by
  cases action with
  | lookup kid aged | lookupLoaded kid aged =>
    cases ran
    unfold look
    split
    · exact get_put_other _ _ apart
    · rfl
  | lockRefreshing =>
    simp only [perform] at ran
    split at ran <;> cases ran
    rfl
  | lastRefresh =>
    cases ran
    exact get_drop_other _ apart
  | install keys uri fetched | unlockRefreshing | due | attempt | discover | fetch uri | now =>
    cases ran
    rfl

/-- The moves of a run in which the key is at no moment one of a fresh set. -/
def distrustRely (config : KeyConfig) (kid : String) (key : Key) :
    Nat → KeyCache Key → KeyAct Key → KeyTick Key → KeyCache Key → Prop :=
  fun mover cache action tick next =>
    (∃ result, cache.perform config mover action tick = some (result, next)) ∧
      installsTrusted config cache mover action tick = true ∧
      next.trusts config kid key = false

section Outline

variable {tid : Nat} {kid : String} {key : Key}

theorem distrust_installed {mover : Nat} {cache next : KeyCache Key} {tick : KeyTick Key}
    {keys : Table String Key} {uri : String} {fetched : Time}
    (moved : distrustRely config kid key mover cache (.install keys uri fetched) tick next)
    (last : next.lastRefresh = fetched) (clock : next.clock = cache.clock + tick.elapsed) :
    next.keys.get kid ≠ some key := by
  obtain ⟨_, installs, distrusts⟩ := moved
  intro got
  simp only [installsTrusted, Bool.and_eq_true, decide_eq_true_eq] at installs
  have fresh : next.staleAt config next.clock = false := by
    simp only [KeyCache.staleAt, decide_eq_false_iff_not, last, clock]
    exact Nat.not_lt.mpr installs.1
  simp [KeyCache.trusts, got, fresh] at distrusts

theorem lacking_kept : KeptBy (distrustRely config kid key) fun cache =>
    cache.keys.get kid ≠ some key := by
  intro mover cache action tick next moved lacks
  obtain ⟨out, ran⟩ := moved.1
  cases KeyCache.perform_set ran with
  | same keys last later => rwa [keys]
  | installed now last clock => exact distrust_installed moved last clock

theorem lacking_or_stale_kept (time : Time) : KeptBy (distrustRely config kid key) fun cache =>
    cache.keys.get kid ≠ some key ∨ cache.staleAt config time = true := by
  intro mover cache action tick next moved has
  obtain ⟨out, ran⟩ := moved.1
  cases KeyCache.perform_set ran with
  | same keys last later =>
    simp only [KeyCache.staleAt, keys, last] at has ⊢
    exact has
  | installed now last clock => exact .inl (distrust_installed moved last clock)

def LookedStale (config : KeyConfig) (thread : Nat) (kid : String) (key : Key) (time : Time)
    (cache : KeyCache Key) : Prop :=
  cache.looked.get thread = some (kid, key) ∧ cache.staleAt config time = true ∧
    time ≤ cache.clock

theorem lookedStale_stable (time : Time) :
    Stable (distrustRely config kid key) tid (LookedStale config tid kid key time) := by
  rintro mover cache action tick next other moved ⟨looked, stale, past⟩
  obtain ⟨out, ran⟩ := moved.1
  have still := KeyCache.perform_looked ran (Ne.symm other)
  cases KeyCache.perform_set ran with
  | same keys last later =>
    refine ⟨still.trans looked, ?_, past.trans later⟩
    simpa only [KeyCache.staleAt, last] using stale
  | installed now last clock =>
    rename_i keys uri fetched
    have installs := moved.2.1
    simp only [installsTrusted, Bool.and_eq_true, Bool.or_eq_true, Bool.not_eq_true'] at installs
    have old : cache.staleAt config (cache.clock + tick.elapsed) = true := by
      simp only [KeyCache.staleAt, decide_eq_true_eq] at stale ⊢
      exact stale.trans_le (past.trans (Nat.le_add_right _ _))
    rcases installs.2 with fresh | carried
    · simp [old] at fresh
    · have got := List.all_eq_true.mp carried _ ((mem_rows_iff _ _ _).mpr looked)
      simp only [decide_eq_true_eq] at got
      exact (distrust_installed moved last clock (by rw [now]; exact got)).elim

/-- The call does not accept the token under the key. -/
def NotTrusted (key : Key) (answer : KeyProg.Answer Key) : Prop :=
  ∀ grant, answer ≠ .accepted key grant

theorem lookedStale_of_look {cache : KeyCache Key} (got : cache.keys.get kid = some key)
    (distrusts : (cache.look tid kid false).trusts config kid key = false) :
    LookedStale config tid kid key cache.clock (cache.look tid kid false) := by
  obtain ⟨keys, last, clock⟩ := cache.look_set tid kid false
  refine ⟨by simp [KeyCache.look, got], ?_, by rw [clock]⟩
  simpa [KeyCache.trusts, keys, got, clock] using distrusts

theorem always_distrust (fact : Prop) : KeptBy (distrustRely config kid key) fun _ => fact :=
  fun _ _ _ _ _ _ has => has

theorem key_outline :
    Outline (keyKernel config kit) (distrustRely config kid key) tid (KeyProg.key kid false)
      (fun _ => True) fun got cache =>
        got = .ok key → ∃ time, LookedStale config tid kid key time cache := by
  have stable : ∀ fact : Prop, Stable (distrustRely config kid key) tid fun cache =>
      fact → ∃ time, LookedStale config tid kid key time cache := by
    intro fact mover cache action tick next other moved has true
    obtain ⟨time, looked⟩ := has true
    exact ⟨time, lookedStale_stable time mover cache action tick next other moved looked⟩
  refine outline_act (fun got cache => got = some key →
    ∃ time, LookedStale config tid kid key time cache) (fun _ => stable _) ?_ ?_
  · rintro cache tick got next _ ran ⟨_, _, distrusts⟩ rfl
    obtain ⟨got, rfl⟩ := outcome_eq ran
    exact ⟨_, lookedStale_of_look got distrusts⟩
  · intro first
    cases first with
    | some other =>
      intro cache has same
      exact has (by simpa using same)
    | none =>
      refine (outline_past (always_distrust True) _ fun _ => ?_).weaken fun _ _ => trivial
      refine outline_act (fun got cache => got.1 = some key →
        ∃ time, LookedStale config tid kid key time cache) (fun _ => stable _) ?_ ?_
      · rintro cache tick ⟨got, loaded⟩ next _ ran ⟨_, _, distrusts⟩ same
        simp only [keyKernel, KeyCache.perform, Option.some.injEq, Prod.mk.injEq] at ran
        obtain ⟨⟨got, _⟩, rfl⟩ := ran
        exact ⟨_, lookedStale_of_look (got.trans same) distrusts⟩
      · rintro ⟨got, loaded⟩
        cases got with
        | some other =>
          intro cache has same
          exact has (by simpa using same)
        | none => cases loaded <;> exact fun _ _ => by simp

theorem keyAgain_outline :
    Outline (keyKernel config kit) (distrustRely config kid key) tid (KeyProg.key kid true)
      (fun cache => cache.keys.get kid ≠ some key) fun got _ => got ≠ .ok key := by
  refine outline_act (fun got cache => cache.keys.get kid ≠ some key ∧ got ≠ some key) ?_ ?_ ?_
  · rintro got mover cache action tick next _ moved ⟨lacks, other⟩
    exact ⟨lacking_kept mover cache action tick next moved lacks, other⟩
  · intro cache tick got next lacks ran moved
    refine ⟨lacking_kept tid cache _ tick next moved lacks, ?_⟩
    replace ran := outcome_eq ran
    rw [← ran.1]
    exact lacks
  · intro first
    cases first with
    | some other => exact fun cache has => by simpa using has.2
    | none =>
      refine (outline_past lacking_kept _ fun _ => ?_).weaken fun _ has => has.1
      refine outline_act (fun got _ => got.1 ≠ some key)
        (fun _ => (always_distrust _).stable) ?_ ?_
      · intro cache tick got next lacks ran moved
        replace ran := outcome_eq ran
        rw [← ran.1]
        exact lacks
      · rintro ⟨got, loaded⟩
        cases got with
        | some other => exact fun cache has => by simpa using has
        | none => cases loaded <;> exact fun _ _ => by simp

variable {token : Token}

theorem checked_outline {other : Key} :
    Outline (keyKernel config kit) (distrustRely config kid key) tid
      (KeyProg.checked kit token other) (fun _ => other ≠ key)
      fun answer _ => NotTrusted key answer := by
  unfold KeyProg.checked
  split
  · exact fun _ _ _ => by simp
  · intro cache apart grant same
    simp only [KeyProg.Answer.accepted.injEq] at same
    exact apart same.1

theorem verifyStale_outline : Outline (keyKernel config kit) (distrustRely config kid key) tid
      (KeyProg.verifyStale config kit token kid) (fun _ => True)
      fun answer _ => NotTrusted key answer := by
  refine outline_past (always_distrust True) _ fun _ => ?_
  refine outline_act (fun time cache => cache.keys.get kid ≠ some key ∨
    cache.staleAt config time = true) (fun time => (lacking_or_stale_kept time).stable) ?_ ?_
  · rintro cache tick time next _ ran ⟨_, _, distrusts⟩
    cases ran
    simpa [KeyCache.trusts, or_iff_not_imp_left] using distrusts
  · intro time
    refine outline_act (fun last cache => ¬last + config.maxStaleOr < time →
      cache.keys.get kid ≠ some key) ?_ ?_ ?_
    · rintro last mover cache action tick next _ moved has fresh
      exact lacking_kept mover cache action tick next moved (has fresh)
    · rintro cache tick last next has ran moved fresh
      cases ran
      simpa [KeyCache.staleAt, fresh] using has
    · intro last
      by_cases stale : last + config.maxStaleOr < time
      · simp only [stale, if_true]
        exact fun _ _ _ => by simp
      · simp only [stale, if_false, not_false_eq_true, true_implies]
        refine keyAgain_outline.bind fun got => ?_
        cases got with
        | error error => exact fun _ _ _ => by simp
        | ok other => exact checked_outline.weaken fun _ apart same => apart (by rw [same])

theorem verifyKID_outline : Outline (keyKernel config kit) (distrustRely config kid key) tid
      (KeyProg.verifyKID config kit token kid) (fun _ => True)
      fun answer _ => NotTrusted key answer := by
  refine key_outline.bind fun got => ?_
  cases got with
  | error error => cases error <;> exact fun _ _ _ => by simp
  | ok first =>
    refine outline_act (fun time cache => first = key →
      LookedStale config tid kid key time cache) ?_ ?_ ?_
    · intro time mover cache action tick next other moved has same
      exact lookedStale_stable time mover cache action tick next other moved (has same)
    · rintro cache tick time next has ran _ rfl
      cases ran
      obtain ⟨early, looked, stale, past⟩ := has rfl
      refine ⟨looked, ?_, le_refl _⟩
      simp only [KeyCache.staleAt, decide_eq_true_eq] at stale ⊢
      exact stale.trans_le (past.trans (Nat.le_add_right _ _))
    · intro time
      refine outline_act (fun last _ => first = key → last + config.maxStaleOr < time)
        (fun _ => (always_distrust _).stable) ?_ ?_
      · rintro cache tick last next has ran _ same
        cases ran
        simpa [KeyCache.staleAt] using (has same).2.1
      · intro last
        by_cases stale : last + config.maxStaleOr < time
        · simp only [stale, if_true]
          exact verifyStale_outline.weaken fun _ _ => trivial
        · simp only [stale, if_false, imp_false]
          exact checked_outline

end Outline

/-- What is accepted under a key is signed by it. -/
def SignedBy (kit : TokenKit Token Key) (token : Token) (answer : KeyProg.Answer Key) : Prop :=
  ∀ key grant, answer = .accepted key grant → kit.signed token key = true

omit [DecidableEq Key] in
theorem checked_results (token : Token) (key : Key) :
    (KeyProg.checked kit token key).Results (SignedBy kit token) := by
  unfold KeyProg.checked TokenKit.verifyParsed
  by_cases matching : kit.algorithm token key = true
  · by_cases signed : kit.signed token key = true
    · cases kit.claims token with
      | none | some grant => simp [matching, signed, Prog.Results, SignedBy]
    · simp [matching, signed, Prog.Results, SignedBy]
  · simp [matching, Prog.Results, SignedBy]

omit [DecidableEq Key] in
theorem verifyStale_results (token : Token) (kid : String) :
    (KeyProg.verifyStale config kit token kid).Results (SignedBy kit token) := by
  refine Prog.results_bind _ fun _ => ?_
  refine Prog.results_bind _ fun now => Prog.results_bind _ fun last => ?_
  split
  · simp [Prog.Results, SignedBy]
  · refine Prog.results_bind _ fun got => ?_
    cases got with
    | error error => simp [Prog.Results, SignedBy]
    | ok key => exact checked_results token key

omit [DecidableEq Key] in
theorem verify_results (token : Token) :
    (KeyProg.verify config kit token).Results (SignedBy kit token) := by
  unfold KeyProg.verify
  split
  · simp [Prog.Results, SignedBy]
  · split
    · simp [Prog.Results, SignedBy]
    · refine Prog.results_bind _ fun got => ?_
      cases got with
      | error error => cases error <;> simp [Prog.Results, SignedBy]
      | ok key =>
        refine Prog.results_bind _ fun now => Prog.results_bind _ fun last => ?_
        split
        · exact verifyStale_results token _
        · exact checked_results token key

/-- The token is signed by the key, which at a moment of the run a set held that was not too
old. -/
def TrustedUnder (config : KeyConfig) (kit : TokenKit Token Key) (first : KeyThreads Key)
    (events : List (KeyEvent Token Key)) (token : Token) (key : Key) : Prop :=
  kit.signed token key = true ∧ ∃ kid front back threads, events = front ++ back ∧
    (keyKernel config kit).machine.exec first front = some threads ∧
    threads.shared.trusts config kid key = true

theorem accepted_under_fresh_key {before next final : KeyThreads Key}
    {events : List (KeyEvent Token Key)} {thread : Nat} {token : Token} {key : Key} {grant : Grant}
    (starts : (keyKernel config kit).machine.step before (.start thread (.verify token)) =
      some next)
    (installs : (keyKernel config kit).machine.Meets (Kernel.Allows (installsTrusted config))
      next events)
    (run : (keyKernel config kit).machine.exec next events = some final)
    (accepted : final.programs.get thread = some (.done (.accepted key grant))) :
    TrustedUnder config kit next events token key := by
  have signed : Outlined (keyKernel config kit) (fun _ _ _ _ _ => True) thread
      (fun answer _ => SignedBy kit token answer) next :=
    outlined_start starts (outline_of_results (verify_results token))
  have free : (keyKernel config kit).machine.Meets
      (Relies (keyKernel config kit) fun _ _ _ _ _ => True) next events := by
    refine meets_of_forall ?_ next events
    intro threads event
    cases event <;> simp [Relies]
  refine ⟨(signed.run free run).post accepted key grant rfl, ?_⟩
  by_contra never
  cases parsed : kit.parse token with
  | none =>
    have refused : (KeyProg.verify config kit token).Results (NotTrusted key) := by
      simp [KeyProg.verify, parsed, Prog.Results, NotTrusted]
    have outlined : Outlined (keyKernel config kit) (fun _ _ _ _ _ => True) thread
        (fun answer _ => NotTrusted key answer) next :=
      outlined_start starts (outline_of_results refused)
    exact (outlined.run free run).post accepted grant rfl
  | some kid =>
    have relies : (keyKernel config kit).machine.Meets
        (Relies (keyKernel config kit) (distrustRely config kid key)) next events := by
      refine meets_of_splits ?_
      intro front event back early split ran
      subst events
      have allows := (installs.back ran).1
      cases event with
      | start other call => trivial
      | act mover tick =>
        intro action rest result shared running performed
        simp only [Kernel.Allows, running] at allows
        refine ⟨⟨result, performed⟩, allows, ?_⟩
        by_contra trusts
        refine never ⟨kid, front ++ [.act mover tick], back, _, by simp,
          exec_snoc ran (Kernel.step_of_perform running performed), ?_⟩
        simpa using trusts
    have outlined : Outlined (keyKernel config kit) (distrustRely config kid key) thread
        (fun answer _ => NotTrusted key answer) next := by
      refine outlined_start starts ?_
      change Outline _ _ _ (KeyProg.verify config kit token) _ _
      simp only [KeyProg.verify, parsed]
      split
      · exact fun _ _ _ => by simp
      · exact verifyKID_outline
    exact (outlined.run relies run).post accepted grant rfl

end Trust

section Runs

/-- Keys are numbers, and every token asks for the key `"k"` and is signed by the first. -/
def numberedKit : TokenKit Unit Nat where
  parse _ := some "k"
  algorithm _ _ := true
  signed _ key := key == 1
  claims _ := some default

def numberedConfig : KeyConfig := { minRefresh := 5, maxStale := 10 }

def numberedKernel := keyKernel numberedConfig numberedKit

def refreshRun (thread : Nat) (served : List (String × Nat)) (first : Bool) :
    List (KeyEvent Unit Nat) :=
  let set := served.map fun key => { keyID := key.1, key := key.2 }
  .start thread .refresh :: .act thread {} :: .act thread { elapsed := 1 } ::
    (if first then [.act thread { uri := some "u" }] else []) ++
      [.act thread { set := some set }, .act thread {}, .act thread {}, .act thread {}]

/-- A refresh that loads the set, and later one that the issuer does not answer. -/
def loadedRun : List (KeyEvent Unit Nat) :=
  refreshRun 0 [("k", 1)] true ++
    [.start 3 .refresh, .act 3 { elapsed := 20 }, .act 3 {}, .act 3 {}, .act 3 {}]

def loadedThreads : KeyThreads Nat :=
  (numberedKernel.machine.exec ⟨{}, ∅⟩ loadedRun).getD ⟨{}, ∅⟩

def verifyingThreads : KeyThreads Nat :=
  (numberedKernel.machine.step loadedThreads (.start 1 (.verify ()))).getD loadedThreads

theorem loadedThreads_reached : numberedKernel.machine.Reachable loadedThreads := by
  have runs : (numberedKernel.machine.exec ⟨{}, ∅⟩ loadedRun).isSome = true := by
    decide +kernel
  obtain ⟨threads, run⟩ := Option.isSome_iff_exists.mp runs
  refine ⟨⟨{}, ∅⟩, loadedRun, ⟨⟨0, rfl⟩, rfl⟩, ?_⟩
  simp [loadedThreads, run]

theorem verifyingThreads_starts :
    numberedKernel.machine.step loadedThreads (.start 1 (.verify ())) = some verifyingThreads := by
  have starts : (numberedKernel.machine.step loadedThreads
      (.start 1 (.verify ()))).isSome = true := by
    decide +kernel
  obtain ⟨threads, took⟩ := Option.isSome_iff_exists.mp starts
  simp [verifyingThreads, took]

/-- The verifier looks its key up in an old set, which a refresh then replaces. -/
def replacedRun (served : List (String × Nat)) : List (KeyEvent Unit Nat) :=
  .act 1 {} :: refreshRun 2 served false ++ [.act 1 {}, .act 1 {}]

def acceptedKey (threads : KeyThreads Nat) (thread : Nat) : Option Nat :=
  match threads.programs.get thread with
  | some (.done (.accepted key _)) => some key
  | _ => none

theorem done_of_acceptedKey {threads : KeyThreads Nat} {tid key : Nat}
    (accepted : acceptedKey threads tid = some key) :
    ∃ grant, threads.programs.get tid = some (.done (.accepted key grant)) := by
  unfold acceptedKey at accepted
  split at accepted
  · rename_i other grant ended
    simp only [Option.some.injEq] at accepted
    exact ⟨grant, by rw [ended, accepted]⟩
  · simp at accepted

theorem trusted_of_replacedRun :
    (numberedKernel.machine.exec verifyingThreads (replacedRun [("k", 1), ("j", 2)])).map
      (fun threads => acceptedKey threads 1) = some (some 1) ∧
    TrustedUnder numberedConfig numberedKit verifyingThreads
      (replacedRun [("k", 1), ("j", 2)]) () 1 := by
  have accepts : (numberedKernel.machine.exec verifyingThreads
      (replacedRun [("k", 1), ("j", 2)])).map (fun threads => acceptedKey threads 1) =
        some (some 1) := by
    decide +kernel
  refine ⟨accepts, ?_⟩
  obtain ⟨threads, run, accepted⟩ := Option.map_eq_some_iff.mp accepts
  obtain ⟨grant, ended⟩ := done_of_acceptedKey accepted
  have installs : numberedKernel.machine.Meets (Kernel.Allows (installsTrusted numberedConfig))
      verifyingThreads (replacedRun [("k", 1), ("j", 2)]) := by
    decide +kernel
  exact accepted_under_fresh_key verifyingThreads_starts installs run ended

theorem replacedRun_stale : ∀ count ≤ 10,
    (numberedKernel.machine.exec verifyingThreads ((replacedRun [("j", 2)]).take count)).all
      (fun threads => threads.shared.keys.rows.all fun row =>
        !threads.shared.trusts numberedConfig row.1 1) = true := by
  decide +kernel

/-- The key is dropped from the old set, and the token is accepted under it. -/
theorem accepts_under_dropped_key :
    numberedKernel.machine.Reachable loadedThreads ∧
    numberedKernel.machine.step loadedThreads (.start 1 (.verify ())) = some verifyingThreads ∧
    (numberedKernel.machine.exec verifyingThreads (replacedRun [("j", 2)])).map
      (fun threads => acceptedKey threads 1) = some (some 1) ∧
    ¬TrustedUnder numberedConfig numberedKit verifyingThreads (replacedRun [("j", 2)]) () 1 := by
  refine ⟨loadedThreads_reached, verifyingThreads_starts, by decide +kernel, ?_⟩
  rintro ⟨_, kid, front, back, threads, split, run, trusts⟩
  have prior : (replacedRun [("j", 2)]).take front.length = front := by
    rw [split, List.take_left]
  have bound : front.length ≤ 10 := by
    have length : (replacedRun [("j", 2)]).length = 10 := by decide
    rw [split, List.length_append] at length
    omega
  have stale := replacedRun_stale front.length bound
  have found : threads.shared.keys.get kid = some 1 := by
    simp only [KeyCache.trusts, Bool.and_eq_true, decide_eq_true_eq] at trusts
    exact trusts.1
  rw [prior, show numberedKernel.machine.exec verifyingThreads front = some threads from run,
    Option.all_some, List.all_eq_true] at stale
  have distrusts := stale _ ((mem_rows_iff _ _ _).mpr found)
  simp [trusts] at distrusts

end Runs

end Fiberd
