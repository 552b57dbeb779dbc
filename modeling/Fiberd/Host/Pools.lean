import Fiberd.Lib.Machines
import Fiberd.Lib.Tables

/-!
The pools of sandboxes restored ahead of their fibers.  A fill, a birth and a report
of the count take several steps each and anything may come between them; what one
hold of a lock does is one step.
-/

namespace Fiberd

open Tables Machines

/-- A grant's entry in the ledger, as far as the pool goes; `pooled` is as last reported. -/
structure PoolGrant where
  fiberMax : Nat
  fiberWarm : Nat
  live : Nat := 0
  pooled : Nat := 0
  deriving DecidableEq

def PoolGrant.poolRoom (grant : PoolGrant) : Nat :=
  if 0 < grant.fiberMax then
    min (grant.fiberWarm - grant.pooled) (grant.fiberMax - grant.live - grant.pooled)
  else grant.fiberWarm - grant.pooled

/-- A warm instance with the ids of the sandboxes that wait in its pool, oldest first. -/
structure WarmPool where
  instanceID : Nat
  pool : List Nat := []
  deriving DecidableEq

/-- Where a call stands; `bound` is a birth that has asked `Bind`. -/
inductive PoolCall where
  | fill (uid : String)
  | restoring (uid : String) (warm : Nat)
  | restored (uid : String) (warm id : Nat)
  | birth (uid : String) (warm : Nat)
  | took (uid : String) (warm id : Nat)
  | bound (id : Nat)
  | sync (uid : String) (count : Nat)
  | ended
  deriving DecidableEq

/-- The sandbox the call has in hand and may still give to the pool. -/
def PoolCall.sandbox : PoolCall → Option Nat
  | .restored _ _ id | .took _ _ id => some id
  | _ => none

/-- `handled` are the ids of the exits that `pooledGone` has taken. -/
structure PoolHome where
  grants : Table String PoolGrant
  warms : Table String WarmPool := ∅
  instances : Nat := 0
  sandboxes : Nat := 0
  filling : Bool := false
  calls : Table Nat PoolCall := ∅
  out : List Nat := []
  handled : List Nat := []

namespace PoolHome

variable (home : PoolHome)

/-- `Pooled` counts these. -/
def waiting (uid : String) : List Nat := ((home.warms.get uid).map WarmPool.pool).getD []

def begin (thread : Nat) (call : PoolCall) : Option PoolHome :=
  if (home.calls.get thread).isNone then some { home with calls := home.calls.put thread call }
  else none

def turn (thread : Nat) (call : PoolCall) : PoolHome :=
  { home with calls := home.calls.put thread call }

def setPool (uid : String) (warm : WarmPool) (pool : List Nat) : PoolHome :=
  { home with warms := home.warms.put uid { warm with pool := pool } }

def discard (ids : List Nat) : PoolHome := { home with out := ids ++ home.out }

def drop (uid : String) : PoolHome :=
  { home.discard (home.waiting uid) with warms := home.warms.drop uid }

def place (uid : String) (warm id : Nat) (put : List Nat → List Nat) : PoolHome :=
  match home.warms.get uid with
  | some now => if now.instanceID = warm then home.setPool uid now (put now.pool)
      else home.discard [id]
  | none => home.discard [id]

def holds (id : Nat) : Bool := home.warms.rows.any (·.2.pool.contains id)

/-- The first `id` of every pool goes; an id that is in none is ignored. -/
def gone (id : Nat) : PoolHome :=
  { home with
    handled := id :: home.handled
    warms := home.warms.map fun warm => { warm with pool := warm.pool.erase id }
    out := if home.holds id then id :: home.out else home.out }

end PoolHome

inductive PoolStep where
  | prepare (uid : String)
  | reserve (uid : String)
  | freeSlot (uid : String)
  | refillPass (thread : Nat) (uid : String)
  | fillWarm (thread : Nat)
  | pool (thread : Nat) (fine : Bool)
  | append (thread : Nat)
  | birth (thread : Nat) (uid : String)
  | takePooled (thread : Nat)
  | askBind (thread : Nat)
  | bindFails (thread : Nat)
  | returnPooled (thread : Nat)
  | drain (uid : String) (count : Option Nat)
  | dropTemplate (uid : String)
  | warmGone (uid : String) (instanceID : Nat)
  | pooledGone (id : Nat)
  | countPooled (thread : Nat) (uid : String)
  | setPooled (thread : Nat)

namespace PoolHome

def step (home : PoolHome) : PoolStep → Option PoolHome
  | .prepare uid =>
    if (home.warms.get uid).isNone then
      some { home with
        warms := home.warms.put uid ⟨home.instances, []⟩, instances := home.instances + 1 }
    else none
  | .reserve uid => (home.grants.get uid).bind fun grant =>
    if 0 < grant.fiberMax ∧ grant.fiberMax ≤ grant.live then none
    else some { home with grants := home.grants.put uid { grant with live := grant.live + 1 } }
  | .freeSlot uid => (home.grants.get uid).bind fun grant =>
    if grant.live = 0 then none
    else some { home with grants := home.grants.put uid { grant with live := grant.live - 1 } }
  | .refillPass thread uid => (home.grants.get uid).bind fun grant =>
    if home.filling ∨ grant.poolRoom = 0 then none
    else ({ home with filling := true }).begin thread (.fill uid)
  | .fillWarm thread =>
    match home.calls.get thread with
    | some (.fill uid) =>
      match home.warms.get uid with
      | some warm => some (home.turn thread (.restoring uid warm.instanceID))
      | none => some ({ home with filling := false }.turn thread .ended)
    | _ => none
  | .pool thread fine =>
    match home.calls.get thread with
    | some (.restoring uid warm) =>
      if fine then
        some ({ home with sandboxes := home.sandboxes + 1 }.turn thread
          (.restored uid warm home.sandboxes))
      else some ({ home with filling := false }.turn thread .ended)
    | _ => none
  | .append thread =>
    match home.calls.get thread with
    | some (.restored uid warm id) =>
      some (({ home with filling := false }.turn thread .ended).place uid warm id (· ++ [id]))
    | _ => none
  | .birth thread uid => (home.warms.get uid).bind fun warm =>
    home.begin thread (.birth uid warm.instanceID)
  | .takePooled thread =>
    match home.calls.get thread with
    | some (.birth uid warm) =>
      match home.warms.get uid with
      | some now =>
        match now.pool with
        | id :: rest =>
          if now.instanceID = warm then
            some ((home.setPool uid now rest).turn thread (.took uid warm id))
          else some (home.turn thread .ended)
        | [] => some (home.turn thread .ended)
      | none => some (home.turn thread .ended)
    | _ => none
  | .askBind thread =>
    match home.calls.get thread with
    | some (.took _ _ id) => some (home.turn thread (.bound id))
    | _ => none
  | .bindFails thread =>
    match home.calls.get thread with
    | some (.bound id) => some ((home.turn thread .ended).discard [id])
    | _ => none
  | .returnPooled thread =>
    match home.calls.get thread with
    | some (.took uid warm id) =>
      some ((home.turn thread .ended).place uid warm id (id :: ·))
    | _ => none
  | .drain uid count => (home.warms.get uid).map fun warm =>
    let size := min (count.getD warm.pool.length) warm.pool.length
    (home.setPool uid warm (warm.pool.drop size)).discard (warm.pool.take size)
  | .dropTemplate uid => some (home.drop uid)
  | .warmGone uid instanceID =>
    match home.warms.get uid with
    | some warm => some (if warm.instanceID = instanceID then home.drop uid else home)
    | none => some home
  | .pooledGone id => some (home.gone id)
  | .countPooled thread uid => home.begin thread (.sync uid (home.waiting uid).length)
  | .setPooled thread =>
    match home.calls.get thread with
    | some (.sync uid count) => some ({ home with
        grants := home.grants.edit uid fun grant => { grant with pooled := count } }.turn
          thread .ended)
    | _ => none

end PoolHome

/-- A home whose grants were admitted and have no fiber and no sandbox yet. -/
def poolMachine : Machine PoolHome PoolStep where
  start home := (∀ uid grant, home.grants.get uid = some grant → grant.live = 0) ∧
    home = { grants := home.grants }
  step := PoolHome.step

namespace PoolHome

/-- Where a sandbox can be; a birth that has asked `Bind` never gives it back. -/
inductive Spot where
  | pool (uid : String)
  | call (thread : Nat)
  | bound (thread : Nat)
  | out
  deriving DecidableEq

def Spot.final : Spot → Prop
  | .bound _ | .out => True
  | _ => False

def At (home : PoolHome) : Spot → Nat → Prop
  | .pool uid, id => id ∈ home.waiting uid
  | .call thread, id => (home.calls.get thread).bind PoolCall.sandbox = some id
  | .bound thread, id => home.calls.get thread = some (.bound id)
  | .out, id => id ∈ home.out

/-- Every sandbox restored so far is in one place, and nothing else is anywhere.  Where exits
settle, a sandbox whose exit was handled is of no use any more. -/
structure Linear (settles : Prop) (home : PoolHome) : Prop where
  single : ∀ id < home.sandboxes, ∃! spot, home.At spot id
  known : ∀ spot id, home.At spot id → id < home.sandboxes
  distinct : ∀ uid, (home.waiting uid).Nodup
  settled : settles → ∀ id ∈ home.handled, id < home.sandboxes ∧
    ∀ spot, home.At spot id → spot.final

/-- An exit is handled only after the sandbox's restore has been answered and while no fill
and no birth has it in hand. -/
def exitsSettled (home : PoolHome) : PoolStep → Bool
  | .pooledGone id =>
      id < home.sandboxes ∧ home.calls.count (fun _ call => call.sandbox = some id) = 0
  | _ => true

section
variable {home next : PoolHome} {spot other : Spot} {id : Nat} {settles : Prop}

theorem Linear.alone (linear : home.Linear settles) (here : home.At spot id) (there : home.At other id) :
    other = spot :=
  (linear.single id (linear.known spot id here)).unique there here

theorem Linear.unhandled (linear : home.Linear settles) (here : home.At spot id)
    (usable : ¬spot.final) (settle : settles) : id ∉ home.handled :=
  fun done => usable ((linear.settled settle id done).2 spot here)

/-- Sandboxes go to one place, and none whose exit was handled becomes usable. -/
theorem Linear.move (linear : home.Linear settles) (moved : Nat → Prop) (target : Spot)
    (known : ∀ id, moved id → id < home.sandboxes) (size : next.sandboxes = home.sandboxes)
    (spots : ∀ spot id, next.At spot id ↔
      (home.At spot id ∧ ¬moved id) ∨ (spot = target ∧ moved id))
    (nodup : ∀ uid, (next.waiting uid).Nodup) (same : next.handled = home.handled)
    (usable : settles → ∀ id, moved id → target.final ∨ id ∉ home.handled) : next.Linear settles := by
  refine ⟨fun id below => ?_, fun spot id there => ?_, nodup, fun settle id done => ?_⟩
  · obtain ⟨spot, here, only⟩ := linear.single id (size ▸ below)
    by_cases goes : moved id
    · refine ⟨target, (spots _ _).mpr (.inr ⟨rfl, goes⟩), fun other there => ?_⟩
      rcases (spots _ _).mp there with ⟨_, stays⟩ | ⟨same, _⟩
      · exact absurd goes stays
      · exact same
    · refine ⟨spot, (spots _ _).mpr (.inl ⟨here, goes⟩), fun other there => ?_⟩
      rcases (spots _ _).mp there with ⟨was, _⟩ | ⟨_, went⟩
      · exact only other was
      · exact absurd went goes
  · rw [size]
    rcases (spots _ _).mp there with ⟨was, _⟩ | ⟨_, went⟩
    · exact linear.known spot id was
    · exact known id went
  · rw [same] at done
    obtain ⟨below, final⟩ := linear.settled settle id done
    refine ⟨size ▸ below, fun spot there => ?_⟩
    rcases (spots _ _).mp there with ⟨was, _⟩ | ⟨rfl, went⟩
    · exact final spot was
    · exact (usable settle id went).resolve_right fun unhandled => unhandled done

/-- Nothing moves. -/
theorem Linear.stay (linear : home.Linear settles) (size : next.sandboxes = home.sandboxes)
    (calls : ∀ thread id, (next.At (.call thread) id ↔ home.At (.call thread) id) ∧
      (next.At (.bound thread) id ↔ home.At (.bound thread) id))
    (pools : ∀ uid, next.waiting uid = home.waiting uid) (out : next.out = home.out)
    (same : next.handled = home.handled) : next.Linear settles := by
  refine linear.move (fun _ => False) .out nofun size (fun spot id => ?_)
    (fun uid => pools uid ▸ linear.distinct uid) same nofun
  cases spot <;> simp [calls]
  · simp only [At, pools]
  · simp only [At, out]

theorem at_turn (thread : Nat) (call : PoolCall) : (home.turn thread call).At spot id ↔
    if spot = .call thread then call.sandbox = some id
    else if spot = .bound thread then call = .bound id else home.At spot id := by
  cases spot <;> simp [At, turn, waiting, get_put] <;> grind

theorem waiting_setPool (uid other : String) (warm : WarmPool) (pool : List Nat) :
    (home.setPool uid warm pool).waiting other =
      if other = uid then pool else home.waiting other := by
  simp only [waiting, setPool, get_put]; grind

theorem at_setPool (uid : String) (warm : WarmPool) (pool : List Nat) :
    (home.setPool uid warm pool).At spot id ↔
      if spot = .pool uid then id ∈ pool else home.At spot id := by
  cases spot <;> simp [At, waiting_setPool] <;> first | rfl | grind

theorem at_discard (ids : List Nat) :
    (home.discard ids).At spot id ↔ home.At spot id ∨ (spot = .out ∧ id ∈ ids) := by
  cases spot <;> simp [At, discard, waiting]
  grind

theorem waiting_drop (uid other : String) :
    (home.drop uid).waiting other = if other = uid then [] else home.waiting other := by
  simp only [waiting, drop, discard, get_drop]; grind

theorem at_drop (uid : String) : (home.drop uid).At spot id ↔
    (home.At spot id ∧ spot ≠ .pool uid) ∨ (spot = .out ∧ home.At (.pool uid) id) := by
  cases spot <;> simp only [At, waiting_drop] <;> simp [drop, discard] <;> grind

variable {thread warm : Nat}

theorem Linear.turn (linear : home.Linear settles) {call : PoolCall}
    (old : ∀ id, ¬home.At (.call thread) id ∧ ¬home.At (.bound thread) id)
    (bare : call.sandbox = none ∧ ∀ id, call ≠ .bound id) : (home.turn thread call).Linear settles := by
  refine linear.stay rfl (fun other id => ?_) (fun _ => rfl) rfl rfl
  have old := old id
  simp only [at_turn]
  grind

theorem Linear.drop (linear : home.Linear settles) (uid : String) : (home.drop uid).Linear settles := by
  refine linear.move (home.At (.pool uid)) .out (linear.known _) rfl (fun spot id => ?_)
    (fun other => ?_) rfl fun _ _ _ => .inl trivial
  · rw [at_drop]
    have alone : home.At (.pool uid) id → home.At spot id → spot = .pool uid := linear.alone
    grind
  · rw [waiting_drop]
    split
    · exact List.nodup_nil
    · exact linear.distinct other

/-- A call lets go of its sandbox. -/
theorem Linear.letGo (linear : home.Linear settles)
    (mine : spot = .call thread ∨ spot = .bound thread) (held : home.At spot id) :
    ((home.turn thread .ended).discard [id]).Linear settles := by
  refine linear.move (· = id) .out (fun _ same => same ▸ linear.known _ _ held) rfl
    (fun place other => ?_) linear.distinct rfl fun _ _ _ => .inl trivial
  simp only [at_discard, at_turn, PoolCall.sandbox]
  have alone : home.At place id → place = spot := linear.alone held
  grind [At, PoolCall.sandbox]

theorem Linear.ask (linear : home.Linear settles) (held : home.At (.call thread) id) :
    (home.turn thread (.bound id)).Linear settles := by
  refine linear.move (· = id) (.bound thread) (fun _ same => same ▸ linear.known _ _ held) rfl
    (fun place other => ?_) linear.distinct rfl fun _ _ _ => .inl trivial
  simp only [at_turn, PoolCall.sandbox]
  have alone : home.At place id → place = .call thread := linear.alone held
  grind [At, PoolCall.sandbox]

variable {uid : String}

/-- The sandbox of a call goes to the pool of its grant. -/
theorem Linear.place (linear : home.Linear settles)
    {put : List Nat → List Nat} (held : home.At (.call thread) id)
    (puts : ∀ pool, (put pool).Perm (id :: pool)) :
    ((home.turn thread .ended).place uid warm id put).Linear settles := by
  unfold PoolHome.place
  split
  case h_2 => exact linear.letGo (.inl rfl) held
  split
  case isFalse => exact linear.letGo (.inl rfl) held
  rename_i now got same
  have kept : home.waiting uid = now.pool := by
    simp [waiting, show home.warms.get uid = some now from got]
  have fresh : id ∉ now.pool := fun mem => by
    have waits : home.At (.pool uid) id := by rwa [← kept] at mem
    simpa using linear.alone held waits
  refine linear.move (· = id) (.pool uid) (fun _ same => same ▸ linear.known _ _ held) rfl
    (fun spot other => ?_) (fun other => ?_) rfl fun settle _ same => .inr ?_
  · simp only [at_setPool, at_turn, PoolCall.sandbox, (puts _).mem_iff]
    have alone : home.At spot id → spot = .call thread := linear.alone held
    grind [At, PoolCall.sandbox]
  · rw [waiting_setPool]
    split
    · exact (puts _).nodup_iff.mpr (List.nodup_cons.mpr ⟨fresh, kept ▸ linear.distinct uid⟩)
    · exact linear.distinct other
  · exact same ▸ linear.unhandled held not_false settle

theorem Linear.take (linear : home.Linear settles) {now : WarmPool}
    {rest : List Nat} (got : home.warms.get uid = some now) (first : now.pool = id :: rest)
    (old : ∀ id, ¬home.At (.call thread) id ∧ ¬home.At (.bound thread) id) :
    ((home.setPool uid now rest).turn thread (.took uid warm id)).Linear settles := by
  have kept : home.waiting uid = id :: rest := by simp [waiting, got, first]
  have here : home.At (.pool uid) id := by simp [At, kept]
  have nodup := linear.distinct uid
  rw [kept, List.nodup_cons] at nodup
  refine linear.move (· = id) (.call thread) (fun _ same => same ▸ linear.known _ _ here) rfl
    (fun spot other => ?_) (fun other => ?_) rfl fun settle _ same => .inr ?_
  · simp only [at_turn, at_setPool, PoolCall.sandbox]
    have alone : home.At spot id → spot = .pool uid := linear.alone here
    have old := old other
    grind [At]
  · change ((home.setPool uid now rest).waiting other).Nodup
    rw [waiting_setPool]
    split
    · exact nodup.2
    · exact linear.distinct other
  · exact same ▸ linear.unhandled here not_false settle

theorem Linear.drain (linear : home.Linear settles) {warm : WarmPool} (size : Nat)
    (got : home.warms.get uid = some warm) :
    ((home.setPool uid warm (warm.pool.drop size)).discard (warm.pool.take size)).Linear settles := by
  have kept : home.waiting uid = warm.pool := by simp [waiting, got]
  have split := kept ▸ linear.distinct uid
  rw [← List.take_append_drop size warm.pool, List.nodup_append] at split
  have inside (id : Nat) : home.At (.pool uid) id ↔
      id ∈ warm.pool.take size ∨ id ∈ warm.pool.drop size := by
    rw [← List.mem_append, List.take_append_drop, ← kept]; rfl
  refine linear.move (· ∈ warm.pool.take size) .out
    (fun id took => linear.known (.pool uid) id ((inside id).mpr (.inl took))) rfl
    (fun spot id => ?_) (fun other => ?_) rfl fun _ _ _ => .inl trivial
  · simp only [at_discard, at_setPool]
    have alone : home.At (.pool uid) id → home.At spot id → spot = .pool uid := linear.alone
    grind
  · change ((home.setPool uid warm _).waiting other).Nodup
    rw [waiting_setPool]
    split
    · exact split.2.1
    · exact linear.distinct other

theorem Linear.restore (linear : home.Linear settles)
    (before : ∀ id, ¬home.At (.call thread) id ∧ ¬home.At (.bound thread) id) :
    ({ home with sandboxes := home.sandboxes + 1 }.turn thread
      (.restored uid warm home.sandboxes)).Linear settles := by
  have spots (spot : Spot) (id : Nat) :
      ({ home with sandboxes := home.sandboxes + 1 }.turn thread
        (.restored uid warm home.sandboxes)).At spot id ↔
      home.At spot id ∨ (spot = .call thread ∧ id = home.sandboxes) := by
    have before := before id
    rw [at_turn]
    cases spot <;> simp [At, PoolCall.sandbox, waiting] <;> grind [At]
  have known := linear.known
  refine ⟨fun id below => ?_, fun spot id there => ?_, linear.distinct, fun settle id done => ?_⟩
  · have edge : id < home.sandboxes + 1 := below
    by_cases old : id < home.sandboxes
    · obtain ⟨spot, here, only⟩ := linear.single id old
      exact ⟨spot, (spots _ _).mpr (.inl here), fun other there => by grind⟩
    · exact ⟨.call thread, (spots _ _).mpr (.inr ⟨rfl, by omega⟩), fun other there => by grind⟩
  · change id < home.sandboxes + 1
    grind
  · obtain ⟨below, final⟩ := linear.settled settle id done
    exact ⟨Nat.lt_succ_of_lt below, fun spot there => by grind⟩

theorem waiting_gone (uid : String) : (home.gone id).waiting uid = (home.waiting uid).erase id := by
  simp only [waiting, gone, get_map]
  cases home.warms.get uid <;> rfl

theorem holds_iff : home.holds id = true ↔ ∃ uid, id ∈ home.waiting uid := by
  simp only [holds, List.any_eq_true, Prod.exists, mem_rows_iff, List.contains_iff_mem, waiting]
  constructor
  · rintro ⟨uid, warm, found, mem⟩
    exact ⟨uid, by simpa [found] using mem⟩
  · rintro ⟨uid, mem⟩
    cases found : home.warms.get uid with
    | none => simp [found] at mem
    | some warm => exact ⟨uid, warm, found, by simpa [found] using mem⟩

theorem Linear.gone (linear : home.Linear settles)
    (free : settles → id < home.sandboxes ∧ ∀ thread, ¬home.At (.call thread) id) : (home.gone id).Linear settles := by
  have pooled : home.holds id = true ↔ ∃ uid, home.At (.pool uid) id := holds_iff
  have spots (spot : Spot) (other : Nat) : (home.gone id).At spot other ↔
      (home.At spot other ∧ ¬(other = id ∧ ∃ uid, home.At (.pool uid) id)) ∨
        (spot = .out ∧ other = id ∧ ∃ uid, home.At (.pool uid) id) := by
    have alone (uid : String) : home.At (.pool uid) id → home.At spot id → spot = .pool uid :=
      linear.alone
    cases spot with
    | pool uid =>
      simp only [At, waiting_gone, (linear.distinct uid).mem_erase_iff]
      grind [At]
    | call thread =>
      change home.At (.call thread) other ↔ _
      grind
    | bound thread =>
      change home.At (.bound thread) other ↔ _
      grind
    | out =>
      change other ∈ (if home.holds id then id :: home.out else home.out) ↔
        (other ∈ home.out ∧ _) ∨ _
      rw [← pooled]
      by_cases held : home.holds id = true
      · obtain ⟨uid, here⟩ := pooled.mp held
        have apart : id ∉ home.out := fun out => nomatch alone uid here out
        grind
      · simp [held]
  have moved : ({ home.gone id with handled := home.handled } : PoolHome).Linear settles := by
    refine linear.move _ .out ?_ rfl spots (fun uid => ?_) rfl fun _ _ _ => .inl trivial
    · rintro _ ⟨rfl, uid, here⟩
      exact linear.known _ _ here
    · change ((home.gone id).waiting uid).Nodup
      rw [waiting_gone]
      exact (linear.distinct uid).erase id
  refine ⟨moved.single, moved.known, moved.distinct, fun settle other done => ?_⟩
  rcases List.mem_cons.mp done with rfl | done
  · obtain ⟨below, free⟩ := free settle
    refine ⟨below, fun spot there => ?_⟩
    rcases (spots _ _).mp there with ⟨was, stays⟩ | ⟨rfl, _⟩
    · cases spot with
      | pool uid => exact absurd ⟨rfl, uid, was⟩ stays
      | call thread => exact absurd was (free thread)
      | _ => trivial
    · trivial
  · exact moved.settled settle other done

theorem Linear.step (linear : home.Linear settles) {label : PoolStep}
    (settled : settles → home.exitsSettled label = true) (took : home.step label = some next) :
    next.Linear settles := by
  have aside {filling : Bool} {grants : Table String PoolGrant} :
      ({ home with filling := filling, grants := grants } : PoolHome).Linear settles :=
    linear.stay rfl (fun _ _ => ⟨.rfl, .rfl⟩) (fun _ => rfl) rfl rfl
  have bare {thread : Nat} {call : PoolCall} (got : home.calls.get thread = some call)
      (empty : call.sandbox = none ∧ ∀ id, call ≠ .bound id := by simp [PoolCall.sandbox])
      (id : Nat) : ¬home.At (.call thread) id ∧ ¬home.At (.bound thread) id := by
    simp only [At, got]
    grind
  have idle {thread : Nat} (got : (home.calls.get thread).isNone) (id : Nat) :
      ¬home.At (.call thread) id ∧ ¬home.At (.bound thread) id := by
    simp only [At, Option.isNone_iff_eq_none.mp got]
    simp
  cases label <;>
    simp only [PoolHome.step, Option.bind_eq_some_iff, Option.map_eq_some_iff] at took
  case prepare uid =>
    split at took <;> cases took
    rename_i gone
    refine linear.stay rfl (fun _ _ => ⟨.rfl, .rfl⟩) (fun other => ?_) rfl rfl
    simp only [waiting, get_put]
    split
    · simp [*, Option.isNone_iff_eq_none.mp gone]
    · rfl
  case reserve | freeSlot =>
    obtain ⟨grant, _, took⟩ := took
    split at took <;> cases took
    exact aside
  case refillPass thread uid =>
    obtain ⟨grant, _, took⟩ := took
    split at took
    · cases took
    · unfold begin at took
      split at took <;> cases took
      exact aside.turn (idle ‹_›) (by simp [PoolCall.sandbox])
  case fillWarm thread =>
    split at took
    · split at took <;> cases took
      · exact linear.turn (bare ‹_›) (by simp [PoolCall.sandbox])
      · exact aside.turn (bare ‹_›) (by simp [PoolCall.sandbox])
    · cases took
  case pool thread fine =>
    split at took
    · split at took <;> cases took
      · exact linear.restore (bare ‹_›)
      · exact aside.turn (bare ‹_›) (by simp [PoolCall.sandbox])
    · cases took
  case append thread =>
    split at took <;> cases took
    rename_i got
    exact aside.place (by simp [At, got, PoolCall.sandbox]) fun _ =>
      List.perm_append_singleton _ _
  case birth thread uid =>
    obtain ⟨warm, _, took⟩ := took
    unfold begin at took
    split at took <;> cases took
    exact linear.turn (idle ‹_›) (by simp [PoolCall.sandbox])
  case takePooled thread =>
    split at took
    case h_2 => cases took
    rename_i uid warm got
    have ended : (home.turn thread .ended).Linear settles :=
      linear.turn (bare got) (by simp [PoolCall.sandbox])
    split at took
    · split at took
      · split at took <;> cases took
        · exact linear.take ‹_› ‹_› (bare got)
        · exact ended
      · cases took
        exact ended
    · cases took
      exact ended
  case askBind thread =>
    split at took <;> cases took
    rename_i got
    exact linear.ask (by simp [At, got, PoolCall.sandbox])
  case bindFails thread =>
    split at took <;> cases took
    rename_i id got
    have held : home.At (.bound thread) id := got
    exact linear.letGo (.inr rfl) held
  case returnPooled thread =>
    split at took <;> cases took
    rename_i got
    exact linear.place (by simp [At, got, PoolCall.sandbox]) fun _ => .refl _
  case drain uid count =>
    obtain ⟨warm, got, rfl⟩ := took
    exact linear.drain _ got
  case dropTemplate uid =>
    cases took
    exact linear.drop uid
  case warmGone uid instanceID =>
    split at took <;> cases took
    · split
      · exact linear.drop uid
      · exact linear
    · exact linear
  case pooledGone id =>
    cases took
    refine linear.gone fun settle => ?_
    obtain ⟨below, none⟩ := of_decide_eq_true (settled settle)
    refine ⟨below, fun thread held => ?_⟩
    have free := (count_eq_zero_iff _ _).mp none
    obtain ⟨call, got, held⟩ := Option.bind_eq_some_iff.mp held
    simpa [held] using free thread call got
  case countPooled thread uid =>
    unfold begin at took
    split at took <;> cases took
    exact linear.turn (idle ‹_›) (by simp [PoolCall.sandbox])
  case setPooled thread =>
    split at took <;> cases took
    exact aside.turn (bare ‹_›) (by simp [PoolCall.sandbox])

end

/-- The call has, or is about to have, a sandbox that counts for the grant. -/
def PoolCall.owes (uid : String) : PoolCall → Bool
  | .fill grant | .restoring grant _ | .restored grant _ _ | .took grant _ _ => grant = uid
  | _ => false

/-- The sandboxes that wait for the grant and those that are on their way. -/
def load (home : PoolHome) (uid : String) : Nat :=
  (home.waiting uid).length + home.calls.count fun _ call => PoolCall.owes uid call

def InsideMax (home : PoolHome) : Prop :=
  ∀ uid grant, home.grants.get uid = some grant → 0 < grant.fiberMax →
    grant.live + (home.waiting uid).length ≤ grant.fiberMax

/-- The pool of a grant is within `fibers.warm` and leaves its fibers their places. -/
def Roomy (home : PoolHome) : Prop :=
  ∀ uid grant, home.grants.get uid = some grant → home.load uid ≤ grant.fiberWarm ∧
    (0 < grant.fiberMax → grant.live + home.load uid ≤ grant.fiberMax)

/-- A fiber is reserved only while the grant has no sandbox, or while there is a place for it
beside `fibers.warm` sandboxes.  A fill starts only while the reported count covers those there
are. -/
def leavesRoom (home : PoolHome) : PoolStep → Bool
  | .reserve uid => (home.grants.get uid).all fun grant =>
      home.load uid = 0 ∨ grant.live + grant.fiberWarm < grant.fiberMax ∨ grant.fiberMax = 0
  | .refillPass _ uid => (home.grants.get uid).all fun grant => home.load uid ≤ grant.pooled
  | _ => true

section
variable {home next : PoolHome} {thread : Nat} {call old : PoolCall}

theorem load_turn (got : home.calls.get thread = some old)
    (calls : next.calls = home.calls.put thread call) (warms : next.warms = home.warms)
    (uid : String) :
    next.load uid + (if PoolCall.owes uid old then 1 else 0) =
      home.load uid + if PoolCall.owes uid call then 1 else 0 := by
  have counted := count_put_add (fun _ call => PoolCall.owes uid call) home.calls call got
  simp only [load, calls, warms, waiting] at *
  omega

theorem load_begin (begun : home.begin thread call = some next) (uid : String) :
    next.load uid = home.load uid + if PoolCall.owes uid call then 1 else 0 := by
  unfold begin at begun
  split at begun <;> cases begun
  have counted := count_put_fresh (fun _ call => PoolCall.owes uid call) home.calls call
    (Option.isNone_iff_eq_none.mp ‹_›)
  simp only [load, waiting] at *
  omega

variable {warm id : Nat}

theorem load_place {uid grant : String} {put : List Nat → List Nat}
    (size : ∀ pool, (put pool).length = pool.length + 1) :
    (home.place grant warm id put).load uid ≤ home.load uid + if grant = uid then 1 else 0 := by
  unfold place
  split
  · split
    · simp only [load, waiting_setPool]
      split
      · simp_all [waiting, setPool]; omega
      · simp [setPool]
    · simp [load, discard, waiting]
  · simp [load, discard, waiting]

/-- No grant has got more live fibers. -/
def Spares (home next : PoolHome) : Prop :=
  ∀ uid grant, next.grants.get uid = some grant → ∃ old, home.grants.get uid = some old ∧
    grant.fiberMax = old.fiberMax ∧ grant.fiberWarm = old.fiberWarm ∧ grant.live ≤ old.live

theorem Roomy.keep (roomy : home.Roomy) (grants : home.Spares next)
    (loads : ∀ uid, next.load uid ≤ home.load uid) : next.Roomy := by
  intro uid grant got
  obtain ⟨old, was, max, warm, live⟩ := grants uid grant got
  obtain ⟨small, room⟩ := roomy uid old was
  have := loads uid
  omega

theorem Roomy.turn (roomy : home.Roomy) (got : home.calls.get thread = some old)
    (calls : next.calls = home.calls.put thread call) (warms : next.warms = home.warms)
    (grants : home.Spares next)
    (owes : ∀ uid, PoolCall.owes uid call = true → PoolCall.owes uid old = true) : next.Roomy := by
  refine roomy.keep grants fun uid => ?_
  have loads := load_turn got calls warms uid
  have owes := owes uid
  grind

theorem Roomy.place (roomy : home.Roomy) (got : home.calls.get thread = some old)
    (calls : next.calls = home.calls.put thread .ended) (warms : next.warms = home.warms)
    (grants : next.grants = home.grants) {grant : String}
    {put : List Nat → List Nat} (owes : ∀ uid, PoolCall.owes uid old = decide (grant = uid))
    (size : ∀ pool, (put pool).length = pool.length + 1) :
    (next.place grant warm id put).Roomy := by
  refine roomy.keep (fun uid later known => ?_) fun uid => ?_
  · have same : (next.place grant warm id put).grants = home.grants := by
      unfold PoolHome.place
      split
      · split <;> exact grants
      · exact grants
    exact ⟨later, same ▸ known, rfl, rfl, le_rfl⟩
  · have loads := load_turn got calls warms uid
    have placed : (next.place grant warm id put).load uid ≤ _ := load_place size
    rw [owes uid, show PoolCall.owes uid .ended = false from rfl] at loads
    grind

theorem Roomy.step (roomy : home.Roomy) {label : PoolStep} (leaves : home.leavesRoom label = true)
    (took : home.step label = some next) : next.Roomy := by
  have same : home.Spares home := fun _ grant got => ⟨grant, got, rfl, rfl, le_rfl⟩
  have drop (uid : String) : (home.drop uid).Roomy := by
    refine roomy.keep same fun other => ?_
    simp only [load, waiting_drop]
    split
    · simp [PoolHome.drop, discard]
    · rfl
  cases label <;>
    simp only [PoolHome.step, Option.bind_eq_some_iff, Option.map_eq_some_iff] at took
  case prepare uid =>
    split at took <;> cases took
    refine roomy.keep same fun other => ?_
    simp only [load, waiting, get_put]
    split <;> simp
  case reserve uid =>
    obtain ⟨grant, known, took⟩ := took
    split at took <;> cases took
    simp only [leavesRoom, known, Option.all_some, decide_eq_true_eq] at leaves
    intro other later got
    change home.load other ≤ _ ∧ (_ → later.live + home.load other ≤ _)
    have room := roomy other
    grind [get_put]
  case freeSlot uid =>
    obtain ⟨grant, known, took⟩ := took
    split at took <;> cases took
    refine roomy.keep (fun other later got => ?_) fun _ => le_rfl
    grind [get_put]
  case refillPass thread uid =>
    obtain ⟨grant, known, took⟩ := took
    split at took
    · cases took
    rename_i room
    simp only [leavesRoom, known, Option.all_some, decide_eq_true_eq] at leaves
    intro other later got
    have loads := load_begin took other
    have kept : next.grants = home.grants := by
      unfold begin at took
      split at took <;> cases took
      rfl
    have old := roomy other later (kept ▸ got)
    simp only [PoolGrant.poolRoom, PoolCall.owes] at room loads
    change next.load other = home.load other + _ at loads
    grind
  case countPooled thread uid =>
    refine roomy.keep ?_ fun other => by simp [load_begin took other, PoolCall.owes]
    unfold begin at took
    split at took <;> cases took
    exact same
  case birth thread uid =>
    obtain ⟨warm, _, took⟩ := took
    refine roomy.keep ?_ fun other => by simp [load_begin took other, PoolCall.owes]
    unfold begin at took
    split at took <;> cases took
    exact same
  case fillWarm | pool =>
    split at took
    · split at took <;> cases took <;>
        exact roomy.turn ‹_› rfl rfl same (by simp [PoolCall.owes])
    · cases took
  case append | returnPooled =>
    split at took <;> cases took
    refine roomy.place ‹_› ?_ ?_ ?_ (fun _ => ?_) ?_
    all_goals first | rfl | simp
  case takePooled thread =>
    split at took
    case h_2 => cases took
    rename_i uid warm got
    have ended : (home.turn thread .ended).Roomy :=
      roomy.turn got rfl rfl same (by simp [PoolCall.owes])
    split at took
    · split at took
      · split at took <;> cases took
        · rename_i now stands _ id rest first _
          refine roomy.keep same fun other => ?_
          have counted := count_put_add (fun _ call => PoolCall.owes other call) home.calls
            (.took uid warm id) got
          have waits : home.waiting uid = id :: rest := by simp [waiting, stands, first]
          rw [show PoolCall.owes other (.birth uid warm) = false from rfl,
            show PoolCall.owes other (.took uid warm id) = decide (uid = other) from rfl] at counted
          change ((home.setPool uid now rest).waiting other).length + (home.calls.put _ _).count _ ≤ _
          rw [waiting_setPool, load]
          grind
        · exact ended
      · cases took
        exact ended
    · cases took
      exact ended
  case askBind | bindFails =>
    split at took <;> cases took
    exact roomy.turn ‹_› rfl rfl same (by simp [PoolCall.owes])
  case drain uid count =>
    obtain ⟨warm, got, rfl⟩ := took
    refine roomy.keep same fun other => ?_
    change ((home.setPool uid warm _).waiting other).length + home.calls.count _ ≤ _
    rw [waiting_setPool, load]
    grind [waiting]
  case dropTemplate uid =>
    cases took
    exact drop uid
  case warmGone uid instanceID =>
    split at took <;> cases took
    · split
      · exact drop uid
      · exact roomy
    · exact roomy
  case pooledGone id =>
    cases took
    refine roomy.keep same fun other => ?_
    simp only [load, waiting_gone]
    exact Nat.add_le_add_right List.length_erase_le _
  case setPooled thread =>
    split at took <;> cases took
    refine roomy.turn ‹_› rfl rfl (fun other later got => ?_) (by simp [PoolCall.owes])
    simp only [PoolHome.turn, get_edit] at got
    split at got
    · obtain ⟨old, was, rfl⟩ := Option.map_eq_some_iff.mp got
      exact ⟨old, ‹other = _› ▸ was, rfl, rfl, le_rfl⟩
    · exact ⟨later, got, rfl, rfl, le_rfl⟩

end

end PoolHome

/-- A home with one grant, and one fill from its start to its end. -/
def warmHome (fiberMax : Nat) : PoolHome :=
  { grants := (∅ : Table String PoolGrant).put "g" { fiberMax := fiberMax, fiberWarm := 1 } }

def fillRun : List PoolStep :=
  [.prepare "g", .refillPass 0 "g", .fillWarm 0, .pool 0 true]

theorem warmHome_start (fiberMax : Nat) : poolMachine.start (warmHome fiberMax) := by
  refine ⟨fun uid grant got => ?_, rfl⟩
  simp only [warmHome, get_put] at got
  split at got
  · exact Option.some.inj got ▸ rfl
  · simp at got

theorem pools_linear {first final : PoolHome} {labels : List PoolStep}
    (started : poolMachine.start first) (run : poolMachine.exec first labels = some final) :
    final.Linear False ∧
      (poolMachine.Meets (fun home label => home.exitsSettled label = true) first labels →
        final.Linear True) := by
  have born (settles : Prop) : first.Linear settles := by
    rw [started.2]
    refine ⟨by simp, fun spot id there => ?_, fun _ => List.nodup_nil, by simp⟩
    cases spot <;> simp [PoolHome.At, PoolHome.waiting] at there
  refine ⟨exec_keeps (fun _ _ _ linear taken => linear.step False.elim taken) (born False) run, ?_⟩
  intro meets
  exact exec_keeps_of_meets (fun _ _ _ linear settled taken => linear.step (fun _ => settled) taken)
    (born True) meets run

theorem pooled_exit_linear : ∃ final,
    poolMachine.exec (warmHome 1) (fillRun ++ [.append 0, .pooledGone 0]) = some final ∧
      final.Linear True := by
  have ran : (poolMachine.exec (warmHome 1) (fillRun ++ [.append 0, .pooledGone 0])).isSome := by
    decide +kernel
  obtain ⟨final, run⟩ := Option.isSome_iff_exists.mp ran
  exact ⟨final, run, (pools_linear (warmHome_start 1) run).2 (by decide +kernel)⟩

theorem dead_sandbox_pooled : ∃ final, poolMachine.start (warmHome 1) ∧
    poolMachine.exec (warmHome 1) (fillRun ++ [.pooledGone 0, .append 0]) = some final ∧
      0 ∈ final.handled ∧ 0 ∈ final.waiting "g" := by
  refine exists_and_left.mpr ⟨warmHome_start 1, ?_⟩
  decide +kernel

theorem pools_inside_max {first final : PoolHome} {labels : List PoolStep}
    (started : poolMachine.start first)
    (meets : poolMachine.Meets (fun home label => home.leavesRoom label = true) first labels)
    (run : poolMachine.exec first labels = some final) : final.InsideMax := by
  have roomy : final.Roomy := by
    refine exec_keeps_of_meets (fun _ _ _ roomy leaves taken => roomy.step leaves taken) ?_
      meets run
    intro uid grant found
    rw [started.1 uid grant found, started.2]
    simp [PoolHome.load, PoolHome.waiting]
  intro uid grant found limited
  have room := (roomy uid grant found).2 limited
  simp only [PoolHome.load] at room
  omega

/-- A fiber is born of the one sandbox, and once that is bound another fits beside it. -/
def bornRun : List PoolStep :=
  fillRun ++ [.append 0, .reserve "g", .birth 1 "g", .takePooled 1, .askBind 1, .reserve "g"]

theorem born_inside_max : ∃ final,
    poolMachine.exec (warmHome 2) bornRun = some final ∧ final.InsideMax := by
  have ran : (poolMachine.exec (warmHome 2) bornRun).isSome := by decide +kernel
  obtain ⟨final, run⟩ := Option.isSome_iff_exists.mp ran
  exact ⟨final, run, pools_inside_max (warmHome_start 2) (by decide +kernel) run⟩

theorem resumed_past_max : ∃ final, poolMachine.start (warmHome 1) ∧
    poolMachine.exec (warmHome 1) (fillRun ++ [.append 0, .reserve "g"]) = some final ∧
      ¬final.InsideMax := by
  obtain ⟨final, run, grant, waiting⟩ : ∃ final, poolMachine.exec (warmHome 1)
    (fillRun ++ [.append 0, .reserve "g"]) = some final ∧
      final.grants.get "g" = some { fiberMax := 1, fiberWarm := 1, live := 1 } ∧
      final.waiting "g" = [0] := by decide +kernel
  refine ⟨final, warmHome_start 1, run, fun inside => ?_⟩
  have room := inside "g" _ grant Nat.one_pos
  simp [waiting] at room

end Fiberd
