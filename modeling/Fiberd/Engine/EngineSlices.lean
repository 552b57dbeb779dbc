import Fiberd.Lib.Machines
import Fiberd.Lib.Tables

/-!
The slices of a grant's fibers in its device engine, after the exchanges of `engine_linux.go`
and the Parks and resumes of `host_linux.go` that make them.  The lines and the answers about a
fence keep their order.
-/

namespace Fiberd

open Tables Machines

inductive AskVerb where
  | hold
  | save
  | restore
  deriving DecidableEq

inductive SliceLine where
  | ask (verb : AskVerb)
  | leaf
  | unleaf
  | unhold
  | evict
  deriving DecidableEq

/-- HELD, SAVED and RESTORED are `done`. -/
inductive SliceReport where
  | done (verb : AskVerb) (bytes : Nat)
  | error
  | device (bytes : Nat)
  deriving DecidableEq

def SliceReport.size : SliceReport → Option Nat
  | .done .restore bytes | .device bytes => some bytes
  | _ => none

/-- A fence in an engine, from the engine's start to its end.  `told` has every size it was
said to have. -/
structure EngineSlice where
  inbox : List SliceLine := []
  outbox : List SliceReport := []
  mapped : Bool := false
  held : Bool := false
  size : Option Nat := none
  told : List Nat := []

namespace EngineSlice

def say (slice : EngineSlice) (report : SliceReport) : EngineSlice :=
  { slice with
    outbox := slice.outbox ++ [report]
    told := report.size.toList ++ slice.told }

/-- The engine takes a line, and may refuse what it has an ERROR for. -/
def take (slice : EngineSlice) (ok : Bool) (bytes : Nat) : SliceLine → EngineSlice
  | .ask verb =>
    if ok then
      match verb with
      | .hold => { slice with held := true }.say (.done .hold 0)
      | .save => slice.say (.done .save (slice.size.getD 0))
      | .restore =>
        if slice.size = none ∧ slice.mapped = false then
          ({ slice with size := some bytes }.say (.done .restore bytes)).say (.device bytes)
        else slice.say .error
    else slice.say .error
  | .leaf => if ok then { slice with mapped := true } else slice.say .error
  | .unleaf => { slice with mapped := false }
  | .unhold => { slice with held := false }
  | .evict =>
    if ok then { slice with held := false, size := none }.say (.device 0)
    else slice.say .error

end EngineSlice

/-- A resume waits for its RESTORE, has the answer, has recorded the size, and goes on past its
LEAF, which an engine took with the slice or without.  A birth starts at its LEAF. -/
inductive SliceStage where
  | new
  | asking
  | answered (bytes : Nat)
  | recorded (bytes : Nat)
  | live (sliced : Bool)
  | over
  deriving DecidableEq

namespace SliceStage

def early : SliceStage → Bool
  | .live _ | .over => false
  | _ => true

def asks : SliceStage → Bool
  | .asking | .answered _ => true
  | _ => false

def restored : SliceStage → Option Nat
  | .answered bytes | .recorded bytes => some bytes
  | _ => none

end SliceStage

/-- The holder of `emu`.  `waits` while `e.reply` is its, and `answer` is what its channel has. -/
structure Exchange where
  verb : AskVerb
  wrote : Bool := false
  waits : Bool := true
  answer : Option SliceReport := none

/-- A fence in fiberd: its entries in `e.slices` and `e.leaves`, its exchange and its fiber. -/
structure FenceSlice where
  engine : EngineSlice := {}
  slice : Option Nat := none
  leafed : Bool := false
  exchange : Option Exchange := none
  stage : SliceStage := .new

inductive SliceStep where
  | begin (verb : AskVerb)
  | write (taken : Bool)
  | giveUp
  | finish
  | record
  | leaf (taken : Bool)
  | releaf (taken : Bool)
  | unhold (taken : Bool)
  | unleaf (taken : Bool)
  | evict (taken : Bool)
  | take (ok : Bool) (bytes : Nat)
  | request (bytes : Nat)
  | read
  deriving DecidableEq

namespace FenceSlice

def send (fence : FenceSlice) (taken : Bool) (line : SliceLine) : FenceSlice :=
  if taken then { fence with engine.inbox := fence.engine.inbox ++ [line] } else fence

def fail (fence : FenceSlice) (exchange : Exchange) : FenceSlice :=
  { fence with
    exchange := none
    stage := if exchange.verb = .restore then .over else fence.stage }

/-- `deliver`: an answer is matched by its verb and its fence. -/
def deliver (fence : FenceSlice) (report : SliceReport) : FenceSlice :=
  match fence.exchange with
  | none => fence
  | some exchange =>
    let answered := { fence with
      exchange := some { exchange with waits := false, answer := some report } }
    match report with
    | .done verb bytes =>
      if exchange.waits ∧ verb = exchange.verb then
        if verb = .restore then { answered with stage := .answered bytes } else answered
      else fence
    | .error => if exchange.waits then answered else fence
    | .device _ => fence

def apply (fence : FenceSlice) : SliceReport → FenceSlice
  | .device bytes =>
    if bytes = 0 then { fence with slice := none }
    else if fence.leafed then { fence with slice := some bytes }
    else fence
  | report => fence.deliver report

def start (fence : FenceSlice) : FenceSlice :=
  { fence with slice := none, engine := { inbox := if fence.leafed then [.leaf] else [] } }

def down (fence : FenceSlice) : FenceSlice :=
  { fence with
    slice := none
    engine := {}
    exchange := fence.exchange.map fun exchange => { exchange with waits := false } }

/-- `up` is that of the engine.  A line that is not taken finds it down, or ends it. -/
def step (fence : FenceSlice) (up : Bool) : SliceStep → Option FenceSlice
  | .begin verb =>
    if fence.exchange.isNone ∧ up then
      if verb = .restore then
        if fence.stage = .new then
          some { fence with exchange := some { verb }, stage := .asking }
        else none
      else if fence.stage.early then none
      else some { fence with exchange := some { verb } }
    else none
  | .write taken => fence.exchange.bind fun exchange =>
    if exchange.wrote then none
    else if taken && up then
      some ({ fence with exchange := some { exchange with wrote := true } }.send true
        (.ask exchange.verb))
    else some (fence.fail exchange)
  | .giveUp => fence.exchange.map fence.fail
  | .finish => fence.exchange.bind fun exchange =>
    match exchange.wrote, exchange.answer with
    | true, some .error => some (fence.fail exchange)
    | true, some _ => some { fence with exchange := none }
    | _, _ => none
  | .record =>
    match fence.stage, fence.exchange with
    | .answered bytes, none => some { fence with
        stage := .recorded bytes
        slice := if 0 < bytes ∧ up then some bytes else fence.slice }
    | _, _ => none
  | .leaf taken =>
    let goes (sliced : Bool) : FenceSlice :=
      if taken && up then { fence with leafed := true, stage := .live sliced }.send true .leaf
      else { fence with stage := .over }
    match fence.stage with
    | .new => some (goes true)
    | .recorded bytes => some (goes (fence.engine.size = some bytes))
    | _ => none
  | .releaf taken =>
    if fence.stage.early then none
    else some ({ fence with leafed := true }.send (taken && up) .leaf)
  | .unhold taken =>
    if fence.stage.early then none
    else some (fence.send (taken && up) .unhold)
  | .unleaf taken =>
    if fence.stage.early then none
    else some ({ fence with leafed := false, slice := none, stage := .over }.send
      (taken && up && fence.leafed) .unleaf)
  | .evict taken =>
    if fence.stage.early then none
    else some (fence.send (taken && up) .evict)
  | .take ok bytes =>
    match up, fence.engine.inbox with
    | true, line :: inbox =>
      some { fence with engine := { fence.engine with inbox }.take ok bytes line }
    | _, _ => none
  | .request bytes =>
    -- a held slice is not changed
    if up ∧ fence.engine.mapped ∧ fence.engine.held = false then
      some { fence with engine := { fence.engine with size := some bytes }.say (.device bytes) }
    else none
  | .read =>
    match up, fence.engine.outbox with
    | true, report :: outbox =>
      some ({ fence with engine.outbox := outbox }.apply report)
    | _, _ => none

end FenceSlice

inductive SliceLabel where
  | start
  | down
  | of (fence : String) (step : SliceStep)

structure SliceHost where
  up : Bool := false
  fences : Table String FenceSlice := ∅

namespace SliceHost

def slot (host : SliceHost) (fence : String) : FenceSlice :=
  (host.fences.get fence).getD {}

def step (host : SliceHost) : SliceLabel → Option SliceHost
  | .start =>
    if host.up then none else some { up := true, fences := host.fences.map FenceSlice.start }
  | .down => some { up := false, fences := host.fences.map FenceSlice.down }
  | .of fence label => ((host.slot fence).step host.up label).map fun next =>
    { host with fences := host.fences.put fence next }

end SliceHost

def sliceMachine : Machine SliceHost SliceLabel where
  start host := host = {}
  step := SliceHost.step

namespace EngineSlice

/-- The sizes on their way to fiberd were told. -/
def Told (slice : EngineSlice) : Prop :=
  ∀ report ∈ slice.outbox, ∀ bytes, report.size = some bytes → bytes ∈ slice.told

/-- Nothing but a RESTORE has reached the engine. -/
structure Clear (slice : EngineSlice) : Prop where
  mapped : slice.mapped = false
  leaf : .leaf ∉ slice.inbox
  evict : .evict ∉ slice.inbox
  size : ∀ report ∈ slice.outbox, ∀ bytes, report.size = some bytes → slice.size = some bytes

variable {slice : EngineSlice} {ok : Bool} {bytes : Nat} {line : SliceLine}
  {inbox : List SliceLine}

theorem Told.say (told : slice.Told) (report : SliceReport) : (slice.say report).Told := by
  intro other mem size sized
  simp only [EngineSlice.say, List.mem_append, List.mem_singleton, Option.mem_toList] at mem ⊢
  obtain old | rfl := mem
  · exact .inr (told other old size sized)
  · exact .inl sized

theorem Told.take (told : slice.Told) : (slice.take ok bytes line).Told := by
  unfold EngineSlice.take
  repeat' split
  all_goals first
    | exact told
    | exact Told.say told _
    | exact Told.say (Told.say told _) _

theorem take_told {size : Nat} (told : size ∈ slice.told) :
    size ∈ (slice.take ok bytes line).told := by
  unfold take
  repeat' split
  all_goals simp [say, told]

theorem Clear.say (clear : slice.Clear) {report : SliceReport}
    (sized : ∀ bytes, report.size = some bytes → slice.size = some bytes) :
    (slice.say report).Clear := by
  refine { clear with size := fun other mem => ?_ }
  obtain old | rfl := List.mem_append.mp mem |>.imp_right List.mem_singleton.mp
  · exact clear.size other old
  · exact sized

theorem Clear.take (clear : slice.Clear) (head : slice.inbox = line :: inbox) :
    ({ slice with inbox }.take ok bytes line).Clear ∧ ∀ size, slice.size = some size →
      ({ slice with inbox }.take ok bytes line).size = some size := by
  have leaf := clear.leaf
  have evict := clear.evict
  simp only [head, List.mem_cons, not_or] at leaf evict
  have rest : Clear { slice with inbox } := { clear with leaf := leaf.2, evict := evict.2 }
  cases line with
  | leaf => exact absurd rfl leaf.1
  | evict => exact absurd rfl evict.1
  | unleaf => exact ⟨{ rest with mapped := rfl }, fun _ => id⟩
  | unhold => exact ⟨{ rest with }, fun _ => id⟩
  | ask verb =>
    have refused : ({ slice with inbox }.say .error).Clear := rest.say nofun
    cases ok
    · exact ⟨refused, fun _ => id⟩
    cases verb with
    | hold =>
      have has : Clear { slice with inbox, held := true } := { rest with }
      exact ⟨has.say nofun, fun _ => id⟩
    | save => exact ⟨rest.say nofun, fun _ => id⟩
    | restore =>
      simp only [EngineSlice.take, if_true]
      split
      · rename_i free
        have sized : Clear { slice with inbox, size := some bytes } :=
          { rest with size := fun report mem size told =>
              nomatch (rest.size report mem size told).symm.trans free.1 }
        exact ⟨(sized.say fun _ => id).say fun _ => id, by simp [free.1]⟩
      · exact ⟨refused, fun _ => id⟩

end EngineSlice

namespace FenceSlice

structure Sliced (fence : FenceSlice) (up : Bool) : Prop where
  sliced : ∀ sliced, fence.stage = .live sliced → sliced = true
  told : ∀ bytes, fence.slice = some bytes → up = true ∧ bytes ∈ fence.engine.told

structure Kept (fence : FenceSlice) (up : Bool) : Prop extends Sliced fence up where
  sent : fence.engine.Told
  asks : ∀ exchange, fence.exchange = some exchange → exchange.verb = .restore →
    fence.stage.asks = true
  clear : fence.stage.early = true → fence.leafed = false ∧ fence.engine.Clear
  ready : ∀ bytes, fence.stage.restored = some bytes → up = true →
    fence.engine.size = some bytes ∧ bytes ∈ fence.engine.told

variable {fence next : FenceSlice} {up : Bool}

theorem Kept.send (kept : fence.Kept up) {took : Bool} {line : SliceLine}
    (late : line = .leaf ∨ line = .evict → fence.stage.early = false) :
    (fence.send took line).Kept up := by
  unfold FenceSlice.send
  split
  · refine { kept with clear := fun early => ?_ }
    obtain ⟨unkept, clear⟩ := kept.clear early
    refine ⟨unkept, { clear with leaf := ?_, evict := ?_ }⟩
    · have other : line ≠ .leaf := by
        rintro rfl
        simp [late] at early
      simp [clear.leaf, other.symm]
    · have other : line ≠ .evict := by
        rintro rfl
        simp [late] at early
      simp [clear.evict, other.symm]
  · exact kept

theorem Kept.fail (kept : fence.Kept up) (exchange : Exchange) : (fence.fail exchange).Kept up := by
  unfold FenceSlice.fail
  split
  · exact { kept with sliced := nofun, asks := nofun, clear := nofun, ready := nofun }
  · exact { kept with asks := nofun }

theorem early_of_asks {stage : SliceStage} (asks : stage.asks = true) : stage.early = true := by
  cases stage <;> first | rfl | cases asks

theorem early_of_restored {stage : SliceStage} {bytes : Nat}
    (between : stage.restored = some bytes) : stage.early = true := by
  cases stage <;> first | rfl | cases between

variable (kept : fence.Kept up)
include kept

theorem Kept.engine {engine : EngineSlice} (sent : engine.Told)
    (told : ∀ bytes ∈ fence.engine.told, bytes ∈ engine.told)
    (clear : fence.engine.Clear → engine.Clear ∧ ∀ bytes, fence.engine.size = some bytes →
      engine.size = some bytes) :
    Kept { fence with engine } up := by
  refine ⟨⟨kept.sliced, fun bytes got => ?_⟩, sent, kept.asks, fun early => ?_,
    fun bytes between isUp => ?_⟩
  · exact ⟨(kept.told bytes got).1, told _ (kept.told bytes got).2⟩
  · exact ⟨(kept.clear early).1, (clear (kept.clear early).2).1⟩
  · obtain ⟨size, said⟩ := kept.ready bytes between isUp
    exact ⟨(clear (kept.clear (early_of_restored between)).2).2 bytes size, told _ said⟩

theorem Kept.deliver {report : SliceReport}
    (sized : ∀ bytes, report.size = some bytes → bytes ∈ fence.engine.told ∧
      (fence.stage.early = true → fence.engine.size = some bytes)) :
    (fence.deliver report).Kept up := by
  unfold FenceSlice.deliver
  split
  · exact kept
  rename_i exchange waiting
  have answered : Kept { fence with
      exchange := some { exchange with waits := false, answer := some report } } up :=
    { kept with asks := by rintro _ ⟨⟩; exact kept.asks exchange waiting }
  dsimp only
  split
  · rename_i verb bytes
    split
    · rename_i mine
      split
      · rename_i restore
        have early := early_of_asks (kept.asks exchange waiting (mine.2 ▸ restore))
        obtain ⟨said, size⟩ := sized bytes (by rw [restore]; rfl)
        exact { answered with
          sliced := nofun
          asks := fun _ _ _ => rfl
          clear := fun _ => kept.clear early
          ready := by rintro _ ⟨⟩ _; exact ⟨size early, said⟩ }
      · exact answered
    · exact kept
  · split
    · exact answered
    · exact kept
  · exact kept

theorem Kept.read (took : fence.step up .read = some next) : next.Kept up := by
  simp only [step] at took
  split at took <;> cases took
  rename_i report outbox first
  have rest : Kept { fence with engine.outbox := outbox } true :=
    kept.engine (fun other mem => kept.sent other (by simp [first, mem])) (fun _ => id)
      fun clear => ⟨{ clear with
        size := fun other mem => clear.size other (by simp [first, mem]) }, fun _ => id⟩
  have said : ∀ bytes, report.size = some bytes → bytes ∈ fence.engine.told :=
    kept.sent report (by simp [first])
  unfold apply
  split
  · rename_i bytes
    split
    · exact { rest with told := nofun }
    · split
      · exact { rest with told := by rintro _ ⟨⟩; exact ⟨rfl, said _ rfl⟩ }
      · exact rest
  · exact rest.deliver fun bytes told => ⟨said bytes told, fun early =>
      (kept.clear early).2.size report (by simp [first]) bytes told⟩

theorem Kept.step {label : SliceStep} (taken : fence.step up label = some next) : next.Kept up := by
  cases label with
  | begin verb =>
    simp only [FenceSlice.step] at taken
    split at taken
    case isFalse => cases taken
    split at taken
    · split at taken <;> cases taken
      rename_i new
      exact { kept with
        sliced := nofun
        asks := fun _ _ _ => rfl
        clear := fun _ => kept.clear (new ▸ rfl)
        ready := nofun }
    · rename_i other
      split at taken <;> cases taken
      exact { kept with asks := by rintro _ ⟨⟩ restore; exact absurd restore other }
  | write ok =>
    obtain ⟨exchange, found, taken⟩ := Option.bind_eq_some_iff.mp taken
    split at taken
    · cases taken
    split at taken <;> cases taken
    · have wrote : Kept { fence with exchange := some { exchange with wrote := true } } up :=
        { kept with asks := by rintro _ ⟨⟩; exact kept.asks exchange found }
      exact wrote.send (by simp)
    · exact kept.fail exchange
  | giveUp =>
    obtain ⟨exchange, _, rfl⟩ := Option.map_eq_some_iff.mp taken
    exact kept.fail exchange
  | finish =>
    obtain ⟨exchange, _, taken⟩ := Option.bind_eq_some_iff.mp taken
    split at taken <;> cases taken
    · exact kept.fail exchange
    · exact { kept with asks := nofun }
  | record =>
    simp only [FenceSlice.step] at taken
    split at taken <;> cases taken
    rename_i bytes answered idle
    have ready := kept.ready bytes (answered ▸ rfl)
    exact { kept with
      sliced := nofun
      told := by
        intro size
        dsimp only
        split
        · rename_i both
          rintro ⟨⟩
          exact ⟨both.2, (ready both.2).2⟩
        · exact kept.told size
      asks := by simp [idle]
      clear := fun _ => kept.clear (answered ▸ rfl)
      ready := by rintro _ ⟨⟩; exact ready }
  | leaf ok =>
    have goes : ∀ sliced, fence.stage.asks = false → (up = true → sliced = true) → Kept (if ok && up
        then { fence with leafed := true, stage := .live sliced }.send true .leaf
        else { fence with stage := .over }) up := by
      intro sliced idle whole
      have none : ∀ exchange, fence.exchange = some exchange → exchange.verb ≠ .restore := by
        intro exchange found restore
        simp [kept.asks exchange found restore] at idle
      split
      · rename_i both
        have lives : Kept { fence with leafed := true, stage := .live sliced } up :=
          { kept with
            sliced := by rintro _ ⟨⟩; exact whole (by simp_all)
            asks := fun exchange found restore => absurd restore (none exchange found)
            clear := nofun
            ready := nofun }
        exact lives.send fun _ => rfl
      · exact { kept with
          sliced := nofun
          asks := fun exchange found restore => absurd restore (none exchange found)
          clear := nofun
          ready := nofun }
    simp only [FenceSlice.step] at taken
    split at taken <;> cases taken
    · rename_i new
      exact goes true (new ▸ rfl) fun _ => rfl
    · rename_i bytes recorded
      exact goes _ (recorded ▸ rfl) fun isUp => by
        simpa using (kept.ready bytes (recorded ▸ rfl) isUp).1
  | read => exact kept.read taken
  | take ok bytes =>
    simp only [FenceSlice.step] at taken
    split at taken <;> cases taken
    rename_i line inbox first
    exact kept.engine (EngineSlice.Told.take kept.sent) (fun _ said => EngineSlice.take_told said)
      fun clear => clear.take first
  | request bytes =>
    simp only [FenceSlice.step, Option.ite_none_right_eq_some, Option.some.injEq] at taken
    obtain ⟨⟨_, mapped, _⟩, rfl⟩ := taken
    refine kept.engine (EngineSlice.Told.say kept.sent _)
      (fun _ said => by simp [EngineSlice.say, said]) fun clear => ?_
    simp [clear.mapped] at mapped
  | releaf ok =>
    simp only [FenceSlice.step, Option.ite_none_left_eq_some, Option.some.injEq,
      Bool.not_eq_true] at taken
    obtain ⟨late, rfl⟩ := taken
    have leafed : Kept { fence with leafed := true } up :=
      { kept with clear := fun early => by simp [late] at early }
    exact leafed.send fun _ => late
  | unhold ok =>
    simp only [FenceSlice.step, Option.ite_none_left_eq_some, Option.some.injEq] at taken
    obtain ⟨_, rfl⟩ := taken
    exact kept.send (by simp)
  | evict ok =>
    simp only [FenceSlice.step, Option.ite_none_left_eq_some, Option.some.injEq,
      Bool.not_eq_true] at taken
    obtain ⟨late, rfl⟩ := taken
    exact kept.send fun _ => late
  | unleaf ok =>
    simp only [FenceSlice.step, Option.ite_none_left_eq_some, Option.some.injEq] at taken
    obtain ⟨late, rfl⟩ := taken
    have ended : Kept { fence with leafed := false, slice := none, stage := .over } up :=
      { kept with
        sliced := nofun
        told := nofun
        asks := fun exchange found restore =>
          absurd (early_of_asks (kept.asks exchange found restore)) late
        clear := nofun
        ready := nofun }
    exact ended.send (by simp)

theorem Kept.start (none : fence.stage.restored = none) : fence.start.Kept true :=
  { kept with
    told := nofun
    sent := nofun
    clear := fun early => by
      obtain ⟨unkept, _⟩ := kept.clear early
      exact ⟨unkept, rfl, by simp [FenceSlice.start, unkept], by simp [FenceSlice.start, unkept],
        nofun⟩
    ready := by simp [FenceSlice.start, none] }

theorem Kept.down : fence.down.Kept false :=
  { kept with
    told := nofun
    sent := nofun
    asks := by
      intro exchange got
      obtain ⟨old, waiting, rfl⟩ := Option.map_eq_some_iff.mp got
      exact kept.asks old waiting
    clear := fun early => ⟨(kept.clear early).1, rfl, nofun, nofun, nofun⟩
    ready := nofun }

end FenceSlice

namespace SliceHost

/-- No engine comes up while a resume is between the answer to its RESTORE and its LEAF. -/
def settled (host : SliceHost) : SliceLabel → Bool
  | .start => host.fences.rows.all fun row => row.2.stage.restored.isNone
  | _ => true

def Sliced (host : SliceHost) : Prop :=
  ∀ fence, (host.slot fence).Sliced host.up

variable {host next : SliceHost}

theorem slot_map {change : FenceSlice → FenceSlice} (same : change {} = {}) (up : Bool)
    (fence : String) : slot ⟨up, host.fences.map change⟩ fence = change (host.slot fence) := by
  unfold slot
  cases got : host.fences.get fence <;> simp [got, same]

theorem settled_slot (calm : host.settled .start = true) (fence : String) :
    (host.slot fence).stage.restored = none := by
  unfold slot
  cases got : host.fences.get fence with
  | none => rfl
  | some slice =>
    have none := List.all_eq_true.mp calm _ ((mem_rows_iff _ _ _).mpr got)
    simpa using none

def Kept (host : SliceHost) : Prop :=
  ∀ fence, (host.slot fence).Kept host.up

theorem Kept.step {label : SliceLabel} (kept : host.Kept) (calm : host.settled label = true)
    (took : host.step label = some next) : next.Kept := by
  intro fence
  have old := kept fence
  cases label with
  | start =>
    simp only [SliceHost.step] at took
    split at took <;> cases took
    rw [slot_map rfl]
    exact old.start (settled_slot calm fence)
  | down =>
    cases took
    rw [slot_map rfl]
    exact old.down
  | of named label =>
    obtain ⟨slice, moved, rfl⟩ := Option.map_eq_some_iff.mp took
    by_cases same : fence = named
    · subst named
      simpa [slot] using old.step moved
    · simpa [slot, get_put_other _ _ same] using old

end SliceHost

theorem resumed_sliced {final : SliceHost} {labels : List SliceLabel}
    (meets : sliceMachine.Meets (fun host label => host.settled label = true) {} labels)
    (run : sliceMachine.exec {} labels = some final) : final.Sliced := by
  have born : SliceHost.Kept {} := fun _ =>
    ⟨⟨nofun, nofun⟩, nofun, nofun, fun _ => ⟨rfl, rfl, nofun, nofun, nofun⟩, nofun⟩
  have kept := exec_keeps_of_meets (fun _ _ _ kept calm taken => kept.step calm taken) born meets
    run
  exact fun fence => (kept fence).toSliced

def askedSlice : List SliceLabel :=
  .start :: [.begin .restore, .write true, .take true 4, .read, .finish].map (.of "g/1/2")

def recordedSlice : List SliceLabel :=
  [.of "g/1/2" .record, .of "g/1/2" (.leaf true)]

theorem resumed_slice_sliced : ∃ final,
    sliceMachine.exec {} (askedSlice ++ recordedSlice) = some final ∧
      (final.slot "g/1/2").slice = some 4 ∧ final.Sliced := by
  obtain ⟨final, run, recorded⟩ : ∃ final, sliceMachine.exec {} (askedSlice ++ recordedSlice) =
    some final ∧ (final.slot "g/1/2").slice = some 4 := by decide +kernel
  exact ⟨final, run, recorded, resumed_sliced (by decide +kernel) run⟩

/-- The engine that restored the slice is gone when the size is recorded and the LEAF sent. -/
theorem restarted_slice_lost : ∃ final,
    sliceMachine.exec {} (askedSlice ++ .down :: .start :: recordedSlice) = some final ∧
      ¬final.Sliced := by
  obtain ⟨final, run, stage⟩ : ∃ final, sliceMachine.exec {} (askedSlice ++ .down :: .start ::
    recordedSlice) = some final ∧ (final.slot "g/1/2").stage = .live false := by decide +kernel
  refine ⟨final, run, fun sliced => ?_⟩
  cases (sliced "g/1/2").sliced false stage

end Fiberd
