import Fiberd.Home.HomeTemplates

/-!
What a yield leaves to the admissions that come after its revocation: the
resources of the host they rely on, the fibers committed under them, and a warm
instance that is the backend's own.
-/

namespace Fiberd

open Heaps Tables Programs Machines LedgerSystem

inductive Resource where
  | warm (uid : String) (number : Nat)
  | backend (uid : String) (number : Nat)
  | engine (engine : Nat)
  | engineDir (uid : String)
  | snapshot (snapshot : Nat)
  | identity (uid : String)
  deriving DecidableEq

namespace Host

def Keeps (host : Host) : Resource → Prop
  | .warm uid number => ∃ warm, host.warms.get uid = some warm ∧ warm.number = number
  | .backend uid number => host.instances.get uid = some number
  | .engine engine => host.engineCells.read engine = {}
  | .engineDir uid => host.engineDirs.get uid ≠ none
  | .snapshot snapshot => host.snapshots.read snapshot = true
  | .identity uid => host.identities.get uid ≠ none

def resources (host : Host) (uid : String) (warm : Warm) : List Resource :=
  [.warm uid warm.number, .backend uid warm.number, .engineDir uid] ++
    (warm.snapshot.map .snapshot).toList ++ ((host.engines.get uid).map .engine).toList

def uses (host : Host) : HostAct → List Resource
  | .enterPrepare uid =>
    match host.warms.get uid with
    | some warm => host.resources uid warm
    | none => []
  | .openSnapshot => [.snapshot host.snapshots.size]
  | .warm uid => [.backend uid host.instanceCount]
  | .publish uid warm => host.resources uid warm
  | .recordIdentity uid _ => [.identity uid]
  | .ensureEngineDir uid => [.engineDir uid]
  | .enterEngine uid gone =>
    match (host.enterEngine uid gone).1 with
    | .found engine | .started engine => [.engine engine]
    | .stopping _ => []
  | _ => []

end Host

def actOf (threads : HomeThreads) : HomeEvent → Option (Nat × Act)
  | .start _ _ => none
  | .act thread _ =>
    match threads.programs.get thread with
    | some (.call action _) => some (thread, action)
    | _ => none

def UsesFrom (uid : String) (slot : Nat) (resource : Resource) (threads : HomeThreads)
    (event : HomeEvent) : Prop :=
  threads.shared.admitting.get uid = some slot ∧
    ∃ action, actOf threads event =
      some ((threads.shared.channels.read slot).owner, .host action) ∧
        resource ∈ threads.shared.host.uses action

def AdmitsFrom (uid : String) (slot : Nat) (threads : HomeThreads) (event : HomeEvent) : Prop :=
  threads.shared.admitting.get uid = some slot ∧
    ∃ grant, actOf threads event =
      some ((threads.shared.channels.read slot).owner, .admitGrant grant) ∧ grant.uid = uid

def Home.YieldsFrom (uid : String) (mark yielder : Nat) (home : Home) : Prop :=
  home.yielding.get yielder = some (uid, mark)

def Home.TemplateStands (home : Home) (uid : String) : Prop :=
  (∀ thread mark, home.yielding.get thread ≠ some (uid, mark)) → home.admitting.get uid = none →
    home.host.died.get uid = none → home.ledger.grants.get uid ≠ none →
      ∃ warm, home.host.warms.get uid = some warm ∧
        home.host.instances.get uid = some warm.number

/-- A yield tears nothing down of an admission that is completed after its revocation.  The
admission uses a resource, lets its grant in, and the yield takes a step after the use: before
the grant is let in, or after it and in the same yield. -/
structure SparesAdmissions (config : HomeConfig) (first : HomeThreads)
    (events : List HomeEvent) : Prop where
  resources : ∀ uid slot resource yielder mark used admitted torn user admitter tearer next
      useEvent admitEvent tearAnswer,
    (homeKernel config).machine.Takes first events used user useEvent →
    (homeKernel config).machine.Takes first events admitted admitter admitEvent →
    (homeKernel config).machine.Takes first events torn tearer (.act yielder tearAnswer) →
    UsesFrom uid slot resource user useEvent → AdmitsFrom uid slot admitter admitEvent →
    tearer.shared.YieldsFrom uid mark yielder → used < admitted → used < torn →
    torn < admitted ∨ admitter.shared.YieldsFrom uid mark yielder →
    (homeKernel config).machine.step tearer (.act yielder tearAnswer) = some next →
    tearer.shared.host.Keeps resource → next.shared.host.Keeps resource
  fibers : ∀ uid yielder mark torn tearer next tearAnswer id ref origin,
    (homeKernel config).machine.Takes first events torn tearer (.act yielder tearAnswer) →
    tearer.shared.YieldsFrom uid mark yielder →
    (homeKernel config).machine.step tearer (.act yielder tearAnswer) = some next →
    tearer.shared.ledger.fibers.get id = some ref → ref.grantUID = uid →
    tearer.shared.system.origins.get id = some origin → mark ≤ origin →
    next.shared.ledger.fibers.get id ≠ none ∧ ∀ dropped,
      actOf tearer (.act yielder tearAnswer) ≠ some (yielder, .ask (.release id dropped))
  stands : (homeKernel config).machine.Along
    (fun threads => ∀ uid, threads.shared.TemplateStands uid) first events

structure Home.SlotsGrow (home next : Home) : Prop where
  size : home.channels.size ≤ next.channels.size
  fresh : ∀ uid slot, next.admitting.get uid = some slot →
    home.admitting.get uid = some slot ∨ home.channels.size ≤ slot

theorem Home.slotsGrow_of_same {home next : Home} (admitting : next.admitting = home.admitting)
    (channels : next.channels = home.channels) : home.SlotsGrow next :=
  ⟨by rw [channels], fun _ _ got => .inl (admitting ▸ got)⟩

theorem Home.perform_slots {home next : Home} {tid : Nat} {action : Act} {answer : Answer}
    {out : action.Result} (ran : home.perform tid action answer = some (out, next)) :
    home.SlotsGrow next := by
  cases perform_effect ran with
  | still _ locks _ _ | plain _ _ locks _ | admitted _ locks _ | resolved _ _ locks _
  | committed _ _ locks _ | closed _ locks _ | refused _ locks _ =>
    exact slotsGrow_of_same locks.admitting locks.channels
  | passed _ _ admitting channels _ =>
    exact ⟨by rw [channels, size_write], fun _ _ got => .inl (admitting ▸ got)⟩
  | entered _ =>
    refine ⟨by simp, ?_⟩
    intro uid slot got
    obtain ⟨_, got⟩ | ⟨_, got⟩ := get_put_eq_some got
    · exact .inr (Nat.le_of_eq got)
    · exact .inl got
  | leftSlot =>
    refine ⟨Nat.le_refl _, ?_⟩
    intro uid slot got
    obtain ⟨_, got⟩ := get_drop_eq_some got
    exact .inl got
  | closedSlot => exact ⟨by simp, fun _ _ got => .inl got⟩
  | _ => exact slotsGrow_of_same rfl rfl

def slotsRely : Nat → Home → Act → Answer → Home → Prop :=
  fun _ home _ _ next => home.SlotsGrow next

theorem slotGone_kept (uid : String) (slot : Nat) : KeptBy slotsRely fun home =>
    slot < home.channels.size ∧ home.admitting.get uid ≠ some slot := by
  rintro _ home _ _ next grows ⟨bound, gone⟩
  refine ⟨Nat.lt_of_lt_of_le bound grows.size, ?_⟩
  intro got
  rcases grows.fresh uid slot got with old | fresh
  · exact gone old
  · exact Nat.not_lt_of_le fresh bound

theorem slotBound_kept (slot : Nat) : KeptBy slotsRely fun home => slot < home.channels.size :=
  fun _ _ _ _ _ grows bound => Nat.lt_of_lt_of_le bound grows.size

section Apart

variable {config : HomeConfig} {first : HomeThreads} {events : List HomeEvent}

theorem kept_of_apart (started : (homeKernel config).machine.start first)
    (apart : (homeKernel config).machine.Meets (Kernel.Allows yieldsApart) first events)
    {count : Nat} {threads : HomeThreads}
    (run : (homeKernel config).machine.exec first (events.take count) = some threads) :
    threads.shared.Ok ∧ TemplatesKept threads.shared := by
  have reached : ((homeKernel config).guarded yieldsApart).machine.Reachable threads :=
    ⟨first, events.take count, started, Kernel.guarded_exec (apart.take count) run⟩
  have kept : (templateProtocol config).Kept threads := Protocol.kept_of_reachable reached
  exact kept.inv

theorem slot_between {user tearer admitter : HomeThreads} {uid : String} {slot used torn admitted : Nat}
    {useEvent tearEvent admitEvent : HomeEvent} (ok : user.shared.Ok)
    (uses : (homeKernel config).machine.Takes first events used user useEvent)
    (tears : (homeKernel config).machine.Takes first events torn tearer tearEvent)
    (admits : (homeKernel config).machine.Takes first events admitted admitter admitEvent)
    (old : used < torn) (after : torn < admitted) (here : user.shared.admitting.get uid = some slot)
    (there : admitter.shared.admitting.get uid = some slot) :
    tearer.shared.admitting.get uid = some slot := by
  by_contra gone
  obtain ⟨next, segment, took, run⟩ := uses.leads tears old
  obtain ⟨later, rest, takenLater, runLater⟩ := tears.leads admits after
  have relies : ∀ threads labels, (homeKernel config).machine.Meets
      (Relies (homeKernel config) slotsRely) threads labels :=
    meets_of_forall (relies_of_perform fun _ _ _ _ _ _ => Home.perform_slots)
  have bound : slot < tearer.shared.channels.size :=
    relies_keep (slotBound_kept slot) (relies user (useEvent :: segment))
      (exec_cons_eq_some.mpr ⟨next, took, run⟩) (ok.slots.placed uid slot here).1
  have absent := relies_keep (slotGone_kept uid slot) (relies tearer (tearEvent :: rest))
    (exec_cons_eq_some.mpr ⟨later, takenLater, runLater⟩) ⟨bound, gone⟩
  exact absent.2 there

end Apart

def droppingHome : HomeConfig := { dropsTemplates := true }

/-- A grant is let in, yielded, and let in again after that. -/
def serialRun : List HomeEvent :=
  admittedRun ++ .start 2 (.yield "g" "idle") :: answered 2 (List.replicate 11 (.flag true)) ++
    .start 3 (.coreAdmit 1 plainGrant) :: answered 3 admitAnswers

/-- The grant is let in again between the revocation of its yield and the drop of its template. -/
def tornRun : List HomeEvent :=
  admittedRun ++ .start 2 (.yield "g" "idle") :: answered 2 (List.replicate 3 (.flag true)) ++
    .start 3 (.coreAdmit 1 plainGrant) ::
      answered 3 [.time 0, .flag true, .time 0, .flag true, .flag true, .flag true, .flag true,
        .flag true, .flag true, .flag true, .flag true, .flag true] ++
    answered 2 (List.replicate 8 (.flag true))

end Fiberd
