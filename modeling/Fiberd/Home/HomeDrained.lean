import Fiberd.Home.HomeDrain
import Fiberd.Home.HomeReaper
import Mathlib.Data.Fintype.EquivFin

/-!
A drain is complete and final.  No fiber is recorded once its flag is set, so the
lists run out of fibers it has not tried, and what is left in the ledger at the end
are the fibers it tried and failed to end.
-/

namespace Fiberd

open Heaps Tables Programs Machines LedgerSystem

namespace Drain

def pending (drain : Drain) : List Ledger.FiberInfo :=
  match drain.phase with
  | .grants _ => drain.named ++ drain.anon
  | .batch rest _ _ | .waiting rest _ _ => rest
  | _ => []

def places (pending : List Ledger.FiberInfo) (workers : List (Nat × Ledger.FiberInfo))
    (fates : List (String × Fate)) : List String :=
  pending.map Ledger.FiberInfo.id ++
    (workers.map (fun worker => worker.2.id) ++ fates.map Prod.fst)

def placed (drain : Drain) : List String := places drain.pending drain.workers drain.fates

section Places

variable {pending other : List Ledger.FiberInfo} {workers : List (Nat × Ledger.FiberInfo)}
  {fates : List (String × Fate)} {info : Ledger.FiberInfo}

theorem places_cons (more : other.Perm (info :: pending)) :
    (places other workers fates).Perm (info.id :: places pending workers fates) :=
  (more.map Ledger.FiberInfo.id).append_right _

theorem places_collect {thread : Nat} (mem : (thread, info) ∈ workers) (fate : Fate) :
    (places pending (workers.erase (thread, info)) (fates ++ [(info.id, fate)])).Perm
      (places pending workers fates) := by
  refine List.Perm.append_left _ ?_
  have took := (List.perm_cons_erase mem).map fun worker => worker.2.id
  refine List.Perm.trans ?_ (took.append_right _).symm
  simp only [List.map_append, List.map_cons, List.map_nil, ← List.append_assoc]
  exact List.perm_append_singleton _ _

theorem places_left (fate : Fate) :
    (places [] workers (fates ++ pending.map fun info => (info.id, fate))).Perm
      (places pending workers fates) := by
  have ids : (pending.map fun info => (info.id, fate)).map Prod.fst =
      pending.map Ledger.FiberInfo.id := by
    simp
  simp only [places, List.map_append, List.map_nil, List.nil_append, ids, ← List.append_assoc]
  exact List.perm_append_comm.trans (by simp)

end Places

end Drain

def DrainReport.count (report : DrainReport) : Fate → Nat
  | .parked => report.parked
  | .shed => report.shed
  | .failed => report.failed
  | .left => report.left
  | .skipped => 0

def fateCount (fates : List (String × Fate)) (fate : Fate) : Nat :=
  fates.countP fun entry => decide (entry.2 = fate)

structure Drain.Accounts (drain : Drain) : Prop where
  distinct : drain.tried.Nodup
  listed : drain.placed.Perm drain.tried
  counted : ∀ fate, fate ≠ .skipped →
    drain.report.count fate + drain.batch.count fate = fateCount drain.fates fate
  sizes : ∀ rest size started, drain.phase = .batch rest size started ∨
    drain.phase = .waiting rest size started → size = started + rest.length
  alone : match drain.phase with
    | .batch _ _ _ | .waiting _ _ _ => True
    | _ => drain.workers = [] ∧ drain.batch = {}
  rounds : match drain.phase with
    | .grants _ => drain.rounds + (drain.named ++ drain.anon).length ≤ drain.tried.length + 1
    | .returned => drain.rounds ≤ drain.tried.length + 1
    | _ => drain.rounds ≤ drain.tried.length

namespace Drain

theorem accounts_new : ({} : Drain).Accounts := by
  constructor
  · exact List.nodup_nil
  · exact List.Perm.refl _
  · intro fate _
    cases fate <;> rfl
  · rintro _ _ _ (phase | phase) <;> simp at phase
  · exact ⟨rfl, rfl⟩
  · exact Nat.le_refl _

variable {drain : Drain}

theorem Accounts.begun (accounts : drain.Accounts) (idle : drain.phase = .idle)
    (recorded : List String) :
    ({ drain with phase := .listing, recorded := recorded } : Drain).Accounts := by
  obtain ⟨distinct, listed, counted, _, alone, rounds⟩ := accounts
  simp only [idle] at alone rounds
  exact ⟨distinct, by simpa [placed, pending, idle] using listed, counted, by simp, alone, rounds⟩

theorem Accounts.statuses (accounts : drain.Accounts) (listing : drain.phase = .listing)
    (uids : List String) :
    ({ drain with
        phase := .grants uids
        named := []
        anon := []
        rounds := drain.rounds + 1 } : Drain).Accounts := by
  obtain ⟨nodup, listed, counted, _, alone, rounds⟩ := accounts
  simp only [listing] at alone rounds
  refine ⟨nodup, by simpa [placed, pending, listing] using listed, counted, by simp, alone, ?_⟩
  simpa using rounds

variable {uids : List String}

theorem Accounts.list (accounts : drain.Accounts)
    (grants : drain.phase = .grants uids) (info : Ledger.FiberInfo) :
    (drain.list info).Accounts ∧ (drain.list info).phase = .grants uids := by
  unfold Drain.list
  by_cases tried : info.id ∈ drain.tried
  · simp only [tried, if_true]
    exact ⟨accounts, grants⟩
  · obtain ⟨nodup, listed, counted, _, alone, rounds⟩ := accounts
    simp only [grants] at alone rounds
    have fresh : (drain.tried ++ [info.id]).Nodup := by
      rw [List.nodup_append]
      refine ⟨nodup, List.nodup_singleton _, ?_⟩
      rintro id mem _ only rfl
      simp only [List.mem_singleton] at only
      exact tried (only ▸ mem)
    have added : (info.id :: drain.placed).Perm (drain.tried ++ [info.id]) :=
      (listed.cons info.id).trans (List.perm_append_singleton _ _).symm
    simp only [placed, pending, grants] at added
    simp only [tried, if_false]
    split
    · refine ⟨⟨fresh, List.Perm.trans ?_ added, counted, by simp [grants],
        by simpa [grants] using alone, ?_⟩, grants⟩
      · simp only [placed, pending, grants]
        exact places_cons (by simp [List.perm_middle])
      · simp only [grants, List.length_append, List.length_singleton] at rounds ⊢
        omega
    · refine ⟨⟨fresh, List.Perm.trans ?_ added, counted, by simp [grants],
        by simpa [grants] using alone, ?_⟩, grants⟩
      · simp only [placed, pending, grants]
        refine places_cons ?_
        rw [← List.append_assoc]
        exact List.perm_append_singleton _ _
      · simp only [grants, List.length_append, List.length_singleton] at rounds ⊢
        omega

theorem Accounts.listAll (fibers : List Ledger.FiberInfo)
    (accounts : drain.Accounts) (grants : drain.phase = .grants uids) :
    (drain.listAll fibers).Accounts ∧ (drain.listAll fibers).phase = .grants uids := by
  induction fibers generalizing drain with
  | nil => exact ⟨accounts, grants⟩
  | cons info fibers ih =>
    obtain ⟨next, phase⟩ := accounts.list grants info
    exact ih next phase

theorem Accounts.narrowed (accounts : drain.Accounts)
    (grants : drain.phase = .grants uids) (rest : List String) :
    ({ drain with phase := .grants rest } : Drain).Accounts := by
  obtain ⟨nodup, listed, counted, _, alone, rounds⟩ := accounts
  simp only [grants] at alone rounds
  exact ⟨nodup, by simpa [placed, pending, grants] using listed, counted, by simp, alone, rounds⟩

theorem fateCount_append (first second : List (String × Fate)) (fate : Fate) :
    fateCount (first ++ second) fate = fateCount first fate + fateCount second fate :=
  List.countP_append

theorem fateCount_left (list : List Ledger.FiberInfo) (fate : Fate) :
    fateCount (list.map fun info => (info.id, .left)) fate =
      if fate = .left then list.length else 0 := by
  induction list with
  | nil => simp [fateCount]
  | cons info list ih =>
    simp only [fateCount, List.map_cons, List.countP_cons] at ih ⊢
    rw [ih]
    by_cases left : fate = .left
    · subst fate
      simp
    · simp [left, Ne.symm left]

theorem close_empty (empty : drain.named ++ drain.anon = []) (ended : Bool) :
    drain.close ended = { drain with phase := .returned } := by
  simp [Drain.close, empty]

theorem close_ended (some : drain.named ++ drain.anon ≠ []) :
    drain.close true = { drain with
      phase := .returned
      report := { drain.report with
        left := drain.report.left + (drain.named ++ drain.anon).length }
      fates := drain.fates ++ (drain.named ++ drain.anon).map fun info => (info.id, .left) } := by
  simp only [Drain.close, List.isEmpty_eq_false_iff.mpr some, Bool.false_eq_true, if_false, if_true]

theorem close_open (some : drain.named ++ drain.anon ≠ []) :
    drain.close false = { drain with
      phase := .batch (drain.named ++ drain.anon) (drain.named ++ drain.anon).length 0
      batch := {} } := by
  simp only [Drain.close, List.isEmpty_eq_false_iff.mpr some, Bool.false_eq_true, if_false]

theorem count_left (report : DrainReport) (more : Nat) (fate : Fate) :
    ({ report with left := report.left + more } : DrainReport).count fate =
      report.count fate + if fate = .left then more else 0 := by
  cases fate <;> rfl

theorem Accounts.close (accounts : drain.Accounts) (grants : drain.phase = .grants [])
    (ended : Bool) : (drain.close ended).Accounts := by
  obtain ⟨nodup, listed, counted, _, alone, rounds⟩ := accounts
  simp only [grants] at alone rounds
  simp only [placed, pending, grants] at listed
  by_cases empty : drain.named ++ drain.anon = []
  · rw [close_empty empty]
    rw [empty] at listed rounds
    exact ⟨nodup, listed, counted, by simp, alone, rounds⟩
  · have positive := List.length_pos_iff.mpr empty
    cases ended with
    | true =>
      rw [close_ended empty]
      refine ⟨nodup, (places_left .left).trans listed, ?_, by simp, alone, by dsimp; omega⟩
      intro fate named
      have before := counted fate named
      rw [count_left, fateCount_append, fateCount_left]
      dsimp only
      omega
    | false =>
      rw [close_open empty]
      refine ⟨nodup, listed, ?_, ?_, trivial, by dsimp; omega⟩
      · rw [alone.2] at counted
        exact counted
      · rintro rest size started (phase | phase)
        · cases phase
          exact (Nat.zero_add _).symm
        · simp at phase

variable {rest : List Ledger.FiberInfo} {size : Nat}

theorem Accounts.started (accounts : drain.Accounts) {info : Ledger.FiberInfo} {started : Nat}
    (batch : drain.phase = .batch (info :: rest) size started) (thread : Nat) :
    ({ drain with
        phase := .batch rest size (started + 1)
        workers := (thread, info) :: drain.workers } : Drain).Accounts := by
  obtain ⟨nodup, listed, counted, sizes, _, rounds⟩ := accounts
  have size_ := sizes _ _ _ (.inl batch)
  simp only [batch] at rounds
  simp only [placed, pending, batch] at listed
  refine ⟨nodup, List.perm_middle.trans listed, counted, ?_, trivial, rounds⟩
  rintro left total begun (phase | phase)
  · cases phase
    simp only [List.length_cons] at size_
    omega
  · simp at phase

theorem Accounts.cut (accounts : drain.Accounts)
    {started : Nat} (batch : drain.phase = .batch rest size started) :
    ({ drain with phase := .waiting rest size started } : Drain).Accounts := by
  obtain ⟨nodup, listed, counted, sizes, _, rounds⟩ := accounts
  simp only [batch] at rounds
  simp only [placed, pending, batch] at listed
  refine ⟨nodup, listed, counted, ?_, trivial, rounds⟩
  rintro left total begun (phase | phase)
  · simp at phase
  · cases phase
    exact sizes _ _ _ (.inl batch)

theorem count_add (report other : DrainReport) (fate : Fate) :
    (report.add other).count fate = report.count fate + other.count fate := by
  cases fate <;> rfl

theorem drainOne_count (info : Ledger.FiberInfo) (outcome : Outcome) (runs : Bool) {fate : Fate}
    (named : fate ≠ .skipped) :
    (drainOne info outcome runs).count fate =
      if (drainOne info outcome runs).fate = fate then 1 else 0 := by
  unfold drainOne
  repeat' split
  all_goals cases fate <;> simp_all [DrainReport.count, DrainReport.fate]

theorem Accounts.collect (accounts : drain.Accounts) {thread : Nat} {info : Ledger.FiberInfo}
    (mem : (thread, info) ∈ drain.workers) (outcome : Outcome) (runs : Bool) :
    (drain.collect thread info (drainOne info outcome runs)).Accounts := by
  obtain ⟨nodup, listed, counted, sizes, alone, rounds⟩ := accounts
  refine ⟨nodup, (places_collect mem _).trans listed, ?_, sizes, ?_, rounds⟩
  · intro fate named
    have before := counted fate named
    have one := drainOne_count info outcome runs named
    simp only [Drain.collect, count_add, fateCount_append, one]
    simp only [fateCount, List.countP_cons, List.countP_nil, decide_eq_true_eq] at before ⊢
    omega
  · simp only [Drain.collect]
    cases phase : drain.phase with
    | batch rest size started => trivial
    | waiting rest size started => trivial
    | _ =>
      simp only [phase] at alone
      simp [alone.1] at mem

theorem Accounts.finish (accounts : drain.Accounts)
    {started : Nat} (waiting : drain.phase = .waiting rest size started)
    (none : drain.workers = []) : (drain.finish rest size started).Accounts := by
  obtain ⟨nodup, listed, counted, sizes, _, rounds⟩ := accounts
  have size_ := sizes _ _ _ (.inr waiting)
  simp only [waiting] at rounds
  simp only [placed, pending, waiting] at listed
  refine ⟨nodup, (places_left .left).trans listed, ?_, by simp [Drain.finish], ⟨none, rfl⟩,
    rounds⟩
  intro fate named
  have before := counted fate named
  have empty : ({} : DrainReport).count fate = 0 := by cases fate <;> rfl
  simp only [Drain.finish, count_add, count_left, fateCount_append, fateCount_left, empty]
  have unstarted : size - started = rest.length := by omega
  rw [unstarted]
  omega

end Drain

variable {threads : HomeThreads}

theorem sealed_step {config : HomeConfig} {next : HomeThreads} {event : HomeEvent}
    (draining : threads.shared.draining = true)
    (took : (homeKernel config).machine.step threads event = some next) :
    threads.shared.Sealed next.shared := by
  cases event with
  | start thread call =>
    obtain ⟨_, rfl⟩ := Kernel.step_start took
    exact ⟨draining, fun id ref got => ⟨ref, got, rfl⟩⟩
  | act thread answer =>
    obtain ⟨action, rest, out, shared, _, ran, rfl⟩ := Kernel.step_act took
    exact Home.perform_sealed draining ran

theorem startDrain_exec {config : HomeConfig} {next : HomeThreads} {thread : Nat}
    (run : (homeKernel config).machine.exec threads
      [.start thread .startDrain, .act thread (.flag true)] = some next) :
    next.shared = { threads.shared with draining := true } := by
  obtain ⟨mid, starts, rest⟩ := exec_cons_eq_some.mp run
  obtain ⟨last, acts, done⟩ := exec_cons_eq_some.mp rest
  simp only [exec_nil] at done
  cases done
  obtain ⟨_, rfl⟩ := Kernel.step_start starts
  obtain ⟨out, shared, ran, rfl⟩ := Kernel.step_act_call (get_put_same _ _ _) acts
  cases ran
  exact rfl

def WorkerDone (info : Ledger.FiberInfo) (outcome : Outcome) (home : Home) : Prop :=
  outcome.settles info.session → FiberGone info.id home

structure DrainKept (config : HomeConfig) (state : DrainState) : Prop where
  reached : (homeKernel config).machine.Reachable state.threads
  accounts : state.drain.Accounts
  draining : state.drain.phase ≠ .idle → state.threads.shared.draining = true
  untried : state.drain.phase = .idle → state.drain.tried = [] ∧ state.drain.workers = [] ∧
    state.drain.fates = []
  known : state.drain.phase ≠ .idle → ∀ id ref, state.ledger.fibers.get id = some ref →
    id ∈ state.drain.recorded
  within : ∀ id ∈ state.drain.tried, id ∈ state.drain.recorded
  workers : ∀ thread info, (thread, info) ∈ state.drain.workers →
    Outlined (homeKernel config) drainRely thread (WorkerDone info) state.threads
  gone : ∀ id fate, (id, fate) ∈ state.drain.fates → fate ≠ .failed → fate ≠ .left →
    state.ledger.fibers.get id = none
  uncut : state.ended = false → (∀ id, (id, .left) ∉ state.drain.fates) ∧
    ∀ rest size started, state.drain.phase = .waiting rest size started → rest = []

section Kept

variable {config : HomeConfig} {state : DrainState}

theorem DrainKept.home {event : HomeEvent} {threads : HomeThreads} (kept : DrainKept config state)
    (took : (homeKernel config).machine.step state.threads event = some threads) :
    DrainKept config { state with threads := threads } := by
  have relies : Relies (homeKernel config) drainRely state.threads event :=
    relies_of_perform (fun _ _ _ _ _ _ ran draining => Home.perform_sealed draining ran) _ _
  have closed : state.drain.phase ≠ .idle → state.threads.shared.Sealed threads.shared :=
    fun begun => sealed_step (kept.draining begun) took
  refine ⟨kept.reached.next took, kept.accounts, fun begun => (closed begun).draining,
    kept.untried, ?_, kept.within, ?_, ?_, kept.uncut⟩
  · intro begun id ref got
    obtain ⟨old, before, _⟩ := (closed begun).fibers id ref got
    exact kept.known begun id old before
  · intro thread info mem
    exact (kept.workers thread info mem).step relies took
  · intro id fate mem unfailed unleft
    have begun : state.drain.phase ≠ .idle := by
      intro idle
      simp [(kept.untried idle).2.2] at mem
    by_contra here
    obtain ⟨ref, got⟩ := Option.ne_none_iff_exists'.mp here
    obtain ⟨old, before, _⟩ := (closed begun).fibers id ref got
    simp [kept.gone id fate mem unfailed unleft] at before

theorem DrainKept.cancel (kept : DrainKept config state) :
    DrainKept config { state with ended := true } :=
  ⟨kept.reached, kept.accounts, kept.draining, kept.untried, kept.known, kept.within, kept.workers,
    kept.gone, by simp⟩

variable {thread size : Nat}

theorem DrainKept.begin {next : DrainState} (kept : DrainKept config state)
    (took : state.begin config thread = some next) : DrainKept config next := by
  unfold DrainState.begin at took
  split at took
  · rename_i idle
    obtain ⟨threads, run, rfl⟩ := Option.map_eq_some_iff.mp took
    have home := startDrain_exec run
    obtain ⟨tried, workers, fates⟩ := kept.untried idle
    refine ⟨kept.reached.trans run, kept.accounts.begun idle _, ?_, by simp, ?_, ?_, ?_, ?_, ?_⟩
    · intro _
      simp [home]
    · intro _ id ref got
      have before : state.ledger.fibers.get id = some ref := by
        simpa [DrainState.ledger, home, Home.ledger] using got
      exact List.mem_map.mpr ⟨(id, ref), (mem_rows_iff _ _ _).mpr before, rfl⟩
    · simp [tried]
    · simp [workers]
    · simp [fates]
    · simp [fates]
  · simp at took

theorem DrainKept.statuses (kept : DrainKept config state) (listing : state.drain.phase = .listing)
    (uids : List String) :
    DrainKept config { state with
      drain := { state.drain with
        phase := .grants uids
        named := []
        anon := []
        rounds := state.drain.rounds + 1 } } := by
  have begun : state.drain.phase ≠ .idle := by simp [listing]
  exact ⟨kept.reached, kept.accounts.statuses listing uids, fun _ => kept.draining begun, by simp,
    fun _ => kept.known begun, kept.within, kept.workers, kept.gone,
    fun open_ => ⟨(kept.uncut open_).1, by simp⟩⟩

theorem Drain.listAll_same (drain : Drain) (fibers : List Ledger.FiberInfo) :
    (drain.listAll fibers).workers = drain.workers ∧ (drain.listAll fibers).fates = drain.fates ∧
      (drain.listAll fibers).recorded = drain.recorded ∧
      (drain.listAll fibers).rounds = drain.rounds := by
  induction fibers generalizing drain with
  | nil => exact ⟨rfl, rfl, rfl, rfl⟩
  | cons info fibers ih =>
    have one : (drain.list info).workers = drain.workers ∧
        (drain.list info).fates = drain.fates ∧ (drain.list info).recorded = drain.recorded ∧
        (drain.list info).rounds = drain.rounds := by
      unfold Drain.list
      repeat' split
      all_goals exact ⟨rfl, rfl, rfl, rfl⟩
    have rest := ih (drain.list info)
    simp only [one] at rest
    exact rest

theorem Drain.mem_listAll (drain : Drain) (fibers : List Ledger.FiberInfo) (id : String) :
    id ∈ (drain.listAll fibers).tried ↔ id ∈ drain.tried ∨ id ∈ fibers.map Ledger.FiberInfo.id := by
  induction fibers generalizing drain with
  | nil => simp [Drain.listAll]
  | cons info fibers ih =>
    have one : id ∈ (drain.list info).tried ↔ id ∈ drain.tried ∨ id = info.id := by
      unfold Drain.list
      by_cases tried : info.id ∈ drain.tried
      · simp only [tried, if_true]
        constructor
        · exact .inl
        · rintro (before | rfl)
          · exact before
          · exact tried
      · simp only [tried, if_false]
        split <;> simp
    have rest := ih (drain.list info)
    simp only [Drain.listAll, List.foldl_cons, List.map_cons, List.mem_cons] at rest ⊢
    rw [rest, one, or_assoc]

theorem recorded_of_fibersOf {ledger : Ledger} {uid id : String}
    (listed : id ∈ (ledger.fibersOf uid).map Ledger.FiberInfo.id) :
    ∃ ref, ledger.fibers.get id = some ref := by
  obtain ⟨info, mem, rfl⟩ := List.mem_map.mp listed
  simp only [Ledger.fibersOf, List.mem_insertionSort, List.mem_map, List.mem_filter] at mem
  obtain ⟨⟨id, ref⟩, ⟨row, _⟩, rfl⟩ := mem
  exact ⟨ref, (mem_rows_iff _ _ _).mp row⟩

theorem DrainKept.fibersOf (kept : DrainKept config state) {uid : String} {uids : List String}
    (grants : state.drain.phase = .grants (uid :: uids)) :
    DrainKept config { state with
      drain := { state.drain.listAll (state.ledger.fibersOf uid) with
        phase := .grants uids } } := by
  have begun : state.drain.phase ≠ .idle := by simp [grants]
  obtain ⟨accounts, phase⟩ := kept.accounts.listAll (state.ledger.fibersOf uid) grants
  obtain ⟨workers, fates, noted, _⟩ := state.drain.listAll_same (state.ledger.fibersOf uid)
  refine ⟨kept.reached, accounts.narrowed phase uids, fun _ => kept.draining begun, by simp, ?_, ?_,
    ?_, ?_, ?_⟩
  · simpa only [noted] using fun _ => kept.known begun
  · intro id tried
    simp only [noted]
    rcases (state.drain.mem_listAll _ id).mp tried with before | listed
    · exact kept.within id before
    · obtain ⟨ref, got⟩ := recorded_of_fibersOf listed
      exact kept.known begun id ref got
  · simpa only [workers] using kept.workers
  · simpa only [fates] using kept.gone
  · intro open_
    simpa only [fates] using ⟨(kept.uncut open_).1, by simp⟩

theorem DrainKept.close (kept : DrainKept config state) (grants : state.drain.phase = .grants []) :
    DrainKept config { state with drain := state.drain.close state.ended } := by
  have begun : state.drain.phase ≠ .idle := by simp [grants]
  have accounts := kept.accounts.close grants state.ended
  by_cases empty : state.drain.named ++ state.drain.anon = []
  · rw [Drain.close_empty empty] at accounts ⊢
    exact ⟨kept.reached, accounts, fun _ => kept.draining begun, by simp,
      fun _ => kept.known begun, kept.within, kept.workers, kept.gone,
      fun open_ => ⟨(kept.uncut open_).1, by simp⟩⟩
  · cases ended : state.ended with
    | true =>
      rw [ended, Drain.close_ended empty] at accounts
      rw [Drain.close_ended empty]
      refine ⟨kept.reached, accounts, fun _ => kept.draining begun, by simp,
        fun _ => kept.known begun, kept.within, kept.workers, ?_, by simp⟩
      intro id fate mem unfailed unleft
      rcases List.mem_append.mp mem with before | left
      · exact kept.gone id fate before unfailed unleft
      · obtain ⟨info, _, same⟩ := List.mem_map.mp left
        exact (unleft (congrArg Prod.snd same).symm).elim
    | false =>
      rw [ended, Drain.close_open empty] at accounts
      rw [Drain.close_open empty]
      exact ⟨kept.reached, accounts, fun _ => kept.draining begun, by simp,
        fun _ => kept.known begun, kept.within, kept.workers, kept.gone,
        fun open_ => ⟨(kept.uncut ended).1, by simp⟩⟩

variable {rest : List Ledger.FiberInfo}

theorem DrainKept.cut (kept : DrainKept config state)
    {started : Nat} (batch : state.drain.phase = .batch rest size started)
    (cuts : state.ended = false → rest = []) :
    DrainKept config { state with
      drain := { state.drain with phase := .waiting rest size started } } := by
  have begun : state.drain.phase ≠ .idle := by simp [batch]
  refine ⟨kept.reached, kept.accounts.cut batch, fun _ => kept.draining begun, by simp,
    fun _ => kept.known begun, kept.within, kept.workers, kept.gone, ?_⟩
  intro open_
  refine ⟨(kept.uncut open_).1, ?_⟩
  rintro _ _ _ same
  simp only [DrainPhase.waiting.injEq] at same
  exact same.1 ▸ cuts open_

theorem DrainKept.next {later : DrainState} (kept : DrainKept config state)
    (took : state.next config thread = some later) : DrainKept config later := by
  unfold DrainState.next at took
  split at took
  · rename_i batch
    cases took
    exact kept.cut batch fun _ => rfl
  · rename_i info rest size started batch
    have begun : state.drain.phase ≠ .idle := by simp [batch]
    split at took
    · rename_i ended
      cases took
      exact kept.cut batch fun open_ => by simp [ended] at open_
    · split at took
      · obtain ⟨threads, starts, rfl⟩ := Option.map_eq_some_iff.mp took
        have moved := kept.home starts
        refine ⟨moved.reached, kept.accounts.started batch thread, fun _ => moved.draining begun,
          by simp, fun _ => moved.known begun, kept.within, ?_, moved.gone,
          fun open_ => ⟨(kept.uncut open_).1, by simp⟩⟩
        intro worker other mem
        simp only [List.mem_cons, Prod.mk.injEq] at mem
        rcases mem with ⟨rfl, rfl⟩ | before
        · exact outlined_from starts draining_kept.stable (kept.draining begun)
            (drainCall_outline _)
        · exact moved.workers worker other before
      · simp at took
  · simp at took

variable {outcome : Outcome}

theorem gone_of_fate {info : Ledger.FiberInfo} {home : Home} (done : WorkerDone info outcome home)
    (unfailed : (drainOne info outcome (home.ledger.fiber? info.id).isSome).fate ≠ .failed) :
    home.ledger.fibers.get info.id = none := by
  by_cases settles : outcome.settles info.session
  · exact (done settles).2
  · simp only [Outcome.settles, not_or] at settles
    obtain ⟨got, unsettled⟩ := settles
    by_cases bare : info.session = ""
    · simp only [bare, if_true] at unsettled
      by_cases runs : (home.ledger.fiber? info.id).isSome = true
      · refine (unfailed ?_).elim
        unfold drainOne
        simp only [bare, if_true, runs]
        cases code : outcome.code <;> simp_all [DrainReport.fate]
      · simpa [Ledger.fiber?] using runs
    · refine (unfailed ?_).elim
      simp only [bare, if_false, ne_eq, not_not] at unsettled
      simp [drainOne, bare, got, unsettled, DrainReport.fate]

theorem DrainKept.collect (kept : DrainKept config state)
    {info : Ledger.FiberInfo} (mem : (thread, info) ∈ state.drain.workers)
    (answered : answerOf state.threads thread = some outcome) :
    DrainKept config { state with
      drain := state.drain.collect thread info
        (drainOne info outcome (state.ledger.fiber? info.id).isSome) } := by
  have done := (kept.workers thread info mem).post (answerOf_eq_some.mp answered)
  have unleft : (drainOne info outcome (state.ledger.fiber? info.id).isSome).fate ≠ .left := by
    unfold DrainReport.fate
    repeat' split
    all_goals simp
  refine ⟨kept.reached, kept.accounts.collect mem outcome _, kept.draining, ?_, kept.known,
    kept.within, ?_, ?_, ?_⟩
  · intro idle
    simp [(kept.untried idle).2.1] at mem
  · intro worker other inside
    exact kept.workers worker other (List.mem_of_mem_erase inside)
  · intro id fate entry unfailed _
    rcases List.mem_append.mp entry with before | last
    · exact kept.gone id fate before unfailed ‹_›
    · simp only [List.mem_singleton] at last
      cases last
      exact gone_of_fate done unfailed
  · intro open_
    refine ⟨?_, (kept.uncut open_).2⟩
    intro id entry
    rcases List.mem_append.mp entry with before | last
    · exact (kept.uncut open_).1 id before
    · simp only [List.mem_singleton, Prod.mk.injEq] at last
      exact unleft last.2.symm

theorem DrainKept.finish (kept : DrainKept config state)
    {started : Nat} (waiting : state.drain.phase = .waiting rest size started)
    (none : state.drain.workers = []) :
    DrainKept config { state with drain := state.drain.finish rest size started } := by
  have begun : state.drain.phase ≠ .idle := by simp [waiting]
  refine ⟨kept.reached, kept.accounts.finish waiting none, fun _ => kept.draining begun,
    by simp [Drain.finish], fun _ => kept.known begun, kept.within, kept.workers, ?_, ?_⟩
  · intro id fate entry unfailed unleft
    rcases List.mem_append.mp entry with before | left
    · exact kept.gone id fate before unfailed unleft
    · obtain ⟨info, _, same⟩ := List.mem_map.mp left
      exact (unleft (congrArg Prod.snd same).symm).elim
  · intro open_
    obtain ⟨unleft, whole⟩ := kept.uncut open_
    obtain rfl := whole _ _ _ waiting
    exact ⟨by simpa [Drain.finish] using unleft, by simp [Drain.finish]⟩

theorem DrainKept.step {event : DrainEvent} {next : DrainState} (kept : DrainKept config state)
    (took : (drainMachine config).step state event = some next) : DrainKept config next := by
  cases event with
  | home event =>
    obtain ⟨threads, moved, rfl⟩ := Option.map_eq_some_iff.mp took
    exact kept.home moved
  | cancel =>
    replace took := Option.some.inj took
    exact took ▸ kept.cancel
  | begin thread => exact kept.begin took
  | statuses =>
    simp only [drainMachine, DrainState.step] at took
    split at took <;> cases took
    rename_i listing
    exact kept.statuses listing _
  | fibersOf =>
    simp only [drainMachine, DrainState.step] at took
    split at took <;> cases took
    rename_i grants
    exact kept.fibersOf grants
  | close =>
    simp only [drainMachine, DrainState.step] at took
    split at took <;> cases took
    rename_i grants
    exact kept.close grants
  | next thread => exact kept.next took
  | collect thread info =>
    simp only [drainMachine, DrainState.step] at took
    split at took
    · rename_i mem
      obtain ⟨outcome, answered, rfl⟩ := Option.map_eq_some_iff.mp took
      exact kept.collect mem answered
    · simp at took
  | wait =>
    simp only [drainMachine, DrainState.step] at took
    split at took <;> cases took
    rename_i waiting none
    exact kept.finish waiting none

theorem drainKept_of_start (started : (drainMachine config).start state) :
    DrainKept config state := by
  obtain ⟨initial, new⟩ := started
  refine ⟨⟨state.threads, [], initial, rfl⟩, ?_, ?_, ?_, ?_, ?_, ?_, ?_, ?_⟩
  · rw [new]
    exact Drain.accounts_new
  all_goals simp [new]

end Kept

def drainQuiet (state : DrainState) : DrainEvent → Prop
  | .begin _ => state.threads.shared.yielding.rows = []
  | .home (.act thread _) => state.drain.phase = .idle ∨ revokes state.threads thread = none
  | _ => True

instance (state : DrainState) (event : DrainEvent) : Decidable (drainQuiet state event) := by
  unfold drainQuiet
  split <;> exact inferInstance

structure DrainSees (state : DrainState) : Prop where
  unyielded : state.drain.phase ≠ .idle → ∀ thread,
    state.threads.shared.yielding.get thread = none
  sees : ∀ uids, state.drain.phase = .grants uids → ∀ id ref,
    state.ledger.fibers.get id = some ref → id ∈ state.drain.tried ∨ ref.grantUID ∈ uids
  done : state.drain.phase = .returned → ∀ id ref, state.ledger.fibers.get id = some ref →
    id ∈ state.drain.tried

section Sees

variable {config : HomeConfig} {state : DrainState}

variable {threads : HomeThreads}

theorem DrainSees.home {event : HomeEvent} (sees : DrainSees state)
    (kept : DrainKept config state) (quiet : drainQuiet state (.home event))
    (took : (homeKernel config).machine.step state.threads event = some threads) :
    DrainSees { state with threads := threads } := by
  have closed : state.drain.phase ≠ .idle → state.threads.shared.Sealed threads.shared :=
    fun begun => sealed_step (kept.draining begun) took
  refine ⟨?_, ?_, ?_⟩
  · intro begun yielder
    have none := sees.unyielded begun
    cases event with
    | start thread call =>
      obtain ⟨_, rfl⟩ := Kernel.step_start took
      exact none yielder
    | act thread answer =>
      obtain ⟨action, rest, out, shared, runs, ran, rfl⟩ := Kernel.step_act took
      by_cases calm : action.touchesYielding = false
      · simp only [(Home.perform_frame ran).yielding calm]
        exact none yielder
      · cases action with
        | revokeGrant uid =>
          have still := quiet.resolve_left begun
          simp [revokes_eq_some.mpr ⟨rest, runs⟩] at still
        | yielded =>
          cases ran
          simp only [get_drop]
          split
          · rfl
          · exact none yielder
        | _ => exact (calm rfl).elim
  · intro uids (grants : state.drain.phase = .grants uids) id ref got
    obtain ⟨old, before, same⟩ := (closed (by simp [grants])).fibers id ref got
    exact same ▸ sees.sees uids grants id old before
  · intro (returned : state.drain.phase = .returned) id ref got
    obtain ⟨old, before, _⟩ := (closed (by simp [returned])).fibers id ref got
    exact sees.done returned id old before

theorem mem_statuses {ledger : Ledger} {uid : String} {ptr : Nat}
    (admitted : ledger.grants.get uid = some ptr) : uid ∈ ledger.statuses := by
  simp only [Ledger.statuses, Ledger.sortIDs, List.mem_insertionSort, List.mem_map]
  exact ⟨(uid, ptr), (mem_rows_iff _ _ _).mpr admitted, rfl⟩

variable (sees : DrainSees state)
include sees

theorem DrainSees.admitted (kept : DrainKept config state) (begun : state.drain.phase ≠ .idle)
    {id : String} {ref : FiberRef} (got : state.ledger.fibers.get id = some ref) :
    ref.grantUID ∈ state.ledger.statuses := by
  obtain ⟨origin, _, _, admitted | ⟨yielder, mark, yielding, _⟩⟩ :=
    fibers_housed kept.reached id ref got
  · exact mem_statuses admitted
  · simp [sees.unyielded begun yielder] at yielding

theorem DrainSees.onward {drain : Drain} {ended : Bool} (begun : state.drain.phase ≠ .idle)
    (same : threads.shared = state.threads.shared)
    (between : (∀ uids, drain.phase ≠ .grants uids) ∧ drain.phase ≠ .returned) :
    DrainSees ⟨threads, ended, drain⟩ := by
  refine ⟨fun _ => ?_, ?_, ?_⟩
  · simp only [same]
    exact sees.unyielded begun
  · exact fun uids grants => (between.1 uids grants).elim
  · exact fun returned => (between.2 returned).elim

theorem DrainSees.close (grants : state.drain.phase = .grants []) :
    DrainSees { state with drain := state.drain.close state.ended } := by
  have begun : state.drain.phase ≠ .idle := by simp [grants]
  have tried : ∀ id ref, state.ledger.fibers.get id = some ref → id ∈ state.drain.tried :=
    fun id ref got => (sees.sees [] grants id ref got).resolve_right (by simp)
  by_cases empty : state.drain.named ++ state.drain.anon = []
  · rw [Drain.close_empty empty]
    exact ⟨fun _ => sees.unyielded begun, by simp, fun _ => tried⟩
  · cases state.ended with
    | true =>
      rw [Drain.close_ended empty]
      exact ⟨fun _ => sees.unyielded begun, by simp, fun _ => tried⟩
    | false =>
      rw [Drain.close_open empty]
      exact ⟨fun _ => sees.unyielded begun, by simp, by simp⟩

theorem DrainSees.next {later : DrainState} {thread : Nat}
    (took : state.next config thread = some later) : DrainSees later := by
  unfold DrainState.next at took
  split at took
  · rename_i batch
    cases took
    exact sees.onward (by simp [batch]) rfl (by simp)
  · rename_i batch
    split at took
    · cases took
      exact sees.onward (by simp [batch]) rfl (by simp)
    · split at took
      · obtain ⟨threads, starts, rfl⟩ := Option.map_eq_some_iff.mp took
        obtain ⟨_, rfl⟩ := Kernel.step_start starts
        exact sees.onward (by simp [batch]) rfl (by simp)
      · simp at took
  · simp at took

theorem DrainSees.step {event : DrainEvent} {next : DrainState} (kept : DrainKept config state)
    (quiet : drainQuiet state event) (took : (drainMachine config).step state event = some next) :
    DrainSees next := by
  cases event with
  | home event =>
    obtain ⟨threads, moved, rfl⟩ := Option.map_eq_some_iff.mp took
    exact sees.home kept quiet moved
  | cancel =>
    replace took := Option.some.inj took
    exact took ▸ ⟨sees.unyielded, sees.sees, sees.done⟩
  | begin thread =>
    simp only [drainMachine, DrainState.step, DrainState.begin] at took
    split at took
    · obtain ⟨threads, run, rfl⟩ := Option.map_eq_some_iff.mp took
      refine ⟨?_, by simp, by simp⟩
      intro _ yielder
      simp only [startDrain_exec run]
      by_contra some
      obtain ⟨row, got⟩ := Option.ne_none_iff_exists'.mp some
      have listed := (mem_rows_iff _ _ _).mpr got
      rw [show state.threads.shared.yielding.rows = [] from quiet] at listed
      simp at listed
    · simp at took
  | statuses =>
    simp only [drainMachine, DrainState.step] at took
    split at took
    · rename_i listing
      have begun : state.drain.phase ≠ .idle := by simp [listing]
      cases took
      refine ⟨fun _ => sees.unyielded begun, ?_, by simp⟩
      rintro uids same id ref got
      simp only [DrainPhase.grants.injEq] at same
      exact .inr (same ▸ sees.admitted kept begun got)
    · simp at took
  | fibersOf =>
    simp only [drainMachine, DrainState.step] at took
    split at took
    · rename_i uid rest grants
      have begun : state.drain.phase ≠ .idle := by simp [grants]
      cases took
      refine ⟨fun _ => sees.unyielded begun, ?_, by simp⟩
      rintro uids same id ref got
      cases same
      simp only [Drain.mem_listAll]
      rcases sees.sees _ grants id ref got with tried | listed
      · exact .inl (.inl tried)
      · rcases List.mem_cons.mp listed with mine | later
        · exact .inl (.inr (mine ▸ mem_fibersOf got))
        · exact .inr later
    · simp at took
  | close =>
    simp only [drainMachine, DrainState.step] at took
    split at took <;> cases took
    rename_i grants
    exact sees.close grants
  | next thread => exact sees.next took
  | collect thread info =>
    simp only [drainMachine, DrainState.step] at took
    split at took
    · obtain ⟨outcome, _, rfl⟩ := Option.map_eq_some_iff.mp took
      exact ⟨sees.unyielded, sees.sees, sees.done⟩
    · simp at took
  | wait =>
    simp only [drainMachine, DrainState.step] at took
    split at took <;> cases took
    rename_i waiting _
    exact sees.onward (by simp [waiting]) rfl (by simp [Drain.finish])

end Sees

def DrainEvent.own : DrainEvent → Bool
  | .home _ | .cancel => false
  | _ => true

section Moves

variable {config : HomeConfig} {state : DrainState}

theorem exists_unused (threads : HomeThreads) : ∃ thread, threads.programs.get thread = none := by
  obtain ⟨thread, unused⟩ := Infinite.exists_notMem_finset threads.programs.keys.toFinset
  refine ⟨thread, AList.lookup_eq_none.mpr ?_⟩
  simpa [AList.mem_keys] using unused

theorem drain_moves (begun : state.drain.phase ≠ .idle) (runs : state.drain.phase ≠ .returned)
    (answered : ∀ thread info, (thread, info) ∈ state.drain.workers →
      (answerOf state.threads thread).isSome = true) : ∃ event : DrainEvent, event.own = true ∧
      ((drainMachine config).step state event).isSome = true := by
  have collects : state.drain.workers ≠ [] → ∃ event : DrainEvent, event.own = true ∧
      ((drainMachine config).step state event).isSome = true := by
    intro some
    obtain ⟨⟨thread, info⟩, mem⟩ := List.exists_mem_of_ne_nil _ some
    refine ⟨.collect thread info, rfl, ?_⟩
    simp only [drainMachine, DrainState.step, mem, if_true, Option.isSome_map]
    exact answered thread info mem
  cases phase : state.drain.phase with
  | idle => exact (begun phase).elim
  | returned => exact (runs phase).elim
  | listing => exact ⟨.statuses, rfl, by simp [drainMachine, DrainState.step, phase]⟩
  | grants uids =>
    cases uids with
    | nil => exact ⟨.close, rfl, by simp [drainMachine, DrainState.step, phase]⟩
    | cons uid uids => exact ⟨.fibersOf, rfl, by simp [drainMachine, DrainState.step, phase]⟩
  | waiting rest size started =>
    by_cases none : state.drain.workers = []
    · exact ⟨.wait, rfl, by simp [drainMachine, DrainState.step, phase, none]⟩
    · exact collects none
  | batch rest size started =>
    cases rest with
    | nil => exact ⟨.next 0, rfl, by simp [drainMachine, DrainState.step, DrainState.next, phase]⟩
    | cons info rest =>
      by_cases full : state.drain.workers.length < drainWorkers
      · obtain ⟨thread, unused⟩ := exists_unused state.threads
        refine ⟨.next thread, rfl, ?_⟩
        simp only [drainMachine, DrainState.step, DrainState.next, phase]
        split
        · rfl
        · simp [Kernel.machine, Kernel.step, unused]
      · refine collects ?_
        intro none
        simp [none, drainWorkers] at full

def Drain.measure (drain : Drain) : Nat × Nat × Nat :=
  (drain.recorded.length + 1 - drain.rounds,
    match drain.phase with
    | .grants uids => (3, uids.length)
    | .batch rest _ _ => (2, 2 * rest.length + drain.workers.length)
    | .waiting _ _ _ => (1, drain.workers.length)
    | _ => (0, drain.workers.length))

def Shorter : Nat × Nat × Nat → Nat × Nat × Nat → Prop :=
  Prod.Lex (· < ·) (Prod.Lex (· < ·) (· < ·))

variable {lists before after : Nat}

theorem shorter_stage {left right : Nat} (less : after < before) :
    Shorter (lists, after, left) (lists, before, right) :=
  Prod.Lex.right _ (Prod.Lex.left _ _ less)

theorem shorter_left {stage : Nat} (less : after < before) :
    Shorter (lists, stage, after) (lists, stage, before) :=
  Prod.Lex.right _ (Prod.Lex.right _ less)

theorem DrainKept.rounds_le (kept : DrainKept config state) :
    state.drain.tried.length ≤ state.drain.recorded.length :=
  (kept.accounts.distinct.subperm kept.within).length_le

theorem DrainKept.next_falls {later : DrainState} {thread : Nat}
    (took : state.next config thread = some later) :
    Shorter later.drain.measure state.drain.measure := by
  unfold DrainState.next at took
  split at took
  · rename_i batch
    cases took
    simp only [Drain.measure, batch]
    exact shorter_stage (by omega)
  · rename_i batch
    split at took
    · cases took
      simp only [Drain.measure, batch]
      exact shorter_stage (by omega)
    · split at took
      · obtain ⟨threads, _, rfl⟩ := Option.map_eq_some_iff.mp took
        simp only [Drain.measure, batch, List.length_cons]
        exact shorter_left (by omega)
      · simp at took
  · simp at took

theorem DrainKept.falls {event : DrainEvent} {later : DrainState} (kept : DrainKept config state)
    (begun : state.drain.phase ≠ .idle) (own : event.own = true)
    (took : (drainMachine config).step state event = some later) :
    Shorter later.drain.measure state.drain.measure := by
  cases event with
  | home event | cancel => simp [DrainEvent.own] at own
  | begin thread =>
    simp [drainMachine, DrainState.step, DrainState.begin] at took
  | statuses =>
    simp only [drainMachine, DrainState.step] at took
    split at took <;> cases took
    rename_i listing
    have rounds := kept.accounts.rounds
    have tried := kept.rounds_le
    simp only [listing] at rounds
    exact Prod.Lex.left _ _ (by dsimp; omega)
  | fibersOf =>
    simp only [drainMachine, DrainState.step] at took
    split at took <;> cases took
    rename_i uid uids grants
    obtain ⟨_, _, noted, rounds⟩ :=
      state.drain.listAll_same (state.ledger.fibersOf uid)
    simp only [Drain.measure, grants, noted, rounds, List.length_cons]
    exact shorter_left (by omega)
  | close =>
    simp only [drainMachine, DrainState.step] at took
    split at took <;> cases took
    rename_i grants
    by_cases empty : state.drain.named ++ state.drain.anon = []
    · simp only [Drain.close_empty empty, Drain.measure, grants]
      exact shorter_stage (by omega)
    · cases state.ended with
      | true =>
        simp only [Drain.close_ended empty, Drain.measure, grants]
        exact shorter_stage (by omega)
      | false =>
        simp only [Drain.close_open empty, Drain.measure, grants]
        exact shorter_stage (by omega)
  | next thread => exact DrainKept.next_falls took
  | collect thread info =>
    simp only [drainMachine, DrainState.step] at took
    split at took
    · rename_i mem
      obtain ⟨outcome, _, rfl⟩ := Option.map_eq_some_iff.mp took
      have fewer : (state.drain.workers.erase (thread, info)).length <
          state.drain.workers.length := by
        have positive := List.length_pos_of_mem mem
        rw [List.length_erase_of_mem mem]
        omega
      have working := kept.accounts.alone
      cases phase : state.drain.phase with
      | batch rest size started =>
        simp only [Drain.measure, Drain.collect, phase]
        exact shorter_left (by omega)
      | waiting rest size started =>
        simp only [Drain.measure, Drain.collect, phase]
        exact shorter_left fewer
      | _ =>
        simp only [phase] at working
        simp [working.1] at mem
    · simp at took
  | wait =>
    simp only [drainMachine, DrainState.step] at took
    split at took <;> cases took
    rename_i waiting _
    simp only [Drain.measure, Drain.finish, waiting]
    exact shorter_stage (by omega)

end Moves

structure DrainComplete (config : HomeConfig) (first : DrainState) (events : List DrainEvent)
    (final : DrainState) : Prop where
  closed : ∀ front event back state next, events = front ++ event :: back →
    (drainMachine config).exec first front = some state →
    (drainMachine config).step state event = some next → state.drain.phase ≠ .idle →
      ∀ id, next.ledger.fibers.get id ≠ none → state.ledger.fibers.get id ≠ none
  rounds : final.drain.rounds ≤ final.drain.recorded.length + 1
  falls : ∀ front event back state next, events = front ++ event :: back →
    (drainMachine config).exec first front = some state →
    (drainMachine config).step state event = some next → state.drain.phase ≠ .idle →
      event.own = true → Shorter next.drain.measure state.drain.measure
  moves : final.drain.phase ≠ .idle → final.drain.phase ≠ .returned →
    (∀ thread info, (thread, info) ∈ final.drain.workers →
      (answerOf final.threads thread).isSome = true) →
    ∃ event : DrainEvent, event.own = true ∧
      ((drainMachine config).step final event).isSome = true
  failed : final.drain.phase = .returned → final.ended = false →
    (drainMachine config).Meets drainQuiet first events →
      ∀ id ref, final.ledger.fibers.get id = some ref → (id, .failed) ∈ final.drain.fates
  once : final.drain.phase = .returned → (final.drain.fates.map Prod.fst).Nodup ∧
    ∀ id, id ∈ final.drain.tried ↔ id ∈ final.drain.fates.map Prod.fst
  counts : final.drain.phase = .returned →
    final.drain.report.parked = fateCount final.drain.fates .parked ∧
    final.drain.report.shed = fateCount final.drain.fates .shed ∧
    final.drain.report.failed = fateCount final.drain.fates .failed ∧
    final.drain.report.left = fateCount final.drain.fates .left ∧
    final.drain.report.parked + final.drain.report.shed + final.drain.report.failed +
      final.drain.report.left + fateCount final.drain.fates .skipped = final.drain.tried.length

section Complete

variable {config : HomeConfig} {first final : DrainState} {events : List DrainEvent}

theorem drainKept_of_run (started : (drainMachine config).start first)
    (run : (drainMachine config).exec first events = some final) : DrainKept config final :=
  exec_keeps (fun _ _ _ kept took => kept.step took) (drainKept_of_start started) run

theorem drainSees_of_run (started : (drainMachine config).start first)
    (quiet : (drainMachine config).Meets drainQuiet first events)
    (run : (drainMachine config).exec first events = some final) : DrainSees final := by
  have both : DrainKept config final ∧ DrainSees final := by
    have stays : ∀ state event next, DrainKept config state ∧ DrainSees state →
        drainQuiet state event → (drainMachine config).step state event = some next →
          DrainKept config next ∧ DrainSees next := by
      rintro state event next ⟨kept, sees⟩ still took
      exact ⟨kept.step took, sees.step kept still took⟩
    refine exec_keeps_of_meets stays ⟨drainKept_of_start started, ?_⟩ quiet run
    obtain ⟨_, new⟩ := started
    constructor <;> simp [new]
  exact both.2

theorem DrainKept.closes {state next : DrainState} {event : DrainEvent}
    (kept : DrainKept config state) (begun : state.drain.phase ≠ .idle)
    (took : (drainMachine config).step state event = some next) :
    state.threads.shared.Sealed next.threads.shared := by
  have still : next.threads.shared = state.threads.shared →
      state.threads.shared.Sealed next.threads.shared := by
    intro same
    rw [same]
    exact ⟨kept.draining begun, fun id ref got => ⟨ref, got, rfl⟩⟩
  cases event with
  | home event =>
    obtain ⟨threads, moved, rfl⟩ := Option.map_eq_some_iff.mp took
    exact sealed_step (kept.draining begun) moved
  | next thread =>
    simp only [drainMachine, DrainState.step, DrainState.next] at took
    repeat' split at took
    all_goals first
      | (obtain ⟨threads, starts, rfl⟩ := Option.map_eq_some_iff.mp took
         exact sealed_step (kept.draining begun) starts)
      | (simp only [Option.some.injEq] at took
         exact still (took ▸ rfl))
      | simp at took
  | begin thread => simp [drainMachine, DrainState.step, DrainState.begin] at took
  | collect thread info =>
    simp only [drainMachine, DrainState.step] at took
    split at took
    · obtain ⟨outcome, _, rfl⟩ := Option.map_eq_some_iff.mp took
      exact still rfl
    · simp at took
  | cancel | statuses | fibersOf | close | wait =>
    simp only [drainMachine, DrainState.step] at took
    repeat' split at took
    all_goals first
      | (simp only [Option.some.injEq] at took
         exact still (took ▸ rfl))
      | simp at took

theorem fates_length (fates : List (String × Fate)) :
    fateCount fates .parked + fateCount fates .shed + fateCount fates .failed +
      fateCount fates .left + fateCount fates .skipped = fates.length := by
  induction fates with
  | nil => rfl
  | cons entry fates ih =>
    simp only [fateCount, List.countP_cons, List.length_cons, decide_eq_true_eq] at ih ⊢
    obtain ⟨id, fate⟩ := entry
    cases fate <;> simp <;> omega

section

variable (kept : DrainKept config final) (returned : final.drain.phase = .returned)
include kept returned

theorem DrainKept.placed_of_returned : (final.drain.fates.map Prod.fst).Perm final.drain.tried := by
  have listed := kept.accounts.listed
  have alone := kept.accounts.alone
  simp only [returned] at alone
  simpa [Drain.placed, Drain.pending, Drain.places, returned, alone.1] using listed

theorem DrainKept.counts_of_returned {fate : Fate} (named : fate ≠ .skipped) :
    final.drain.report.count fate = fateCount final.drain.fates fate := by
  have counted := kept.accounts.counted fate named
  have alone := kept.accounts.alone
  simp only [returned] at alone
  have none : ({} : DrainReport).count fate = 0 := by cases fate <;> rfl
  rw [alone.2, none] at counted
  exact counted

end

theorem drain_is_complete (started : (drainMachine config).start first)
    (run : (drainMachine config).exec first events = some final) :
    DrainComplete config first events final := by
  have kept := drainKept_of_run started run
  refine ⟨?_, ?_, ?_, drain_moves, ?_, ?_, ?_⟩
  · intro front event back state next _ before taken begun id present
    obtain ⟨ref, found⟩ := Option.ne_none_iff_exists'.mp present
    have early := drainKept_of_run started before
    obtain ⟨old, known, _⟩ := (early.closes begun taken).fibers id ref found
    simp [known]
  · have rounds := kept.accounts.rounds
    have tried := kept.rounds_le
    split at rounds <;> omega
  · intro front event back state next _ before taken begun own
    exact (drainKept_of_run started before).falls begun own taken
  · intro returned open_ quiet id ref found
    have tried := (drainSees_of_run started quiet run).done returned id ref found
    have member := (kept.placed_of_returned returned).mem_iff.mpr tried
    obtain ⟨⟨_, fate⟩, entry, rfl⟩ := List.mem_map.mp member
    by_cases failed : fate = .failed
    · exact failed ▸ entry
    · have unleft : fate ≠ .left := by
        rintro rfl
        exact (kept.uncut open_).1 _ entry
      simp [kept.gone _ fate entry failed unleft] at found
  · intro returned
    have placed := kept.placed_of_returned returned
    exact ⟨placed.nodup_iff.mpr kept.accounts.distinct, fun id => placed.mem_iff.symm⟩
  · intro returned
    have parked := kept.counts_of_returned returned (by simp : Fate.parked ≠ .skipped)
    have shed := kept.counts_of_returned returned (by simp : Fate.shed ≠ .skipped)
    have failed := kept.counts_of_returned returned (by simp : Fate.failed ≠ .skipped)
    have left := kept.counts_of_returned returned (by simp : Fate.left ≠ .skipped)
    have total := fates_length final.drain.fates
    have placed := (kept.placed_of_returned returned).length_eq
    rw [List.length_map] at placed
    simp only [DrainReport.count] at parked shed failed left
    exact ⟨parked, shed, failed, left, by omega⟩

end Complete

def drainRun : List DrainEvent :=
  (clonedRun ++ .start 2 (.clone 1 { grantJWT := "t" }) ::
      answered 2 [.verified (.ok plainGrant), .flag true, .flag true, .flag true, .flag true,
        .flag false, .time 0, .flag true, .named (.ok ("e", false)), .flag true, .flag true,
        .flag true]).map .home ++
    [.begin 3, .statuses, .fibersOf, .close, .next 4, .next 5] ++
    (answered 4 (List.replicate 5 (.flag true) ++ .parked "r" none ::
        List.replicate 5 (.flag true)) ++ answered 5 [.flag true, .flag false]).map .home ++
    [.collect 4 { id := "g/1/1", session := "s" }, .collect 5 { id := "g/1/2" }, .next 0, .wait,
      .statuses, .fibersOf, .close]

theorem complete_of_drainRun : ∃ final : DrainState,
    (drainMachine {}).exec { threads := emptyThreads } drainRun = some final ∧
      final.drain.report = { parked := 1, failed := 1 } ∧
      (drainMachine {}).Meets drainQuiet { threads := emptyThreads } drainRun ∧
      DrainComplete {} { threads := emptyThreads } drainRun final := by
  obtain ⟨final, run, report⟩ : ∃ final,
    (drainMachine {}).exec { threads := emptyThreads } drainRun = some final ∧
      final.drain.report = { parked := 1, failed := 1 } := by decide +kernel
  exact ⟨final, run, report, by decide +kernel,
    drain_is_complete ⟨emptyThreads_start, rfl⟩ run⟩

end Fiberd
