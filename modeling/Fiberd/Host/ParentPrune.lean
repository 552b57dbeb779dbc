import Fiberd.Host.ParentSteps

/-!
The prune never takes a parent in use.  A name is recorded inside a section, and the
end of the section is counted before its lock is released.  So while the lock is the
prune's and the count is what it was before the scan, every name there is was there
all through the scan, unless a failed park moved it from one path to another.
-/

namespace Fiberd

open Heaps Tables Programs Machines

namespace ParentProg

abbrev Stages {β : Type} (program : ParentProg β) (stage : ParentStage)
    (post : β → ParentStage → Prop) : Prop :=
  program.Follows ParentStage.after stage post

variable {β : Type}

theorem useParents_stages {inner : ParentProg Bool} {claim : Option String}
    (follows : inner.Stages (.inside claim [] none) fun value later =>
      ∃ sure own, later = .inside claim sure own ∧ (value = true → claim.all (· ∈ sure))) :
    (useParents inner).Stages (.outside claim) fun _ later => later = .outside none := by
  intro _
  refine ⟨_, rfl, follows.bind ?_⟩
  rintro value _ ⟨sure, own, rfl, ensured⟩ _
  refine ⟨.counted, by simp only [ParentStage.after, ParentStage.insideAfter, if_pos ensured], ?_⟩
  exact fun _ => ⟨.outside none, rfl, rfl⟩

theorem keepLoaded_stages {claim : Option String} {sure : List String} {own : Nat} {sha : String}
    {rest : Nat → ParentProg β} {post : β → ParentStage → Prop} (there : sha ∈ sure)
    (onward : ∀ parent, (rest parent).Stages (.inside claim sure none) post) :
    (act (.keepLoaded sha own) >>= rest).Stages (.inside claim sure (some own)) post :=
  fun parent => ⟨.inside claim sure none,
    by simp [ParentStage.after, ParentStage.insideAfter, there], onward parent⟩

theorem parent_stages (claim : Option String) (sure : List String) (sha : String) :
    (parent sha).Stages (.inside claim sure none) fun value later =>
      ∃ more, later = .inside claim more none ∧ (value.isSome → sha ∈ more) := by
  intro loaded
  refine ⟨_, rfl, ?_⟩
  cases loaded with
  | some parent => exact ⟨_, rfl, fun _ => by simp⟩
  | none =>
    intro there
    refine ⟨_, rfl, ?_⟩
    cases there with
    | false => exact ⟨_, rfl, by simp⟩
    | true =>
      intro stored
      refine ⟨_, rfl, ?_⟩
      cases stored with
      | none => exact ⟨_, rfl, by simp⟩
      | some own =>
        exact keepLoaded_stages List.mem_cons_self
          fun _ => ⟨_, rfl, fun _ => List.mem_cons_self⟩

theorem keepStored_stages (claim : Option String) (sure : List String) (sha : String) :
    (keepStored sha).Stages (.inside claim sure none) fun value later =>
      ∃ more, later = .inside claim more none ∧ (value = true → sha ∈ more) := by
  intro stored
  refine ⟨_, rfl, ?_⟩
  cases stored with
  | none => exact ⟨_, rfl, by simp⟩
  | some own =>
    exact keepLoaded_stages List.mem_cons_self
      fun _ => ⟨_, rfl, fun _ => List.mem_cons_self⟩

theorem dropOwn_stages {claim : Option String} {sure : List String} {own : Nat}
    {rest : ParentProg β} {post : β → ParentStage → Prop}
    (onward : rest.Stages (.inside claim sure none) post) :
    (act (.dropOwn own) >>= fun _ => rest).Stages (.inside claim sure (some own)) post :=
  fun _ => ⟨_, by simp [ParentStage.after, ParentStage.insideAfter], onward⟩

theorem registerParent_stages (claim : Option String) (sure : List String) (sha : String)
    (move : Bool) : (registerParent sha move).Stages (.inside claim sure none) fun value later =>
      ∃ more, later = .inside claim more none ∧ (value = true → sha ∈ more) := by
  intro images
  refine ⟨_, rfl, ?_⟩
  cases images with
  | none => exact ⟨_, rfl, by simp⟩
  | some own =>
    intro ready
    refine ⟨_, rfl, ?_⟩
    cases ready with
    | false => exact dropOwn_stages ⟨_, rfl, by simp⟩
    | true =>
      intro there
      refine ⟨_, rfl, ?_⟩
      cases there with
      | true =>
        cases move with
        | true => exact dropOwn_stages (keepStored_stages claim _ sha)
        | false =>
          exact keepLoaded_stages List.mem_cons_self
            fun _ => ⟨_, rfl, fun _ => List.mem_cons_self⟩
      | false =>
        intro filed
        refine ⟨_, rfl, ?_⟩
        cases filed with
        | true => exact dropOwn_stages (keepStored_stages claim _ sha)
        | false => exact dropOwn_stages ⟨_, rfl, by simp⟩

theorem warm_stages (uid sha : String) (move : Bool) :
    (warm uid sha move).Stages (.outside none) fun _ later => later = .outside none := by
  refine Prog.Follows.bind (useParents_stages ?_) fun _ _ same => same
  refine (registerParent_stages none [] sha move).bind ?_
  rintro filed _ ⟨more, rfl, known⟩ _
  refine ⟨.inside none more none, ?_, ⟨more, none, rfl, by simp⟩⟩
  cases filed with
  | true => simp [ParentStage.after, ParentStage.insideAfter, known rfl]
  | false => simp [ParentStage.after, ParentStage.insideAfter]

theorem writeManifest_stages (grant name sha : String) (stripped : Bool) (more : List String)
    (known : stripped = true → sha ∈ more) :
    (act (.writeManifest grant name (if stripped then sha else ""))).Stages
      (.inside none more none) fun value later =>
        ∃ sure own, later = .inside none sure own ∧ (value = true → (none : Option String).all
          (· ∈ sure)) := by
  intro written
  refine ⟨.inside none more none, ?_, ⟨more, none, rfl, by simp⟩⟩
  cases stripped with
  | true => simp [ParentStage.after, ParentStage.insideAfter, known rfl]
  | false => simp [ParentStage.after, ParentStage.insideAfter]

theorem recordPark_stages (grant name : String) :
    (recordPark grant name).Stages (.outside none) fun _ later => later = .outside none := by
  refine useParents_stages (follows_act ?_)
  intro sha
  refine ⟨_, rfl, ?_⟩
  by_cases empty : sha = ""
  · rw [if_pos empty]
    exact writeManifest_stages grant name sha false [] (by simp)
  · rw [if_neg empty]
    refine (parent_stages none [] sha).bind ?_
    rintro value _ ⟨more, rfl, known⟩
    cases value with
    | none => exact writeManifest_stages grant name sha false more (by simp)
    | some parent =>
      refine follows_act fun stripped => ⟨_, rfl, ?_⟩
      exact writeManifest_stages grant name sha stripped more fun _ => known rfl

theorem merge_stages (sha : String) :
    (merge sha).Stages (.outside none) fun _ later => later = .outside none := by
  refine useParents_stages ?_
  refine (parent_stages none [] sha).bind ?_
  rintro value _ ⟨more, rfl, _⟩
  cases value with
  | none => exact ⟨more, none, rfl, by simp⟩
  | some parent => exact fun _ => ⟨_, rfl, ⟨more, none, rfl, by simp⟩⟩

theorem publishParent_stages (sha : String) :
    (publishParent sha).Stages (.outside none) fun _ later => later = .outside none := by
  refine useParents_stages ?_
  intro there
  refine ⟨_, rfl, ?_⟩
  cases there with
  | false => exact ⟨_, none, rfl, by simp⟩
  | true => exact fun _ => ⟨_, rfl, ⟨_, none, rfl, by simp⟩⟩

theorem ensureParent_stages (sha : String) :
    (ensureParent sha).Stages (.outside (some sha)) fun _ later => later = .outside none := by
  refine useParents_stages ?_
  refine (parent_stages (some sha) [] sha).bind ?_
  rintro value _ ⟨more, rfl, known⟩
  cases value with
  | some parent => exact ⟨more, none, rfl, fun _ => by simpa using known rfl⟩
  | none =>
    intro pulled
    refine ⟨_, rfl, ⟨_, none, rfl, ?_⟩⟩
    intro done
    cases pulled with
    | false => simp at done
    | true => simp

theorem outside_stages {action : ParentAct} {rest : action.Result → ParentProg β}
    {post : β → ParentStage → Prop}
    (may : ∀ out, ParentStage.after (.outside none) action out = some (.outside none))
    (onward : ∀ out, (rest out).Stages (.outside none) post) :
    (act action >>= rest).Stages (.outside none) post :=
  fun out => ⟨_, may out, onward out⟩

theorem park_stages (grant name : String) (sync : Bool) :
    (park grant name sync).Stages (.outside none) fun _ later => later = .outside none := by
  have failed : (do act (.renameFailed grant name); pure false : ParentProg Bool).Stages
      (.outside none) fun _ later => later = .outside none :=
    outside_stages (fun _ => rfl) fun _ => rfl
  refine outside_stages (fun _ => rfl) fun _ => outside_stages (fun _ => rfl) ?_
  intro dumped
  cases dumped with
  | false => exact failed
  | true =>
    refine (recordPark_stages grant name).bind ?_
    rintro written _ rfl
    cases sync with
    | false => cases written <;> rfl
    | true =>
      cases written with
      | false => exact failed
      | true =>
        refine outside_stages (fun _ => rfl) ?_
        intro durable
        cases durable with
        | false => exact failed
        | true => rfl

theorem claim_stages (grant name sha : String) :
    (claim grant name sha).Stages (.outside none) fun _ later => later = .outside none := by
  have failed : (do act (.removeDelta grant name); pure false : ParentProg Bool).Stages
      (.outside none) fun _ later => later = .outside none :=
    outside_stages (fun _ => rfl) fun _ => rfl
  refine follows_act ?_
  intro pulled
  cases pulled with
  | false => exact ⟨.outside none, rfl, failed⟩
  | true =>
    refine ⟨.outside (some sha), rfl, (ensureParent_stages sha).bind ?_⟩
    rintro got _ rfl
    cases got with
    | false => exact failed
    | true =>
      refine outside_stages (fun _ => rfl) ?_
      intro claimed
      cases claimed with
      | false => exact failed
      | true => rfl

theorem scanDeltas_stages (count : Nat) (grants : List String) (grant : String)
    (keep names : List String) :
    (scanDeltas grant keep names).Stages (.scanning count keep grants grant names)
      fun value later => later = .scanning count value grants grant [] := by
  induction names generalizing keep with
  | nil => rfl
  | cons name names ih =>
    refine follows_act fun parent => ⟨_, ?_, ih _⟩
    simp [ParentStage.after, ParentStage.scanAfter]

def Scanned (count : Nat) (value : Option (List String)) (later : ParentStage) : Prop :=
  match value with
  | some keep => ∃ grant, later = .scanning count keep [] grant []
  | none => later.after .endScan () = some (.outside none)

theorem scanGrants_stages (count : Nat) (current : String) (keep grants : List String) :
    (scanGrants keep grants).Stages (.scanning count keep grants current []) (Scanned count) := by
  induction grants generalizing keep current with
  | nil => exact ⟨current, rfl⟩
  | cons grant grants ih =>
    refine follows_act ?_
    intro listing
    cases listing with
    | failed => exact ⟨.scanning count keep (grant :: grants) current [], rfl, rfl⟩
    | missing =>
      refine ⟨.scanning count keep grants "" [], ?_, ih _ _⟩
      simp [ParentStage.after, ParentStage.scanAfter]
    | found names =>
      refine ⟨.scanning count keep grants grant names, ?_, ?_⟩
      · simp [ParentStage.after, ParentStage.scanAfter]
      · refine (scanDeltas_stages count grants grant keep names).bind ?_
        rintro more _ rfl
        exact ih _ _

theorem namedParents_stages (count : Nat) : namedParents.Stages (.seen count) (Scanned count) := by
  refine follows_act fun keep => ⟨_, rfl, follows_act ?_⟩
  intro listing
  cases listing with
  | failed => exact ⟨_, rfl, rfl⟩
  | missing => exact ⟨_, rfl, "", rfl⟩
  | found grants => exact ⟨_, rfl, scanGrants_stages count "" keep grants⟩

theorem closeUnnamed_stages (keep shas left : List String)
    (listed : ∀ sha ∈ left, sha ∈ keep ∨ sha ∈ shas) :
    (closeUnnamed keep shas).Stages (.closing keep left) fun _ later =>
      ∃ rest, later = .closing keep rest ∧ ∀ sha ∈ rest, sha ∈ keep := by
  induction shas generalizing left with
  | nil => exact ⟨left, rfl, fun sha mem => by simpa using listed sha mem⟩
  | cons sha shas ih =>
    unfold closeUnnamed
    by_cases kept : sha ∈ keep
    · rw [if_pos kept]
      refine ih left ?_
      intro other mem
      obtain known | same | later := (listed other mem).imp_right List.mem_cons.mp
      · exact .inl known
      · exact .inl (same ▸ kept)
      · exact .inr later
    · rw [if_neg kept]
      refine follows_act fun _ => ⟨_, rfl, ih _ ?_⟩
      intro other mem
      obtain ⟨there, apart⟩ := List.mem_filter.mp mem
      obtain known | same | later := (listed other there).imp_right List.mem_cons.mp
      · exact .inl known
      · simp [same] at apart
      · exact .inr later

theorem removeEntries_stages (keep shas left : List String) (closed : ∀ sha ∈ left, sha ∈ keep) :
    (removeEntries keep shas).Stages (.closing keep left) fun _ later =>
      later = .closing keep left := by
  induction shas with
  | nil => rfl
  | cons sha shas ih =>
    unfold removeEntries
    by_cases kept : sha ∈ keep
    · rw [if_pos kept]
      exact ih
    · rw [if_neg kept]
      refine follows_act fun _ => ⟨.closing keep left, ?_, ih⟩
      simp only [ParentStage.after, ParentStage.pruneAfter]
      rw [if_pos ⟨kept, closed⟩]

theorem removeUnnamed_stages (keep : List String) :
    (removeUnnamed keep).Stages (.removing keep) fun _ later =>
      ∃ left, later = .closing keep left := by
  refine follows_act fun loaded => ⟨_, rfl, ?_⟩
  refine (closeUnnamed_stages keep loaded loaded fun _ => .inr).bind ?_
  rintro _ _ ⟨left, rfl, closed⟩
  refine follows_act fun listing => ⟨_, rfl, ?_⟩
  cases listing with
  | failed | missing => exact ⟨left, rfl⟩
  | found shas => exact (removeEntries_stages keep shas left closed).mono fun _ _ same => ⟨left, same⟩

theorem pruneScan_stages :
    pruneScan.Stages (.outside none) fun _ later => later = .outside none := by
  refine follows_act fun seen => ⟨.seen seen, rfl, ?_⟩
  refine (namedParents_stages seen).bind ?_
  intro value later scanned
  cases value with
  | none => exact fun _ => ⟨_, scanned, rfl⟩
  | some keep =>
    obtain ⟨grant, rfl⟩ := scanned
    refine follows_act ?_
    intro locked
    cases locked with
    | false => exact ⟨_, rfl, fun _ => ⟨.outside none, rfl, rfl⟩⟩
    | true =>
      refine ⟨.locked seen keep, rfl, follows_act ?_⟩
      intro now
      refine ⟨_, rfl, ?_⟩
      by_cases same : now = seen
      · rw [if_pos same, if_pos same]
        refine (removeUnnamed_stages keep).bind ?_
        rintro _ _ ⟨left, rfl⟩
        exact fun _ => ⟨.released, rfl, fun _ => ⟨.outside none, rfl, rfl⟩⟩
      · rw [if_neg same, if_neg same]
        exact fun _ => ⟨.released, rfl, fun _ => ⟨.outside none, rfl, rfl⟩⟩

theorem pruneTimes_stages (count : Nat) :
    (pruneTimes count).Stages (.outside none) fun _ later => later = .outside none := by
  induction count with
  | zero => rfl
  | succ count ih =>
    refine pruneScan_stages.bind ?_
    rintro value _ rfl
    cases value with
    | some pruned => rfl
    | none => exact ih

end ParentProg

theorem ParentCall.body_stages (call : ParentCall) :
    call.body.Stages (.outside none) fun _ later => later = .outside none := by
  cases call with
  | warm uid sha move => exact (ParentProg.warm_stages uid sha move).bind fun _ _ same => same
  | warmPlain uid | dropWarm uid | discard grant name =>
    exact ParentProg.outside_stages (fun _ => rfl) fun _ => rfl
  | park grant name sync => exact ParentProg.park_stages grant name sync
  | merge sha => exact ParentProg.merge_stages sha
  | publishParent sha => exact ParentProg.publishParent_stages sha
  | claim grant name sha => exact ParentProg.claim_stages grant name sha
  | prune => exact ParentProg.pruneTimes_stages ParentProg.pruneScans

def parentProtocol : Protocol (parentKernel.guarded movesUnscanned) ParentStage where
  inv := ParentStore.Sound
  idle := .outside none
  At thread stage store := store.At thread stage
  ends _ later := later = .outside none
  after := ParentStage.after
  started := by
    rintro store rfl
    refine ⟨ParentStore.sound_newParentStore, ?_⟩
    intro thread
    refine ⟨by simp [newParentStore], ?_⟩
    intro key name found
    simp [newParentStore] at found
  moved := by
    intro store thread stage action fine result next later sound here may ran
    obtain ⟨free, done⟩ := Kernel.guarded_perform ran
    have step := ParentStore.stage_step sound here may free done
    exact ⟨step.sound, step.here,
      fun other stage apart there => there.moves sound step.sound step.moves apart⟩
  bodies := ParentCall.body_stages

namespace ParentStore

/-- Every parent that a published warm or a manifest names is in the store, but for the manifests
of claims that have not ensured theirs. -/
def NamedStored (store : ParentStore) : Prop :=
  (∀ uid name, store.warms.get uid = some name → name.parent ≠ "" →
    (store.entries.get name.parent).isSome) ∧
  ∀ key name, store.deltas.get key = some name → name.parent ≠ "" →
    name.state ≠ .awaiting → name.state ≠ .refused → (store.entries.get name.parent).isSome

/-- No parent that an open section has obtained is closed. -/
def SectionsOpen (store : ParentStore) : Prop :=
  ∀ thread parents, store.sections.get thread = some parents →
    ∀ parent ∈ parents, store.loads.read parent ≠ .closed

theorem Sound.namedStored {store : ParentStore} (sound : store.Sound) : store.NamedStored := by
  refine ⟨?_, ?_⟩
  · intro uid name got named
    obtain ⟨has, recorded⟩ := sound.names.warms uid name got
    exact has.kept named (.inl recorded)
  · intro key name got named waiting refused
    refine (sound.names.deltas key name got).kept named ?_
    cases state : name.state with
    | recorded => exact .inl rfl
    | awaiting => exact absurd state waiting
    | ensured => exact .inr rfl
    | refused => exact absurd state refused

theorem Sound.sectionsOpen {store : ParentStore} (sound : store.Sound) : store.SectionsOpen := by
  intro tid parents got parent mem closed
  simp [(sound.obtained tid parents got parent mem).2] at closed

end ParentStore

def emptyStore : ParentThreads := ⟨newParentStore, ∅⟩

theorem emptyStore_start : parentKernel.machine.start emptyStore := ⟨rfl, rfl⟩

def namedRun : List ParentEvent :=
  .start 0 (.warm "g" "p" true) :: acts 0 11 true ++
  .start 1 (.park "g" "1-1" true) :: acts 1 9 true ++ .start 2 (.dropWarm "g") :: acts 2 1 true

/-- The park fails and its directory is kept aside.  A prune leaves the parent it names; the next
one takes it, after the directory was discarded. -/
def discardedRun : List ParentEvent :=
  namedRun ++ [.act 1 false, .act 1 true] ++ .start 3 .prune :: acts 3 11 true ++
  .start 4 (.discard "g" "1-1.failed") :: acts 4 1 true ++ .start 5 .prune :: acts 5 11 true

/-- The directory is moved aside after the prune listed it and before the prune reads it. -/
def movedUnderScan : List ParentEvent :=
  namedRun ++ .start 3 .prune :: acts 3 4 true ++ [.act 1 false, .act 1 true] ++ acts 3 9 true

end Fiberd
