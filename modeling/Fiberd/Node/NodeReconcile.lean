import Fiberd.Home.HomeHeld
import Fiberd.Node.NodeCore

/-!
A restart keeps the parked sessions whose grant comes back.  `Reconcile` goes twice
through the snapshot: the first round decides where a grant stands, in the ledger
or held back, and the second puts each session there.  The snapshot it then writes
lists the session again, so the argument goes through any number of boots.
-/

namespace Fiberd

open Heaps Tables Programs Machines LedgerSystem

namespace Ledger

variable (ledger : Ledger)

theorem restored_eq (snap : SessionSnapshot) :
    (ledger.restoreParked snap).toOption.getD ledger =
      if ledger.grants.get snap.grantUID ≠ none ∧ ledger.sessions.get snap.key = none then
        { ledger with sessions := ledger.sessions.put snap.key snap.record }
      else ledger := by
  unfold restoreParked SessionSnapshot.key SessionSnapshot.record
  cases admitted : ledger.grants.get snap.grantUID with
  | none => simp [Except.toOption]
  | some ptr =>
    cases here : ledger.sessions.get (sessionKey snap.grantUID snap.name) with
    | none | some session => simp [Except.toOption]

theorem restoreAll_sessions (snapshots : List SessionSnapshot) :
    ledger.restoreAll snapshots =
      { ledger with sessions := (ledger.restoreAll snapshots).sessions } := by
  induction snapshots generalizing ledger with
  | nil => rfl
  | cons snap rest ih =>
    have first : (ledger.restoreParked snap).toOption.getD ledger =
        { ledger with
          sessions := ((ledger.restoreParked snap).toOption.getD ledger).sessions } := by
      rw [restored_eq]
      split <;> rfl
    simp only [restoreAll, List.foldl_cons] at ih ⊢
    rw [ih]
    rw [first]

theorem restoreAll_apart {snapshots : List SessionSnapshot} {key : String}
    (apart : ∀ snap ∈ snapshots, snap.key ≠ key) :
    (ledger.restoreAll snapshots).sessions.get key = ledger.sessions.get key := by
  induction snapshots generalizing ledger with
  | nil => rfl
  | cons snap rest ih =>
    have other : snap.key ≠ key := apart snap (by simp)
    simp only [restoreAll, List.foldl_cons] at ih ⊢
    rw [ih _ fun later mem => apart later (by simp [mem]), restored_eq]
    split
    · exact get_put_other _ _ (Ne.symm other)
    · rfl

theorem grant_admitGrant {system : LedgerSystem} (sound : Sound system) (grant : Grant)
    (uid : String) :
    (system.ledger.admitGrant grant).grant? uid =
      if uid = grant.uid then some grant else system.ledger.grant? uid := by
  unfold admitGrant grant?
  cases admitted : system.ledger.grants.get grant.uid with
  | some ptr =>
    by_cases same : uid = grant.uid
    · subst uid
      simp [admitted]
    · simp only [same, if_false]
      cases got : system.ledger.grants.get uid with
      | none => rfl
      | some other =>
        have apart : other ≠ ptr := by
          rintro rfl
          exact same (sound.entry_inj got admitted)
        simp [read_write, apart]
  | none =>
    by_cases same : uid = grant.uid
    · simp [same]
    · simp only [same, if_false, get_put_other _ _ same]
      cases got : system.ledger.grants.get uid with
      | none => rfl
      | some other =>
        simp only [Option.map_some]
        rw [read_alloc_old _ _ (sound.admitted uid other got).1]

theorem grant_isSome (uid : String) : ledger.grant? uid = none ↔ ledger.grants.get uid = none := by
  simp [grant?]

end Ledger

structure Node.Named (node : Node) : Prop where
  sound : Sound node.home.system
  records : node.home.RecordsNamed
  held : HeldNamed node.home
  grants : ∀ uid grant, node.heldGrants.get uid = some grant → grant.uid = uid

variable {home next : Home} {tid : Nat} {action : Act}

variable {result : action.Result}

namespace Node

variable {node next : Node} {uid key : String} {grant : Grant} {session : SessionSnapshot}

theorem named_new (epoch : Nat) (revoked : Option Revoked) (file : Snapshot) :
    (newNode epoch revoked file).Named := by
  refine ⟨sound_new epoch, ?_, ?_, ?_⟩
  · intro key session got
    simp [newNode, newHome, newSystem, newLedger] at got
  · intro uid snapshots got
    simp [newNode, newHome] at got
  · intro uid grant got
    simp [newNode] at got

theorem Named.core {tid : Nat} {action : Act} {answer : Answer} {result : action.Result}
    {home : Home} (named : node.Named)
    (ran : node.home.perform tid action answer = some (result, home)) :
    Named { node with home := home } := by
  refine ⟨?_, named.records.moved ran, named.held.moved ran, named.grants⟩
  rcases Home.perform_books ran with ⟨op, done, _⟩ | ⟨same, books⟩
  · exact named.sound.apply done
  · exact same ▸ named.sound.quiet books.quiet

theorem Named.hold (named : node.Named) (grant : Grant) :
    Named { node with
      home := { node.home with held := node.home.held.put grant.uid [] }
      heldGrants := node.heldGrants.put grant.uid grant } := by
  refine ⟨named.sound, named.records, ?_, ?_⟩
  · intro uid snapshots got snap mem
    obtain ⟨_, got⟩ | ⟨_, got⟩ := get_put_eq_some got
    · simp [← got] at mem
    · exact named.held uid snapshots got snap mem
  · intro uid other got
    obtain ⟨same, got⟩ | ⟨_, got⟩ := get_put_eq_some got
    · rw [← got, same]
    · exact named.grants uid other got

theorem restoreAll_named {ledger : Ledger} {snapshots : List SessionSnapshot}
    (named : ∀ key session, ledger.sessions.get key = some session →
      key = sessionKey session.grantUID session.name ∧
        (session.state = .running → session.name ≠ "")) {key : String} {session : Session}
    (got : (ledger.restoreAll snapshots).sessions.get key = some session) :
    key = sessionKey session.grantUID session.name ∧
      (session.state = .running → session.name ≠ "") := by
  induction snapshots generalizing ledger with
  | nil => exact named key session got
  | cons snap rest ih =>
    refine ih ?_ got
    intro key session got
    dsimp only at got
    rw [Ledger.restored_eq] at got
    split at got
    · obtain ⟨same, got⟩ | ⟨_, got⟩ := get_put_eq_some got
      · subst session key
        exact ⟨rfl, by simp [SessionSnapshot.record]⟩
      · exact named key session got
    · exact named key session got

theorem Named.letIn (named : node.Named) (grant : Grant) :
    Named { node with home := node.home.letIn grant } := by
  refine ⟨?_, ?_, ?_, named.grants⟩
  · have quiet : (node.home.ledger.admitGrant grant).Quiet
        ((node.home.ledger.admitGrant grant).restoreAll
          ((node.home.held.get grant.uid).getD [])) := by
      rw [Ledger.restoreAll_sessions]
      exact (Ledger.Quiet.refl _).withSessions _
    exact (named.sound.admitGrant grant).quiet quiet
  · intro key session got
    refine restoreAll_named ?_ got
    intro key session got
    refine named.records key session ?_
    rwa [(admitGrant_fields node.home.ledger grant).2.1] at got
  · intro uid snapshots got snap mem
    have kept : node.home.held.get uid = some snapshots := by
      obtain ⟨_, got⟩ := get_drop_eq_some got
      exact got
    exact named.held uid snapshots kept snap mem

structure Beside (uid key : String) (node next : Node) : Prop where
  grant : next.home.ledger.grant? uid = node.home.ledger.grant? uid
  record : next.home.ledger.sessions.get key = node.home.ledger.sessions.get key
  owner : next.heldGrants.get uid = node.heldGrants.get uid
  here : next.home.held.get uid = node.home.held.get uid ∨
    ∃ snapshots snapshot, node.home.held.get uid = some snapshots ∧ snapshot.key ≠ key ∧
      next.home.held.get uid = some (snapshots ++ [snapshot])
  there : ∀ other snapshots, next.home.held.get other = some snapshots → ∀ snapshot ∈ snapshots,
    snapshot.key = key → ∃ before, node.home.held.get other = some before ∧ snapshot ∈ before

theorem beside_hold (other : grant.uid ≠ uid) :
    Beside uid key node { node with
      home := { node.home with held := node.home.held.put grant.uid [] }
      heldGrants := node.heldGrants.put grant.uid grant } := by
  refine ⟨rfl, rfl, get_put_other _ _ (Ne.symm other),
    .inl (get_put_other _ _ (Ne.symm other)), ?_⟩
  intro name snapshots got snap mem _
  obtain ⟨_, got⟩ | ⟨_, got⟩ := get_put_eq_some got
  · simp [← got] at mem
  · exact ⟨snapshots, got, mem⟩

theorem beside_letIn (named : node.Named) (other : grant.uid ≠ uid)
    (apart : ∀ snapshots, node.home.held.get grant.uid = some snapshots →
      ∀ snap ∈ snapshots, snap.key ≠ key) :
    Beside uid key node { node with home := node.home.letIn grant } := by
  have restores : ∀ snap ∈ (node.home.held.get grant.uid).getD [], snap.key ≠ key := by
    intro snap mem
    cases got : node.home.held.get grant.uid with
    | none => simp [got] at mem
    | some snapshots => exact apart snapshots got snap (by simpa [got] using mem)
  refine ⟨?_, ?_, rfl, .inl (get_drop_other _ (Ne.symm other)), ?_⟩
  · change ((node.home.ledger.admitGrant grant).restoreAll _).grant? uid = _
    rw [Ledger.restoreAll_sessions]
    change (node.home.ledger.admitGrant grant).grant? uid = _
    rw [Ledger.grant_admitGrant named.sound, if_neg (Ne.symm other)]
  · change ((node.home.ledger.admitGrant grant).restoreAll _).sessions.get key = _
    rw [Ledger.restoreAll_apart _ restores, (admitGrant_fields _ _).2.1]
  · intro name snapshots got snap mem _
    obtain ⟨_, got⟩ := get_drop_eq_some got
    exact ⟨snapshots, got, mem⟩

theorem beside_holdParked {snap : SessionSnapshot} (other : snap.key ≠ key) :
    Beside uid key node { node with home := (node.home.holdParked snap).2 } := by
  unfold Home.holdParked
  split
  · rename_i sessions got
    refine ⟨rfl, rfl, rfl, ?_, ?_⟩
    · by_cases mine : uid = snap.grantUID
      · subst uid
        exact .inr ⟨sessions, snap, got, other, by simp⟩
      · exact .inl (get_put_other _ _ mine)
    · intro name snapshots after held mem same
      simp only [get_put] at after
      split at after
      · rename_i mine
        subst name
        cases after
        rcases List.mem_append.mp mem with old | new
        · exact ⟨sessions, got, old⟩
        · exact (other (List.mem_singleton.mp new ▸ same)).elim
      · exact ⟨snapshots, after, mem⟩
  · exact ⟨rfl, rfl, rfl, .inl rfl,
      fun _ snapshots got _ mem _ => ⟨snapshots, got, mem⟩⟩

theorem beside_restoreParked {snap : SessionSnapshot} {tid : Nat} {answer : Answer}
    {error : Option Ledger.RestoreError} {home : Home} (other : snap.key ≠ key)
    (ran : node.home.perform tid (.restoreParked snap) answer = some (error, home)) :
    Beside uid key node { node with home := home } := by
  obtain ⟨same, ledger⟩ := Home.perform_restoreParked ran
  have held : home.held = node.home.held := by rw [same, Home.withLedger]
  refine ⟨?_, ?_, rfl, .inl (by rw [held]), ?_⟩
  · dsimp only
    rw [ledger]
    split <;> rfl
  · dsimp only
    rw [ledger]
    split
    · exact get_put_other _ _ (Ne.symm other)
    · rfl
  · intro name snapshots got snap mem _
    exact ⟨snapshots, held ▸ got, mem⟩

structure Without (key : String) (node : Node) : Prop where
  record : node.home.ledger.sessions.get key = none
  held : ∀ uid snapshots, node.home.held.get uid = some snapshots →
    ∀ snapshot ∈ snapshots, snapshot.key ≠ key

theorem Without.beside (without : Without key node) (beside : Beside uid key node next) :
    Without key next := by
  refine ⟨beside.record.trans without.record, ?_⟩
  intro other snapshots got snap mem same
  obtain ⟨before, earlier, old⟩ := beside.there other snapshots got snap mem same
  exact without.held other before earlier snap old same

structure Ahead (uid : String) (node : Node) : Prop where
  grant : node.home.ledger.grant? uid = none
  held : node.home.held.get uid = none

theorem Ahead.beside (ahead : Ahead uid node) (beside : Beside uid key node next) :
    Ahead uid next := by
  refine ⟨beside.grant.trans ahead.grant, ?_⟩
  rcases beside.here with same | ⟨snapshots, _, got, _⟩
  · exact same.trans ahead.held
  · simp [ahead.held] at got

inductive Stands (grant : Grant) (node : Node) : Prop
  | held {snapshots : List SessionSnapshot}
      (out : node.home.ledger.grant? grant.uid = none)
      (kept : node.home.held.get grant.uid = some snapshots)
      (owner : node.heldGrants.get grant.uid = some grant)
  | admitted {verified : Grant}
      (entered : node.home.ledger.grant? grant.uid = some verified)
      (token : verified.token = grant.token)
      (free : node.home.held.get grant.uid = none)

theorem Stands.beside (stands : Stands grant node) (beside : Beside grant.uid key node next) :
    Stands grant next := by
  cases stands with
  | held out kept owner =>
    rcases beside.here with same | ⟨snapshots, snap, _, _, after⟩
    · exact .held (beside.grant.trans out) (same.trans kept) (beside.owner.trans owner)
    · exact .held (beside.grant.trans out) after (beside.owner.trans owner)
  | admitted entered token free =>
    refine .admitted (beside.grant.trans entered) token ?_
    rcases beside.here with same | ⟨snapshots, _, got, _⟩
    · exact same.trans free
    · simp [free] at got

inductive Settled (grant : Grant) (session : SessionSnapshot) (node : Node) : Prop
  | held {snapshots : List SessionSnapshot}
      (out : node.home.ledger.grant? grant.uid = none)
      (kept : node.home.held.get grant.uid = some snapshots)
      (owner : node.heldGrants.get grant.uid = some grant)
      (unknown : node.home.ledger.sessions.get session.key = none)
      (once : snapshots.filter (fun other => decide (other.key = session.key)) = [session])
      (alone : ∀ other others, other ≠ grant.uid → node.home.held.get other = some others →
        ∀ snapshot ∈ others, snapshot.key ≠ session.key)
  | parked {verified : Grant}
      (entered : node.home.ledger.grant? grant.uid = some verified)
      (token : verified.token = grant.token)
      (found : node.home.ledger.sessions.get session.key = some session.record)

theorem Settled.beside (settled : Settled grant session node)
    (beside : Beside grant.uid session.key node next) : Settled grant session next := by
  cases settled with
  | @held snapshots out kept owner unknown once alone =>
    have others : ∀ other others, other ≠ grant.uid → next.home.held.get other = some others →
        ∀ snap ∈ others, snap.key ≠ session.key := by
      intro other others apart got snap mem same
      obtain ⟨before, earlier, old⟩ := beside.there other others got snap mem same
      exact alone other before apart earlier snap old same
    have out := beside.grant.trans out
    have owner := beside.owner.trans owner
    have unknown := beside.record.trans unknown
    rcases beside.here with same | ⟨before, snap, got, apart, after⟩
    · exact .held out (same.trans kept) owner unknown once others
    · cases kept.symm.trans got
      refine .held out after owner unknown ?_ others
      rw [List.filter_append, once, List.filter_cons_of_neg (by simpa using apart)]
      rfl
  | parked entered token got =>
    exact .parked (beside.grant.trans entered) token (beside.record.trans got)

end Node

/-- The snapshot names the grant of the session once, and the session once. -/
structure Snapshot.Lists (snap : Snapshot) (grant : Grant) (session : SessionSnapshot) : Prop where
  grants : snap.grants.filter (fun other => decide (other.uid = session.grantUID)) = [grant]
  sessions : snap.sessions.filter
    (fun other => other.resumable && decide (other.key = session.key)) = [session]

namespace Snapshot.Lists

variable {snap : Snapshot} {grant : Grant} {session : SessionSnapshot}

theorem owner (lists : snap.Lists grant session) : grant.uid = session.grantUID := by
  have mem : grant ∈ [grant] := by simp
  rw [← lists.grants, List.mem_filter] at mem
  simpa using mem.2

theorem resumable (lists : snap.Lists grant session) : session.resumable = true := by
  have mem : session ∈ [session] := by simp
  rw [← lists.sessions, List.mem_filter] at mem
  simp only [Bool.and_eq_true] at mem
  exact mem.2.1

theorem listed (lists : snap.Lists grant session) : session ∈ snap.sessions := by
  have mem : session ∈ [session] := by simp
  rw [← lists.sessions, List.mem_filter] at mem
  exact mem.1

end Snapshot.Lists

namespace Ledger

theorem snapshot_grants {system : LedgerSystem} (sound : Sound system) (uid : String) :
    system.ledger.snapshot.grants.filter (fun grant => decide (grant.uid = uid)) =
      (system.ledger.grant? uid).toList := by
  rw [snapshot, filter_map_rows Grant.uid, grant?]
  · cases system.ledger.grants.get uid <;> rfl
  · intro name pointer got
    exact (sound.admitted name pointer got).2

theorem snapshot_sessions {home : Home} (named : home.RecordsNamed) (key : String) :
    home.ledger.snapshot.sessions.filter (fun session => decide (session.key = key)) =
      (home.ledger.sessions.get key).toList.map Session.snapshot := by
  refine filter_map_rows SessionSnapshot.key ?_ key
  intro name session got
  exact (named name session got).1.symm

theorem any_of_filter {α β : Type} {entries : List α} {picks : α → Bool} {found : Option β}
    {shown : β → α} (picked : entries.filter picks = found.toList.map shown) :
    entries.any picks = found.isSome := by
  cases found with
  | none => simpa using picked
  | some value =>
    have mem : shown value ∈ entries.filter picks := by simp [picked]
    exact List.any_eq_true.mpr ⟨_, List.mem_filter.mp mem⟩

end Ledger

namespace Node

variable {node : Node} {grant : Grant} {session : SessionSnapshot}

theorem mem_heldUIDs (named : node.Named) (uid : String) : uid ∈ node.heldUIDs ↔
      (∃ snapshots, node.home.held.get uid = some snapshots) ∧
        node.home.ledger.grant? uid = none := by
  have admitted : (node.home.ledger.snapshot.grants.any fun grant => decide (grant.uid = uid)) =
      (node.home.ledger.grant? uid).isSome :=
    Ledger.any_of_filter ((Ledger.snapshot_grants named.sound uid).trans (List.map_id _).symm)
  rw [heldUIDs, List.mem_filter, admitted, Ledger.sortIDs, List.mem_insertionSort, List.mem_map]
  constructor
  · rintro ⟨⟨⟨name, snapshots⟩, mem, rfl⟩, out⟩
    exact ⟨⟨snapshots, (mem_rows_iff _ _ _).mp mem⟩, by simpa using out⟩
  · rintro ⟨⟨snapshots, got⟩, out⟩
    exact ⟨⟨(uid, snapshots), (mem_rows_iff _ _ _).mpr got, rfl⟩, by simp [out]⟩

theorem heldUIDs_distinct (node : Node) : node.heldUIDs.Nodup :=
  ((List.perm_insertionSort _ _).nodup_iff.mpr (rows_distinct _)).filter _

theorem heldSessions_filter (named : node.Named) (uid key : String) :
    (node.heldSessions uid).filter (fun other => decide (other.key = key)) =
      if node.home.ledger.sessions.get key = none then
        ((node.home.held.get uid).getD []).filter fun other => decide (other.key = key)
      else [] := by
  have known := Ledger.any_of_filter (Ledger.snapshot_sessions named.records key)
  rw [heldSessions, List.filter_filter]
  split
  · rename_i unknown
    refine List.filter_congr ?_
    intro other _
    by_cases same : other.key = key
    · simp [same, known, unknown]
    · simp [same]
  · rename_i here
    refine List.filter_eq_nil_iff.mpr ?_
    intro other _ both
    simp only [Bool.and_eq_true, decide_eq_true_eq, Bool.not_eq_true'] at both
    rw [both.1, known] at both
    simp [here] at both

theorem snapshot_grants (named : node.Named) (uid : String) :
    node.snapshot.grants.filter (fun grant => decide (grant.uid = uid)) =
      (node.home.ledger.grant? uid).toList ++
        if uid ∈ node.heldUIDs then (node.heldGrants.get uid).toList else [] := by
  have others : ∀ name, name ≠ uid →
      (node.heldGrants.get name).toList.filter (fun grant => decide (grant.uid = uid)) = [] := by
    intro name apart
    refine List.filter_eq_nil_iff.mpr ?_
    intro grant member same
    rw [Option.mem_toList] at member
    simp only [decide_eq_true_eq] at same
    exact apart ((named.grants name grant member).symm.trans same)
  rw [snapshot, List.filter_append, Ledger.snapshot_grants named.sound, List.filter_flatMap]
  congr 1
  split
  · rename_i member
    rw [flatMap_single node.heldUIDs_distinct member fun name _ => others name,
      List.filter_eq_self]
    intro grant got
    rw [Option.mem_toList] at got
    simp [named.grants uid grant got]
  · rename_i gone
    rw [List.flatMap_eq_nil_iff]
    intro name member
    exact others name (by rintro rfl; exact gone member)

theorem snapshot_sessions (named : node.Named) (key : String) :
    node.snapshot.sessions.filter (fun session => decide (session.key = key)) =
      (node.home.ledger.sessions.get key).toList.map Session.snapshot ++
        node.heldUIDs.flatMap fun uid =>
          (node.heldSessions uid).filter fun other => decide (other.key = key) := by
  rw [snapshot, List.filter_append, Ledger.snapshot_sessions named.records, List.filter_flatMap]

theorem Settled.lists (named : node.Named) (owner : grant.uid = session.grantUID)
    (resumable : session.resumable = true) (settled : Settled grant session node) :
    ∃ next listed, next.token = grant.token ∧ listed.record = session.record ∧
      node.snapshot.Lists next listed := by
  have split : ∀ key, node.snapshot.sessions.filter
      (fun other => other.resumable && decide (other.key = key)) =
      (node.snapshot.sessions.filter fun other => decide (other.key = key)).filter
        SessionSnapshot.resumable := by
    intro key
    rw [List.filter_filter]
  cases settled with
  | @held snapshots out kept own unknown once alone =>
    have mem : grant.uid ∈ node.heldUIDs :=
      (mem_heldUIDs named _).mpr ⟨⟨snapshots, kept⟩, out⟩
    refine ⟨grant, session, rfl, rfl, ?_, ?_⟩
    · rw [← owner, snapshot_grants named, out, if_pos mem, own]
      rfl
    · rw [split, snapshot_sessions named, unknown,
        flatMap_single node.heldUIDs_distinct mem, heldSessions_filter named, if_pos unknown,
        kept, Option.getD_some, once]
      · simp [resumable]
      · intro other inside apart
        obtain ⟨⟨others, got⟩, _⟩ := (mem_heldUIDs named other).mp inside
        rw [heldSessions_filter named, if_pos unknown, got, Option.getD_some,
          List.filter_eq_nil_iff]
        intro snap inside same
        exact alone other others apart got snap inside (by simpa using same)
  | @parked verified entered token got =>
    have out : grant.uid ∉ node.heldUIDs := by
      intro mem
      simp [((mem_heldUIDs named _).mp mem).2] at entered
    simp only [SessionSnapshot.resumable, Bool.and_eq_true, decide_eq_true_eq] at resumable
    refine ⟨verified, session.record.snapshot, token, rfl, ?_, ?_⟩
    · change node.snapshot.grants.filter (fun other => decide (other.uid = session.grantUID)) = _
      rw [← owner, snapshot_grants named, entered, if_neg out]
      rfl
    · change node.snapshot.sessions.filter
        (fun other => other.resumable && decide (other.key = session.key)) = _
      rw [split, snapshot_sessions named, got, List.flatMap_eq_nil_iff.mpr]
      · simp [SessionSnapshot.resumable, SessionSnapshot.record, Session.snapshot, resumable.2]
      · intro uid _
        rw [heldSessions_filter named, if_neg (by simp [got])]

end Node

def rechecks (config : NodeConfig) (grant : Grant) : Except CoreError Grant → Bool
  | .ok verified => decide (verified.uid = grant.uid) &&
      (decide (config.home.nodeID = "") || decide (verified.audience = config.home.nodeID))
  | .error .verifyUnavailable => true
  | .error _ => false

def bootFinds (config : NodeConfig) (grant : Grant) (ref : String) (_ : Node) (_ : Nat)
    (action : NodeAct) (answer : NodeAnswer) : Bool :=
  match action, answer with
  | .core (.ask .now), .core (.time now) => !grant.expired now
  | .core (.ask (.verify token)), .core (.verified result) =>
    decide (token ≠ grant.token) || rechecks config grant result
  | .hasDelta asked, .flag present => decide (asked ≠ ref) || present
  | _, _ => true

def bootAdmits (uid : String) (_ : Node) (_ : Nat) (action : NodeAct) (answer : NodeAnswer) :
    Bool :=
  match action, answer with
  | .coreAdmit verified, .flag admitted => decide (verified.uid ≠ uid) || admitted
  | _, _ => true

/-- Every write of the snapshot lands. -/
def bootLands (_ : Node) (_ : Nat) (action : NodeAct) (answer : NodeAnswer) : Bool :=
  match action, answer with
  | .persist, .flag landed => landed
  | _, _ => true

def bootRely (config : NodeConfig) (grant : Grant) (ref : String) (lands : Bool) :
    Nat → Node → NodeAct → NodeAnswer → Node → Prop :=
  fun mover node action answer _ =>
    mover = 0 ∧ bootFinds config grant ref node mover action answer = true ∧
      bootAdmits grant.uid node mover action answer = true ∧
      (lands = true → bootLands node mover action answer = true)

def Act.reads : Act → Bool
  | .ask _ | .grant _ | .epoch => true
  | _ => false

theorem Home.perform_reads {answer : Answer} (reads : action.reads = true)
    (ran : home.perform tid action answer = some (result, next)) : next = home := by
  cases action with
  | ask question =>
    obtain ⟨reply, _, same⟩ := Option.map_eq_some_iff.mp ran
    exact (congrArg Prod.snd same).symm
  | grant uid | epoch =>
    cases ran
    rfl
  | _ => simp [Act.reads] at reads

variable {node : Node}

theorem Node.perform_core {next : Node} {answer : NodeAnswer}
    (ran : node.perform tid (.core action) answer = some (result, next)) :
    ∃ given home, answer = .core given ∧
      node.home.perform tid action given = some (result, home) ∧
      next = { node with home := home } := by
  cases answer with
  | core given =>
    obtain ⟨⟨told, home⟩, done, same⟩ := Option.map_eq_some_iff.mp ran
    cases same
    exact ⟨given, home, rfl, done, rfl⟩
  | _ => cases ran

def Call.Reads {β : Type} (program : Call β) : Prop :=
  program.Only fun action => action.reads = true

theorem Call.reads_ask (question : Question) : Reads (ask question) := ⟨rfl, fun _ => trivial⟩

theorem Call.reads_audit (durability : Durability) (record : CoreRecord) :
    Reads (audit durability record) :=
  ⟨rfl, fun _ => trivial⟩

theorem Call.reads_auditGrant (event uid session detail : String) :
    Reads (auditGrant event uid session detail) :=
  ⟨rfl, fun _ => ⟨rfl, fun _ => trivial⟩⟩

theorem Call.reads_discardDelta (config : HomeConfig) (fence : Fence) (session ref : String) :
    Reads (discardDelta config fence session ref) := by
  have retires : Reads (retireDelta config fence session ref) := by
    unfold retireDelta
    split
    · refine Prog.Only.bind (reads_ask _) fun retired => ?_
      split
      · exact Prog.Only.bind (reads_audit _ _) fun _ => trivial
      · trivial
    · trivial
  refine Prog.Only.bind retires fun _ => ?_
  split
  · refine Prog.Only.bind (reads_ask _) fun dropped => ?_
    split
    · exact Prog.Only.bind (reads_audit _ _) fun _ => trivial
    · trivial
  · trivial

section Boot

variable {config : NodeConfig} {grant : Grant} {ref : String} {lands : Bool}

theorem stable_boot (assertion : Node → Prop) :
    Stable (bootRely config grant ref lands) 0 assertion := by
  intro other node action answer next apart moved
  exact (apart moved.1).elim

variable (config grant ref lands) in
abbrev Boots {β : Type} (program : NodeProg β) (before : Node → Prop) (after : β → Node → Prop) :
    Prop :=
  Outline (nodeKernel config) (bootRely config grant ref lands) 0 program before after

variable {β γ : Type} {before : Node → Prop} {after : β → Node → Prop}

theorem boots_act {action : NodeAct} {rest : action.Result → NodeProg β}
    (later : action.Result → Node → Prop) (own : ∀ node answer result next, before node →
      node.perform 0 action answer = some (result, next) →
      bootFinds config grant ref node 0 action answer = true →
      bootAdmits grant.uid node 0 action answer = true →
      (lands = true → bootLands node 0 action answer = true) → later result next)
    (last : ∀ result, Boots config grant ref lands (rest result) (later result) after) :
    Boots config grant ref lands (NodeProg.act action >>= rest) before after :=
  outline_act later (fun _ => stable_boot _)
    (fun node answer result next has ran moved =>
      own node answer result next has ran moved.2.1 moved.2.2.1 moved.2.2.2) last

theorem boots_reads {prog : Call γ} (reads : Call.Reads prog) {rest : γ → NodeProg β}
    (last : ∀ value, Boots config grant ref lands (rest value) before after) :
    Boots config grant ref lands (NodeProg.onCore prog >>= rest) before after := by
  induction prog with
  | done value => exact last value
  | call action next ih =>
    refine boots_act (fun _ => before) ?_ fun result => ih result (reads.2 result)
    intro node answer result next has ran _ _ _
    obtain ⟨given, home, _, done, rfl⟩ := Node.perform_core ran
    rw [Home.perform_reads reads.1 done]
    exact has

theorem boots_done {value : β} (done : ∀ node, before node → after value node) :
    Boots config grant ref lands (pure value) before after :=
  done

def Rechecked (grant entry : Grant) (result : Except CoreError Grant) : Prop :=
  (∀ verified, result = .ok verified → verified.uid = entry.uid ∧ verified.token = entry.token) ∧
    (entry = grant → result = .error .verifyUnavailable ∨ ∃ verified, result = .ok verified)

theorem boots_reverify (entry : Grant) :
    Boots config grant ref lands (NodeProg.reverify config entry) before fun result node =>
      before node ∧ Rechecked grant entry result := by
  refine boots_act (fun result node => before node ∧
    (entry = grant → rechecks config grant result = true)) ?_ fun result => ?_
  · intro node answer result next has ran finds _ _
    obtain ⟨given, home, rfl, done, rfl⟩ := Node.perform_core ran
    rw [Home.perform_reads rfl done]
    refine ⟨has, ?_⟩
    rintro rfl
    cases given with
    | verified told =>
      simp only [Home.perform, Question.read, Option.map_some, Option.some.injEq,
        Prod.mk.injEq] at done
      simpa [bootFinds, done.1] using finds
    | _ => simp [Home.perform, Question.read] at done
  · cases result with
    | error error =>
      refine boots_done fun node has => ⟨has.1, by simp, fun same => .inl ?_⟩
      have checked := has.2 same
      cases error <;> first | rfl | simp [rechecks] at checked
    | ok verified =>
      dsimp only
      split
      · rename_i apart
        refine boots_done fun node has => ⟨has.1, by simp, fun same => ?_⟩
        subst same
        simp [rechecks, apart] at has
      · rename_i mine
        simp only [ne_eq, not_not] at mine
        split
        · rename_i foreign
          refine boots_done fun node has => ⟨has.1, by simp, fun same => ?_⟩
          subst same
          simp [rechecks, mine, foreign.1, foreign.2] at has
        · refine boots_done fun node has => ⟨has.1, ?_, fun _ => .inr ⟨_, rfl⟩⟩
          rintro _ ⟨⟩
          exact ⟨mine, rfl⟩

end Boot

def Node.Wrote (node next : Node) : Prop :=
  next.home = node.home ∧ next.heldGrants = node.heldGrants

namespace Node

variable {node next : Node} {uid key : String}

theorem Wrote.beside (wrote : node.Wrote next) : Beside uid key node next := by
  obtain ⟨home, grants⟩ := wrote
  refine ⟨by rw [home], by rw [home], by rw [grants], .inl (by rw [home]), ?_⟩
  intro other snapshots got snap mem _
  exact ⟨snapshots, home ▸ got, mem⟩

theorem Named.wrote (named : node.Named) (wrote : node.Wrote next) : next.Named := by
  obtain ⟨home, grants⟩ := wrote
  exact ⟨home ▸ named.sound, home ▸ named.records, home ▸ named.held, grants ▸ named.grants⟩

theorem Wrote.snapshot_eq (wrote : node.Wrote next) : next.snapshot = node.snapshot := by
  obtain ⟨home, grants⟩ := wrote
  have uids : next.heldUIDs = node.heldUIDs := by rw [heldUIDs, heldUIDs, home]
  have sessions : next.heldSessions = node.heldSessions := by
    funext uid
    rw [heldSessions, heldSessions, home]
  rw [snapshot, snapshot, uids, sessions, home, grants]

theorem perform_persist {tid : Nat} {answer : NodeAnswer} {done : NodeAct.persist.Result}
    (ran : node.perform tid .persist answer = some (done, next)) :
    node.Wrote next ∧ next.persisted = node.snapshot ∧ next.keep = node.keep ∧
      (bootLands node tid .persist answer = true → next.file = node.snapshot) := by
  cases answer with
  | flag landed =>
    cases ran
    refine ⟨⟨rfl, rfl⟩, rfl, rfl, ?_⟩
    intro lands
    exact if_pos lands
  | _ => cases ran

end Node

section Loops

open NodeProg

variable {config : NodeConfig} {grant : Grant} {ref : String} {lands : Bool} {key : String}
  {before : Node → Prop}

structure Midway (key : String) (stage : Node → Prop) (node : Node) : Prop where
  named : node.Named
  without : Node.Without key node
  stage : stage node

def Aloof (uid key : String) (stage : Node → Prop) : Prop :=
  ∀ node next, Node.Beside uid key node next → stage node → stage next

theorem aloof_ahead (uid key : String) : Aloof uid key (Node.Ahead uid) :=
  fun _ _ beside ahead => ahead.beside beside

theorem aloof_stands (grant : Grant) (key : String) : Aloof grant.uid key (Node.Stands grant) :=
  fun _ _ beside stands => stands.beside beside

variable {stage : Node → Prop}

theorem Midway.beside {node next : Node} {uid : String}
    (aloof : Aloof uid key stage) (midway : Midway key stage node) (named : next.Named)
    (beside : Node.Beside uid key node next) : Midway key stage next :=
  ⟨named, midway.without.beside beside, aloof node next beside midway.stage⟩

theorem boots_coreAdmit {verified : Grant} (later : Bool → Node → Prop)
    (own : ∀ node admitted, before node → (verified.uid = grant.uid → admitted = true) →
      later admitted (if admitted then { node with home := node.home.letIn verified } else node))
    (wrote : ∀ admitted node next, node.Wrote next → later admitted node → later admitted next) :
    Boots config grant ref lands (NodeProg.coreAdmit verified) before later := by
  refine boots_act later ?_ fun admitted => ?_
  · intro node answer admitted next has ran _ admits _
    cases answer with
    | flag value =>
      obtain ⟨rfl, rfl⟩ := outcome_eq ran
      refine own node value has ?_
      intro same
      simpa [bootAdmits, same] using admits
    | _ => cases ran
  · dsimp only
    split
    · refine boots_act (fun _ => later admitted) ?_ fun _ => boots_done fun _ has => has
      intro node answer _ next has ran _ _ _
      exact wrote admitted node next (Node.perform_persist ran).1 has
    · exact boots_done fun _ has => has

variable {now : Time}

theorem boots_otherGrant {entry : Grant}
    (aloof : Aloof grant.uid key stage) (apart : entry.uid ≠ grant.uid) (report : ReconcileReport) :
    Boots config grant ref lands (reconcileGrant config now entry report) (Midway key stage)
      fun _ => Midway key stage := by
  unfold reconcileGrant
  split
  · exact boots_reads (Call.reads_auditGrant _ _ _ _) fun _ => boots_done fun _ has => has
  · split
    · exact boots_done fun _ has => has
    · refine (boots_reverify entry).bind fun result => ?_
      split
      · refine boots_act (fun _ => Midway key stage) ?_ fun _ => boots_done fun _ has => has
        rintro node answer _ next ⟨midway, _⟩ ran _ _ _
        cases ran
        exact midway.beside aloof (midway.named.hold entry) (Node.beside_hold apart)
      · exact boots_reads (Call.reads_auditGrant _ _ _ _) fun _ =>
          boots_done fun _ has => has.1
      · rename_i verified
        refine (boots_coreAdmit (fun _ => Midway key stage) ?_ ?_).bind fun admitted => ?_
        · rintro node admitted ⟨midway, rechecked⟩ _
          split
          · have other : verified.uid ≠ grant.uid := by
              rw [(rechecked.1 verified rfl).1]
              exact apart
            exact midway.beside aloof (midway.named.letIn verified)
              (Node.beside_letIn midway.named other (midway.without.held verified.uid))
          · exact midway
        · intro _ node next wrote midway
          exact midway.beside aloof (midway.named.wrote wrote) wrote.beside
        · split <;> exact boots_done fun _ has => has

/-- A loop over the entries in which one is picked: the others keep the stages before and after. -/
theorem boots_once {ε : Type} {loop : List ε → ReconcileReport → NodeProg ReconcileReport}
    {body : ε → ReconcileReport → NodeProg ReconcileReport} {picks : ε → Bool} {entries : List ε}
    {one : ε} {first last : Node → Prop} (done : ∀ report, loop [] report = pure report)
    (turn : ∀ entry rest report, loop (entry :: rest) report = body entry report >>= loop rest)
    (once : entries.filter picks = [one])
    (ahead : ∀ entry report, picks entry = false →
      Boots config grant ref lands (body entry report) first fun _ => first)
    (own : ∀ report, Boots config grant ref lands (body one report) first fun _ => last)
    (behind : ∀ entry report, picks entry = false →
      Boots config grant ref lands (body entry report) last fun _ => last)
    (report : ReconcileReport) :
    Boots config grant ref lands (loop entries report) first fun _ => last := by
  have tail : ∀ rest : List ε, (∀ entry ∈ rest, picks entry = false) → ∀ report,
      Boots config grant ref lands (loop rest report) last fun _ => last := by
    intro rest others
    induction rest with
    | nil =>
      intro report
      rw [done]
      exact boots_done fun _ has => has
    | cons entry rest ih =>
      intro report
      rw [turn]
      exact (behind entry report (others entry (by simp))).bind
        (ih fun later mem => others later (by simp [mem]))
  induction entries generalizing report with
  | nil => simp at once
  | cons entry rest ih =>
    rw [turn]
    cases picked : picks entry with
    | true =>
      rw [List.filter_cons_of_pos picked] at once
      obtain ⟨rfl, rest_⟩ := List.cons.inj once
      exact (own report).bind (tail rest (by simpa using rest_))
    | false =>
      rw [List.filter_cons_of_neg (by simp [picked])] at once
      exact (ahead entry report picked).bind (ih once)

theorem boots_ownGrant (live : grant.expired now = false) (tokened : grant.token ≠ "")
    (report : ReconcileReport) :
    Boots config grant ref lands (reconcileGrant config now grant report)
      (Midway key (Node.Ahead grant.uid)) fun _ => Midway key (Node.Stands grant) := by
  simp only [reconcileGrant, live, Bool.false_eq_true, if_false, tokened]
  refine (boots_reverify grant).bind fun result => ?_
  split
  · refine boots_act (fun _ => Midway key (Node.Stands grant)) ?_ fun _ =>
      boots_done fun _ has => has
    rintro node answer _ next ⟨midway, _⟩ ran _ _ _
    cases ran
    refine ⟨midway.named.hold grant, ⟨midway.without.record, ?_⟩,
      .held midway.stage.grant (get_put_same _ _ _) (get_put_same _ _ _)⟩
    intro uid snapshots got snap mem
    obtain ⟨_, got⟩ | ⟨_, got⟩ := get_put_eq_some got
    · simp [← got] at mem
    · exact midway.without.held uid snapshots got snap mem
  · rename_i error open_
    refine boots_reads (Call.reads_auditGrant _ _ _ _) fun _ => boots_done fun node has => ?_
    rcases has.2.2 rfl with unavailable | ⟨_, verified⟩
    · exact (open_ (Except.error.inj unavailable)).elim
    · cases verified
  · rename_i verified
    refine (boots_coreAdmit (fun admitted node => admitted = true ∧
      Midway key (Node.Stands grant) node) ?_ ?_).bind fun admitted => ?_
    · rintro node admitted ⟨midway, rechecked⟩ admits
      obtain ⟨same, token⟩ := rechecked.1 verified rfl
      obtain rfl := admits same
      have out : node.home.held.get verified.uid = none := by
        rw [same]
        exact midway.stage.held
      refine ⟨rfl, midway.named.letIn verified, ⟨?_, ?_⟩, .admitted ?_ token ?_⟩
      · change ((node.home.ledger.admitGrant verified).restoreAll _).sessions.get key = _
        rw [out, Option.getD_none]
        change (node.home.ledger.admitGrant verified).sessions.get key = none
        rw [(admitGrant_fields _ _).2.1]
        exact midway.without.record
      · intro uid snapshots got
        obtain ⟨_, got⟩ := get_drop_eq_some got
        exact midway.without.held uid snapshots got
      · change ((node.home.ledger.admitGrant verified).restoreAll _).grant? grant.uid = _
        rw [Ledger.restoreAll_sessions]
        change (node.home.ledger.admitGrant verified).grant? grant.uid = _
        rw [Ledger.grant_admitGrant midway.named.sound, if_pos same.symm]
      · rw [← same]
        exact get_drop_same _ _
    · rintro _ node next wrote ⟨admitted, midway⟩
      exact ⟨admitted, midway.beside (aloof_stands grant key) (midway.named.wrote wrote)
        wrote.beside⟩
    · split
      · exact boots_done fun _ has => has.2
      · exact boots_done fun _ has => has.2

theorem boots_grants {entries : List Grant} (live : grant.expired now = false)
    (tokened : grant.token ≠ "")
    (once : entries.filter (fun entry => decide (entry.uid = grant.uid)) = [grant]) :
    Boots config grant ref lands (reconcileGrants config now entries {})
      (Midway key (Node.Ahead grant.uid)) fun _ => Midway key (Node.Stands grant) := by
  refine boots_once (fun _ => rfl) (fun _ _ _ => rfl) once ?_ (boots_ownGrant live tokened) ?_ {}
  · intro entry report other
    exact boots_otherGrant (aloof_ahead _ _) (by simpa using other) report
  · intro entry report other
    exact boots_otherGrant (aloof_stands _ _) (by simpa using other) report

end Loops

section Sessions

open NodeProg

variable {config : NodeConfig} {grant : Grant} {lands : Bool} {session : SessionSnapshot}

structure Arrived (grant : Grant) (session : SessionSnapshot) (node : Node) : Prop where
  named : node.Named
  settled : Node.Settled grant session node

theorem Arrived.beside {node next : Node} (arrived : Arrived grant session node)
    (named : next.Named) (beside : Node.Beside grant.uid session.key node next) :
    Arrived grant session next :=
  ⟨named, arrived.settled.beside beside⟩

theorem boots_deltaGone {ref : String} {before : Node → Prop} (asked : String) :
    Boots config grant ref lands (deltaGone config asked) before fun gone node =>
      before node ∧ (asked = ref → gone = false) := by
  unfold deltaGone
  split
  · refine boots_act (fun here node => before node ∧ (asked = ref → here = true)) ?_
      fun here => boots_done fun _ has => ⟨has.1, fun same => by simp [has.2 same]⟩
    intro node answer here next has ran finds _ _
    cases answer with
    | flag value =>
      cases ran
      exact ⟨has, fun same => by simpa [bootFinds, same] using finds⟩
    | _ => cases ran
  · exact boots_done fun _ has => ⟨has, fun _ => rfl⟩

theorem boots_otherSession {stage : Node → Prop} (named : ∀ node, stage node → node.Named)
    (kept : ∀ node next, stage node → next.Named →
      Node.Beside grant.uid session.key node next → stage next)
    {entry : SessionSnapshot} (other : entry.resumable = true → entry.key ≠ session.key)
    (report : ReconcileReport) :
    Boots config grant session.deltaRef lands (reconcileSession config entry report) stage
      fun _ => stage := by
  unfold reconcileSession
  split
  · rename_i resumable
    refine (boots_deltaGone entry.deltaRef).bind fun gone => ?_
    split
    · exact boots_done fun _ has => has.1
    · refine boots_act (fun _ => stage) ?_ fun held => ?_
      · rintro node answer held next ⟨has, _⟩ ran _ _ _
        obtain ⟨given, home, _, done, rfl⟩ := Node.perform_core ran
        have filed : node.home.holdParked entry = (held, home) := Option.some.inj done
        have beside : Node.Beside grant.uid session.key node
            { node with home := (node.home.holdParked entry).2 } :=
          Node.beside_holdParked (other resumable)
        rw [filed] at beside
        exact kept node _ has ((named node has).core done) beside
      · split
        · exact boots_done fun _ has => has
        · refine boots_act (fun _ => stage) ?_ fun error => ?_
          · intro node answer error next has ran _ _ _
            obtain ⟨given, home, _, done, rfl⟩ := Node.perform_core ran
            exact kept node _ has ((named node has).core done)
              (Node.beside_restoreParked (other resumable) done)
          · split <;> exact boots_done fun _ has => has
  · exact boots_done fun _ has => has

def Readmitted (grant : Grant) (node : Node) : Prop :=
  ∃ verified, verified.token = grant.token ∧ node.home.ledger.grant? grant.uid = some verified

theorem boots_ownSession (owner : grant.uid = session.grantUID)
    (resumable : session.resumable = true) (report : ReconcileReport) :
    Boots config grant session.deltaRef lands (reconcileSession config session report)
      (Midway session.key (Node.Stands grant)) fun _ => Arrived grant session := by
  simp only [reconcileSession, resumable, if_true]
  refine (boots_deltaGone session.deltaRef).bind fun gone => ?_
  split
  · rename_i dropped
    refine boots_done fun _ has => ?_
    simp [has.2 rfl] at dropped
  · refine boots_act (fun held node => (held = true → Arrived grant session node) ∧
      (held = false → Midway session.key (Readmitted grant) node)) ?_ fun held => ?_
    · rintro node answer held next ⟨midway, _⟩ ran _ _ _
      obtain ⟨given, home, _, done, rfl⟩ := Node.perform_core ran
      have named := midway.named.core done
      have filed : node.home.holdParked session = (held, home) := Option.some.inj done
      cases stands : midway.stage with
      | @held snapshots out kept owned =>
        rw [owner] at kept
        simp only [Home.holdParked, kept] at filed
        cases filed
        refine ⟨fun _ => ?_, by simp⟩
        refine ⟨named, .held out (by rw [owner]; exact get_put_same _ _ _) owned
          midway.without.record ?_ ?_⟩
        · have apart := midway.without.held session.grantUID snapshots kept
          rw [List.filter_append, List.filter_eq_nil_iff.mpr (by simpa using apart)]
          simp
        · intro other others different got
          rw [owner] at different
          exact midway.without.held other others (by rwa [get_put_other _ _ different] at got)
      | @admitted verified entered token free =>
        rw [owner] at free
        simp only [Home.holdParked, free] at filed
        cases filed
        exact ⟨by simp, fun _ => ⟨named, midway.without, verified, token, entered⟩⟩
    · split
      · rename_i filed
        exact boots_done fun _ has => has.1 filed
      · rename_i passed
        simp only [Bool.not_eq_true] at passed
        refine boots_act (fun _ => Arrived grant session) ?_ fun error => ?_
        · intro node answer error next has ran _ _ _
          replace has := has.2 passed
          obtain ⟨given, home, _, done, rfl⟩ := Node.perform_core ran
          obtain ⟨verified, token, entered⟩ := has.stage
          obtain ⟨_, ledger⟩ := Home.perform_restoreParked done
          have admitted : node.home.ledger.grants.get session.grantUID ≠ none := by
            rw [← owner, ne_eq, ← Ledger.grant_isSome, entered]
            simp
          rw [if_pos ⟨admitted, has.without.record⟩] at ledger
          refine ⟨has.named.core done, .parked ?_ token ?_⟩
          · dsimp only
            rw [ledger]
            exact entered
          · dsimp only
            rw [ledger]
            exact get_put_same _ _ _
        · split <;> exact boots_done fun _ has => has

theorem boots_sessions {entries : List SessionSnapshot} (owner : grant.uid = session.grantUID)
    (resumable : session.resumable = true)
    (once : entries.filter (fun other => other.resumable && decide (other.key = session.key)) =
      [session]) (report : ReconcileReport) :
    Boots config grant session.deltaRef lands (reconcileSessions config entries report)
      (Midway session.key (Node.Stands grant)) fun _ => Arrived grant session := by
  refine boots_once (fun _ => rfl) (fun _ _ _ => rfl) once ?_ (boots_ownSession owner resumable)
    ?_ report
  · intro entry report other
    refine boots_otherSession (fun _ midway => midway.named) ?_ (by simpa using other) report
    intro node next midway named beside
    exact midway.beside (aloof_stands grant session.key) named beside
  · intro entry report other
    refine boots_otherSession (fun _ arrived => arrived.named) ?_ (by simpa using other) report
    intro node next arrived named beside
    exact arrived.beside named beside

end Sessions

section Reconcile

open NodeProg

variable {config : NodeConfig} {grant : Grant} {lands : Bool} {session : SessionSnapshot}
  {snap : Snapshot}

variable {ref : String} {before : Node → Prop}

theorem boots_of_false {β : Type} {after : β → Node → Prop}
    (never : ∀ node, ¬before node) (prog : NodeProg β) :
    Boots config grant ref lands prog before after := by
  cases prog with
  | done value => exact fun node has => (never node has).elim
  | call action next => exact fun node _ _ _ has => (never node has).elim

theorem boots_killOrphans (ids : List String) (report : ReconcileReport) :
    Boots config grant ref lands (killOrphans ids report) before fun _ => before := by
  have kills : ∀ id, Boots config grant ref lands (killOrphan id) before fun _ => before := by
    intro id
    refine boots_act (fun _ => before) ?_ fun epoch => ?_
    · intro node answer epoch next has ran _ _ _
      obtain ⟨given, home, _, done, rfl⟩ := Node.perform_core ran
      rw [Home.perform_reads rfl done]
      exact has
    · split
      · exact boots_done fun _ has => has
      · refine boots_reads (Call.reads_ask _) fun released => ?_
        split
        · exact boots_reads (Call.reads_audit _ _) fun _ => boots_done fun _ has => has
        · exact boots_done fun _ has => has
  induction ids generalizing report with
  | nil => exact boots_done fun _ has => has
  | cons id rest ih =>
    refine (kills id).bind fun killed => ?_
    split
    · exact ih _
    · exact ih _

theorem boots_discardConsumed (entries : List SessionSnapshot) :
    Boots config grant ref lands (discardConsumed config entries) before fun _ => before := by
  induction entries with
  | nil => exact boots_done fun _ has => has
  | cons entry rest ih =>
    unfold discardConsumed
    split
    · exact boots_reads (Call.reads_discardDelta _ _ _ _) fun _ => ih
    · exact ih

def Spared (config : NodeConfig) (snap : Snapshot) (ref : String) (node : Node) : Prop :=
  config.sweepsDeltas = true → snap.unreadable = false →
    ∃ keep, node.keep = some keep ∧ ref ∈ keep

theorem boots_sweepDeltas (owner : grant.uid = session.grantUID)
    (resumable : session.resumable = true) :
    Boots config grant session.deltaRef lands (sweepDeltas config snap) (Arrived grant session)
      fun _ node => Arrived grant session node ∧ Spared config snap session.deltaRef node := by
  unfold sweepDeltas
  split
  · rename_i off
    exact boots_done fun _ has => ⟨has, fun sweeps => by simp [sweeps] at off⟩
  · split
    · rename_i unreadable
      exact boots_done fun _ has => ⟨has, fun _ readable => by simp [readable] at unreadable⟩
    · refine boots_act (fun current node => Arrived grant session node ∧
        ∃ listed ∈ current.sessions.filter SessionSnapshot.resumable,
          listed.deltaRef = session.deltaRef) ?_ fun current => ?_
      · intro node answer current next arrived ran _ _ _
        cases ran
        refine ⟨arrived, ?_⟩
        obtain ⟨_, listed, _, record, lists⟩ :=
          arrived.settled.lists arrived.named owner resumable
        exact ⟨listed, List.mem_filter.mpr ⟨lists.listed, lists.resumable⟩,
          congrArg Session.deltaRef record⟩
      · refine boots_act (fun _ node => Arrived grant session node ∧
          Spared config snap session.deltaRef node) ?_ fun _ => boots_done fun _ has => has
        rintro node answer count next ⟨arrived, listed, mem, same⟩ ran _ _ _
        cases answer with
        | swept total =>
          cases ran
          refine ⟨arrived.beside (arrived.named.wrote ⟨rfl, rfl⟩)
            (Node.Wrote.beside ⟨rfl, rfl⟩), fun _ _ => ⟨_, rfl, ?_⟩⟩
          exact List.mem_map.mpr ⟨listed, mem, same⟩
        | _ => cases ran

structure Rebooted (config : NodeConfig) (snap : Snapshot) (grant : Grant)
    (session : SessionSnapshot) (lands : Bool) (node : Node) : Prop where
  arrived : Arrived grant session node
  spared : Spared config snap session.deltaRef node
  persisted : node.persisted = node.snapshot
  written : lands = true → node.file = node.snapshot

theorem boots_reconcile (lists : snap.Lists grant session) (tokened : grant.token ≠ "") :
    Boots config grant session.deltaRef lands (reconcile config snap)
      (Midway session.key (Node.Ahead grant.uid)) fun report node =>
        report ≠ none → Rebooted config snap grant session lands node := by
  have owner := lists.owner
  have resumable := lists.resumable
  refine boots_act (fun now node => Midway session.key (Node.Ahead grant.uid) node ∧
    grant.expired now = false) ?_ fun now => ?_
  · intro node answer now next midway ran finds _ _
    obtain ⟨given, home, rfl, done, rfl⟩ := Node.perform_core ran
    rw [Home.perform_reads rfl done]
    refine ⟨midway, ?_⟩
    cases given with
    | time moment =>
      simp only [Home.perform, Question.read, Option.map_some, Option.some.injEq,
        Prod.mk.injEq] at done
      simpa [bootFinds, done.1] using finds
    | _ => simp [Home.perform, Question.read] at done
  · by_cases live : grant.expired now = false
    · refine Outline.weaken ?_ fun node has => has.1
      refine (boots_grants live tokened (by rw [owner]; exact lists.grants)).bind fun report =>
        (boots_sessions owner resumable lists.sessions report).bind fun report => ?_
      refine boots_act (fun _ => Arrived grant session) ?_ fun running => ?_
      · intro node answer running next arrived ran _ _ _
        cases answer with
        | running ids =>
          cases ran
          exact arrived
        | _ => cases ran
      · cases running with
        | none => exact boots_done fun _ _ returned => (returned rfl).elim
        | some ids =>
          refine (boots_killOrphans ids report).bind fun report =>
            (boots_discardConsumed _).bind fun _ =>
              (boots_sweepDeltas owner resumable).bind fun swept => ?_
          refine boots_act (fun _ => Rebooted config snap grant session lands) ?_
            fun _ => boots_done fun _ rebooted _ => rebooted
          rintro node answer _ next ⟨arrived, spared⟩ ran _ _ landing
          obtain ⟨wrote, persisted, keep, file⟩ := Node.perform_persist ran
          refine ⟨arrived.beside (arrived.named.wrote wrote) wrote.beside, ?_, ?_, ?_⟩
          · intro sweeps readable
            rw [keep]
            exact spared sweeps readable
          · rw [persisted, wrote.snapshot_eq]
          · intro lands
            rw [file (landing lands), wrote.snapshot_eq]
    · exact boots_of_false (fun node has => live has.2) _

end Reconcile

/-- What one boot meets: where it stands and how everything it asks is answered. -/
structure BootInput where
  epoch : Nat
  revoked : Option Revoked
  answers : List NodeAnswer

def BootInput.events (input : BootInput) (file : Snapshot) : List NodeEvent :=
  .start 0 (.reconcile file) :: input.answers.map (Event.act 0)

/-- The process before its boot, with the snapshot file as the last process left it. -/
def BootInput.first (input : BootInput) (file : Snapshot) : NodeThreads :=
  ⟨newNode input.epoch input.revoked file, ∅⟩

/-- A boot whose `Reconcile` returned without an error. -/
def rebooted (config : NodeConfig) (node : Node) (input : BootInput) : Option Node :=
  ((nodeKernel config).machine.exec (input.first node.file) (input.events node.file)).bind
    fun threads =>
      match threads.programs.get 0 with
      | some (.done (.reconciled (some _))) => some threads.shared
      | _ => none

/-- One boot after the other, each from the file the one before it left. -/
def bootMachine (config : NodeConfig) : Machine Node BootInput where
  start _ := True
  step := rebooted config

def Snapshot.ownerOf (snap : Snapshot) (session : SessionSnapshot) : Grant :=
  (snap.grants.find? fun grant => decide (grant.uid = session.grantUID)).getD default

def BootMeets (config : NodeConfig) (may : Node → Nat → NodeAct → NodeAnswer → Bool) (node : Node)
    (input : BootInput) : Prop :=
  (nodeKernel config).machine.Meets (Kernel.Allows may) (input.first node.file)
    (input.events node.file)

instance (config : NodeConfig) (may : Node → Nat → NodeAct → NodeAnswer → Bool) (node : Node)
    (input : BootInput) : Decidable (BootMeets config may node input) :=
  inferInstanceAs (Decidable (Machine.Meets _ _ _ _))

/-- What the boot finds when it asks about the session and its grant. -/
def BootFinds (config : NodeConfig) (session : SessionSnapshot) (node : Node) (input : BootInput) :
    Prop :=
  BootMeets config (bootFinds config (node.file.ownerOf session) session.deltaRef) node input

def BootAdmits (config : NodeConfig) (session : SessionSnapshot) (node : Node)
    (input : BootInput) : Prop :=
  BootMeets config (bootAdmits session.grantUID) node input

instance (config : NodeConfig) (session : SessionSnapshot) (node : Node) (input : BootInput) :
    Decidable (BootFinds config session node input) :=
  inferInstanceAs (Decidable (BootMeets _ _ _ _))

instance (config : NodeConfig) (session : SessionSnapshot) (node : Node) (input : BootInput) :
    Decidable (BootAdmits config session node input) :=
  inferInstanceAs (Decidable (BootMeets _ _ _ _))

/-- The session is parked in the ledger or in the snapshot the boot wrote, and its delta is kept. -/
structure Node.Keeps (config : NodeConfig) (snap : Snapshot) (session : SessionSnapshot)
    (node : Node) : Prop where
  kept : node.home.ledger.sessions.get session.key = some session.record ∨
    ∃ listed ∈ node.persisted.sessions, listed.state = .parked ∧ listed.record = session.record
  spared : Spared config snap session.deltaRef node

variable {snap : Snapshot} {grant : Grant} {session listed : SessionSnapshot}

theorem Snapshot.Lists.ownerOf_eq
    (lists : snap.Lists grant session) : snap.ownerOf session = grant := by
  rw [Snapshot.ownerOf, ← List.head?_filter, lists.grants]
  rfl

variable {config : NodeConfig} {lands : Bool}

theorem relies_of_allows {ref : String} {threads : NodeThreads} {answers : List NodeAnswer}
    (finds : (nodeKernel config).machine.Meets (Kernel.Allows (bootFinds config grant ref)) threads
      (answers.map (Event.act 0)))
    (admits : (nodeKernel config).machine.Meets (Kernel.Allows (bootAdmits grant.uid)) threads
      (answers.map (Event.act 0)))
    (landing : lands = true → (nodeKernel config).machine.Meets (Kernel.Allows bootLands) threads
      (answers.map (Event.act 0))) : (nodeKernel config).machine.Meets
      (Relies (nodeKernel config) (bootRely config grant ref lands)) threads
      (answers.map (Event.act 0)) := by
  induction answers generalizing threads with
  | nil => trivial
  | cons answer answers ih =>
    refine ⟨?_, fun next took => ih (finds.2 next took) (admits.2 next took)
      fun lands => (landing lands).2 next took⟩
    intro action rest result shared runs _
    have first := finds.1
    have second := admits.1
    simp only [Kernel.Allows, runs] at first second
    refine ⟨rfl, first, second, fun lands => ?_⟩
    have third := (landing lands).1
    simpa only [Kernel.Allows, runs] using third

variable {input : BootInput}

theorem rebooted_of_lists {next : Node}
    (lists : node.file.Lists grant session) (tokened : grant.token ≠ "")
    (finds : BootFinds config session node input) (admits : BootAdmits config session node input)
    (landing : lands = true → BootMeets config bootLands node input)
    (booted : rebooted config node input = some next) :
    Rebooted config node.file grant session lands next := by
  rw [BootFinds, lists.ownerOf_eq] at finds
  rw [BootAdmits, ← lists.owner] at admits
  obtain ⟨final, run, ended⟩ := Option.bind_eq_some_iff.mp booted
  obtain ⟨started, took, rest⟩ := exec_cons_eq_some.mp run
  have initial : Midway session.key (Node.Ahead grant.uid) (input.first node.file).shared := by
    refine ⟨Node.named_new _ _ _, ⟨rfl, ?_⟩, rfl, rfl⟩
    intro uid snapshots got
    simp [BootInput.first, newNode, newHome] at got
  have outline : Boots config grant session.deltaRef lands
      ((NodeCall.reconcile node.file).body config) (Midway session.key (Node.Ahead grant.uid))
      fun outcome final => ∀ report, outcome = .reconciled (some report) →
        Rebooted config node.file grant session lands final := by
    refine (boots_reconcile lists tokened).bind fun report => boots_done ?_
    rintro final reached told ⟨⟩
    exact reached (by simp)
  have outlined := outlined_from took (stable_boot _) initial outline
  have relies := relies_of_allows (finds.2 started took) (admits.2 started took)
    fun lands => (landing lands).2 started took
  have finished := outlined.run relies rest
  split at ended <;> cases ended
  rename_i report done
  exact finished.post done report rfl

theorem Rebooted.keeps (owner : grant.uid = session.grantUID) (resumable : session.resumable = true)
    (rebooted : Rebooted config snap grant session lands node) :
    node.Keeps config snap session := by
  obtain ⟨_, listed, _, record, lists⟩ :=
    rebooted.arrived.settled.lists rebooted.arrived.named owner resumable
  refine ⟨.inr ⟨listed, ?_, ?_, record⟩, rebooted.spared⟩
  · rw [rebooted.persisted]
    exact lists.listed
  · have live := lists.resumable
    simp only [SessionSnapshot.resumable, Bool.and_eq_true, decide_eq_true_eq] at live
    exact live.1

section

variable (record : listed.record = session.record)
include record

theorem keeps_of_record (keeps : node.Keeps config snap listed) :
    node.Keeps config snap session := by
  have uid : listed.grantUID = session.grantUID := congrArg Session.grantUID record
  have name : listed.name = session.name := congrArg Session.name record
  have ref : listed.deltaRef = session.deltaRef := congrArg Session.deltaRef record
  have key : listed.key = session.key := by rw [SessionSnapshot.key, uid, name, SessionSnapshot.key]
  refine ⟨?_, ref ▸ keeps.spared⟩
  rw [← key, ← record]
  exact keeps.kept

theorem bootFinds_of_record (finds : BootFinds config session node input) :
    BootFinds config listed node input := by
  have uid : listed.grantUID = session.grantUID := congrArg Session.grantUID record
  have ref : listed.deltaRef = session.deltaRef := congrArg Session.deltaRef record
  simpa only [BootFinds, Snapshot.ownerOf, uid, ref] using finds

theorem bootAdmits_of_record (admits : BootAdmits config session node input) :
    BootAdmits config listed node input := by
  have uid : listed.grantUID = session.grantUID := congrArg Session.grantUID record
  simpa only [BootAdmits, uid] using admits

end

/-- A restart keeps the parked session, and so does any number of them. -/
theorem parked_session_survives {config : NodeConfig} {first final : Node}
    {boots : List BootInput} {last : BootInput} {grant : Grant} {session : SessionSnapshot}
    (lists : first.file.Lists grant session) (tokened : grant.token ≠ "")
    (finds : (bootMachine config).Meets (BootFinds config session) first (boots ++ [last]))
    (admits : (bootMachine config).Meets (BootAdmits config session) first (boots ++ [last]))
    (lands : (bootMachine config).Meets (BootMeets config bootLands) first boots)
    (run : (bootMachine config).exec first (boots ++ [last]) = some final) :
    ∃ node, (bootMachine config).exec first boots = some node ∧
      final.Keeps config node.file session := by
  -- a boot may list the session anew, with the same record
  replace lists : ∃ listed, listed.record = session.record ∧ first.file.Lists grant listed :=
    ⟨session, rfl, lists⟩
  obtain ⟨listed, record, lists⟩ := lists
  induction boots generalizing first grant listed with
  | nil =>
    obtain ⟨next, booted, done⟩ := exec_cons_eq_some.mp run
    simp only [exec_nil] at done
    cases done
    have done : Rebooted config first.file grant listed false final :=
      rebooted_of_lists lists tokened (bootFinds_of_record record finds.1)
        (bootAdmits_of_record record admits.1) (by simp) booted
    exact ⟨first, rfl, keeps_of_record record (done.keeps lists.owner lists.resumable)⟩
  | cons input boots ih =>
    obtain ⟨next, booted, rest⟩ := exec_cons_eq_some.mp run
    have done : Rebooted config first.file grant listed true next :=
      rebooted_of_lists lists tokened (bootFinds_of_record record finds.1)
        (bootAdmits_of_record record admits.1) (fun _ => lands.1) booted
    obtain ⟨owner, again, token, same, listsAgain⟩ :=
      done.arrived.settled.lists done.arrived.named lists.owner lists.resumable
    rw [← done.written rfl] at listsAgain
    obtain ⟨node, ran, keeps⟩ := ih (token ▸ tokened) (finds.2 next booted)
      (admits.2 next booted) (lands.2 next booted) rest again (same.trans record) listsAgain
    exact ⟨node, exec_cons_eq_some.mpr ⟨next, booted, ran⟩, keeps⟩

def bootGrant : Grant := { plainGrant with token := "t" }

def bootSession : SessionSnapshot :=
  { name := "s", grantUID := "g", fence := ⟨"g", 1, 1⟩, deltaRef := "d" }

def bootConfig : NodeConfig := { checksDeltas := true, sweepsDeltas := true }

/-- A home that went down with one session parked. -/
def downNode : Node :=
  newNode 1 none
    { epoch := 1, grants := [bootGrant], sessions := [bootSession] }

/-- A boot with no verifier, whose last write may be lost. -/
def unverifiedBoot (landed : Bool) : BootInput where
  epoch := 2
  revoked := none
  answers := [.core (.time 0), .core (.verified (.error .verifyUnavailable)), .flag true,
    .flag true, .core (.flag true), .running (some []), .flag true, .swept 0, .flag landed]

/-- A boot that verifies the grant and warms its template or fails to. -/
def verifiedBoot (warmed : Bool) : BootInput where
  epoch := 3
  revoked := none
  answers := [.core (.time 0), .core (.verified (.ok bootGrant)), .flag warmed] ++
    (if warmed then [.flag true] else []) ++
    [.flag true, .core (.flag true), .core (.flag true), .running (some []), .flag true, .swept 0,
      .flag true]

theorem parked_session_survives_two_boots :
    ∃ final : Node,
      (bootMachine bootConfig).exec downNode [unverifiedBoot true, verifiedBoot true] =
        some final ∧
      ∃ node, (bootMachine bootConfig).exec downNode [unverifiedBoot true] = some node ∧
        final.Keeps bootConfig node.file bootSession := by
  have ran : ((bootMachine bootConfig).exec downNode
      ([unverifiedBoot true] ++ [verifiedBoot true])).isSome = true := by decide +kernel
  obtain ⟨final, run⟩ := Option.isSome_iff_exists.mp ran
  have lists : downNode.file.Lists bootGrant bootSession :=
    ⟨by decide +kernel, by decide +kernel⟩
  exact ⟨final, run, parked_session_survives lists (by decide) (by decide +kernel)
    (by decide +kernel) (by decide +kernel) run⟩

/-- The template of the grant does not warm at this boot: the admission fails, nothing is held for
the grant, the ledger refuses its session, and the sweep may take its delta. -/
theorem parked_session_lost :
    downNode.file.Lists bootGrant bootSession ∧ bootGrant.token ≠ "" ∧
      BootFinds bootConfig bootSession downNode (verifiedBoot false) ∧
      ∃ final, rebooted bootConfig downNode (verifiedBoot false) = some final ∧
        ¬final.Keeps bootConfig downNode.file bootSession := by
  refine ⟨⟨by decide +kernel, by decide +kernel⟩, by decide, by decide +kernel, ?_⟩
  obtain ⟨final, booted, none_⟩ : ∃ final, rebooted bootConfig downNode (verifiedBoot false) =
    some final ∧ final.keep = some [] := by decide +kernel
  refine ⟨final, booted, fun keeps => ?_⟩
  obtain ⟨keep, given, member⟩ := keeps.spared rfl rfl
  rw [none_, Option.some.injEq] at given
  simp [← given] at member

end Fiberd
