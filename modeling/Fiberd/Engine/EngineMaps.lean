import Fiberd.Lib.Machines
import Fiberd.Lib.Tables

/-!
The mapping of leaves and relays that fiberd keeps for a grant's device engine, after
`engine_linux.go` and `enginerelay_linux.go` of `pkg/runtime/host`, beside the lines that went
to the engine.  `wmu` is held from an operation's first line to its last, and `mu` only for
the lookups and the bookkeeping.
-/

namespace Fiberd

open Tables Machines

inductive MapLine where
  | leaf (fence path : String)
  | unleaf (fence : String)
  | relay (path : String)
  deriving DecidableEq

namespace MapLine

def text : MapLine → String
  | .leaf fence path => "LEAF " ++ fence ++ " " ++ path
  | .unleaf fence => "UNLEAF " ++ fence
  | .relay path => "RELAY " ++ path

/-- The check of `write`: `engineLineMax` with the newline. -/
def fits (line : MapLine) : Bool :=
  line.text.utf8ByteSize + 1 ≤ 256

def token (word : String) : Bool :=
  word ≠ "" && word.toList.all fun char => char ∉ [' ', '\t', '\r', '\n', '\x00']

/-- The checks of the words, which keep a line one line. -/
def named : MapLine → Bool
  | .leaf fence path => token fence && token path
  | .unleaf _ => true
  | .relay path => token path

end MapLine

/-- The leaf that the lines, the newest first, give the fence. -/
def leafIn : List MapLine → String → Option String
  | [], _ => none
  | .leaf named path :: lines, fence => if fence = named then some path else leafIn lines fence
  | .unleaf named :: lines, fence => if fence = named then none else leafIn lines fence
  | .relay _ :: lines, fence => leafIn lines fence

def relayIn : List MapLine → String → Option Unit
  | [], _ => none
  | .relay named :: lines, path => if path = named then some () else relayIn lines path
  | _ :: lines, path => relayIn lines path

inductive EngineStage where
  | down
  | starting
  | up
  deriving DecidableEq

/-- The holder of `wmu`: the lines it has yet to write, the connection it found for the next
one, and what it keeps when the line was taken. -/
structure MapWriter where
  lines : List MapLine
  target : Option Nat := none
  after : Option MapLine := none

/-- `conn` counts the connections, `written` has the lines taken on the last one, the newest
first, and `intact` says that fiberd has not closed it.  `born` has the leaf of every fiber whose
LEAF was taken, which is the one that may be mapped again. -/
structure EngineMaps where
  stage : EngineStage := .down
  conn : Nat := 0
  intact : Bool := false
  leaves : Table String String := ∅
  born : Table String String := ∅
  relays : Table String Unit := ∅
  written : List MapLine := []
  writer : Option MapWriter := none

inductive MapStep where
  | connect
  | ready (lines : List MapLine)
  | down
  | close
  | leaf (fence path : String)
  | releaf (fence : String)
  | unleaf (fence : String)
  | relay (path : String)
  | look
  | wrote (taken : Bool)

namespace EngineMaps

def keep (host : EngineMaps) : MapLine → EngineMaps
  | .leaf fence path => { host with
      leaves := host.leaves.put fence path, born := host.born.put fence path }
  | .unleaf fence => { host with leaves := host.leaves.drop fence }
  | .relay path => { host with relays := host.relays.put path () }

/-- The engine is down, or its line was not taken.  A RELAY is kept all the same. -/
def leave (host : EngineMaps) : Option MapLine → EngineMaps
  | some (.relay path) => { host.keep (.relay path) with writer := none }
  | _ => { host with writer := none }

def replay (host : EngineMaps) : List MapLine :=
  host.leaves.rows.map (fun row => .leaf row.1 row.2) ++
    host.relays.rows.map fun row => .relay row.1

def begin (host : EngineMaps) (line : MapLine) (after : Option MapLine) : Option EngineMaps :=
  if host.writer.isNone ∧ line.named then
    some { host with writer := some { lines := [line], after } }
  else none

def step (host : EngineMaps) : MapStep → Option EngineMaps
  | .connect =>
    if host.stage = .down then
      some { host with stage := .starting, conn := host.conn + 1, intact := true, written := [] }
    else none
  | .ready lines =>
    -- a map is walked in any order
    if host.stage = .starting ∧ host.writer.isNone ∧ lines.isPerm host.replay then
      some { host with
        stage := .up
        writer := if lines = [] then none else some { lines } }
    else none
  | .down => some { host with stage := .down }
  | .close => some { host with intact := false }
  | .leaf fence path => host.begin (.leaf fence path) (some (.leaf fence path))
  | .releaf fence => (host.born.get fence).bind fun path =>
    (host.keep (.leaf fence path)).begin (.leaf fence path) none
  | .unleaf fence =>
    if (host.leaves.get fence).isSome then (host.keep (.unleaf fence)).begin (.unleaf fence) none
    else none
  | .relay path => host.begin (.relay path) (some (.relay path))
  | .look =>
    match host.writer with
    | some { lines := line :: lines, target := none, after } =>
      if !line.fits then some { host with writer := none }
      else if host.stage = .up then
        some { host with
          writer := some { lines := line :: lines, target := some host.conn, after } }
      else some (host.leave after)
    | _ => none
  | .wrote taken =>
    match host.writer with
    | some { lines := line :: lines, target := some conn, after } =>
      -- nothing is taken on a connection that is closed
      if taken ∧ conn = host.conn ∧ host.intact = false then none
      else if taken then
        let host := if conn = host.conn then { host with written := line :: host.written } else host
        if lines = [] then some { after.elim host host.keep with writer := none }
        else some { host with writer := some { lines, after } }
      else
        let host := if conn = host.conn then { host with intact := false } else host
        some (host.leave after)
    | _ => none

/-- What the lines written, and then those given, say is what fiberd keeps. -/
def Agreed (host : EngineMaps) (lines : List MapLine) : Prop :=
  (∀ fence, leafIn (lines.reverse ++ host.written) fence = host.leaves.get fence) ∧
    ∀ path, relayIn (lines.reverse ++ host.written) path = host.relays.get path

/-- `e.up` is set and no line is being written. -/
def Quiet (host : EngineMaps) : Prop := host.stage = .up ∧ host.writer.isNone

/-- A line that is not taken closes the connection, and the engine is up until that is noticed. -/
def Mapped (host : EngineMaps) : Prop := host.Quiet → host.intact = true → host.Agreed []

/-- What the writer knows.  One that keeps its line after the write has that line only, and
the others have lines that `write` takes. -/
structure Holds (host : EngineMaps) (writer : MapWriter) : Prop where
  after : ∀ line, writer.after = some line → writer.lines = [line] ∧ line.named = true
  fits : writer.after = none → ∀ line ∈ writer.lines, line.fits = true
  found : writer.target.isSome → ∀ line ∈ writer.lines.head?, line.fits = true
  older : ∀ conn, writer.target = some conn → conn ≤ host.conn ∧
    (host.stage = .up → conn = host.conn) ∧ (host.stage = .starting → conn ≠ host.conn)

def MapWriter.pending (writer : MapWriter) : List MapLine :=
  if writer.after.isSome then [] else writer.lines

/-- The lines that are kept and those that may be kept again. -/
def known (host : EngineMaps) : List MapLine :=
  host.replay ++ host.born.rows.map fun row => .leaf row.1 row.2

structure Kept (host : EngineMaps) : Prop where
  rows : ∀ line ∈ host.known, line.named = true ∧ line.fits = true
  blank : host.stage = .starting → host.written = []
  holds : ∀ writer, host.writer = some writer → host.Holds writer
  agreed : host.stage = .up → host.intact = true →
    host.Agreed (host.writer.elim [] MapWriter.pending)

variable {host next : EngineMaps} {line other : MapLine} {lines : List MapLine}

section Lines

variable {fence path : String}

theorem leaf_mem_of_leafIn (got : leafIn lines fence = some path) : .leaf fence path ∈ lines := by
  induction lines with
  | nil => simp [leafIn] at got
  | cons line lines ih =>
    cases line <;> simp only [leafIn] at got
    · split at got <;> simp_all
    · split at got <;> simp_all
    · simp [ih got]

theorem leaf_notMem_of_leafIn (missing : leafIn lines fence = none)
    (kept : ∀ fence, .unleaf fence ∉ lines) : .leaf fence path ∉ lines := by
  induction lines with
  | nil => simp
  | cons line lines ih =>
    simp only [List.mem_cons, not_or] at kept
    cases line <;> simp only [leafIn] at missing
    · split at missing <;> simp_all
    · exact absurd rfl (kept _).1
    · simp [ih missing fun fence => (kept fence).2]

theorem relayIn_eq_some : relayIn lines path = some () ↔ .relay path ∈ lines := by
  induction lines with
  | nil => simp [relayIn]
  | cons line lines ih =>
    cases line <;> simp only [relayIn]
    · simp [ih]
    · simp [ih]
    · split <;> simp_all

theorem leaf_mem_replay : .leaf fence path ∈ host.replay ↔ host.leaves.get fence = some path := by
  simp [replay, ← mem_rows_iff]

theorem relay_mem_replay : .relay path ∈ host.replay ↔ host.relays.get path = some () := by
  simp [replay, ← mem_rows_iff, Unique.exists_iff]

theorem unleaf_notMem_replay : .unleaf fence ∉ host.replay := by
  simp [replay]

end Lines

theorem agreed_of_perm (same : lines.Perm host.replay) (blank : host.written = []) :
    host.Agreed lines := by
  have leaf : ∀ fence path, .leaf fence path ∈ lines.reverse ↔ host.leaves.get fence = some path :=
    fun fence path => by rw [List.mem_reverse, same.mem_iff, leaf_mem_replay]
  rw [Agreed, blank, List.append_nil]
  constructor
  · intro fence
    cases got : leafIn lines.reverse fence with
    | some path => exact ((leaf fence path).mp (leaf_mem_of_leafIn got)).symm
    | none =>
      have none : ∀ path, host.leaves.get fence ≠ some path := fun path kept =>
        leaf_notMem_of_leafIn got (fun name => by
          rw [List.mem_reverse, same.mem_iff]
          exact unleaf_notMem_replay) ((leaf fence path).mpr kept)
      exact (Option.eq_none_iff_forall_ne_some.mpr none).symm
  · intro path
    refine Option.ext fun _ => ?_
    rw [relayIn_eq_some, List.mem_reverse, same.mem_iff, relay_mem_replay]

theorem mem_replay_keep (mem : other ∈ (host.keep line).replay) :
    other = line ∨ other ∈ host.replay := by
  cases other with
  | unleaf fence => exact absurd mem unleaf_notMem_replay
  | leaf fence path =>
    rw [leaf_mem_replay] at mem ⊢
    cases line with
    | leaf named route =>
      obtain ⟨rfl, rfl⟩ | ⟨_, got⟩ := get_put_eq_some mem
      · exact .inl rfl
      · exact .inr got
    | unleaf named => exact .inr (get_drop_eq_some mem).2
    | relay route => exact .inr mem
  | relay path =>
    rw [relay_mem_replay] at mem ⊢
    cases line with
    | relay route =>
      obtain ⟨rfl, _⟩ | ⟨_, got⟩ := get_put_eq_some mem
      · exact .inl rfl
      · exact .inr got
    | _ => exact .inr mem

theorem mem_known_keep (mem : other ∈ (host.keep line).known) :
    other = line ∨ other ∈ host.known := by
  obtain kept | again := List.mem_append.mp mem
  · exact (mem_replay_keep kept).imp_right (List.mem_append_left _)
  · suffices new : other = line ∨ other ∈ host.born.rows.map fun row => .leaf row.1 row.2 from
      new.imp_right (List.mem_append_right _)
    obtain ⟨⟨fence, path⟩, row, rfl⟩ := List.mem_map.mp again
    cases line with
    | leaf named route =>
      obtain ⟨rfl, rfl⟩ | ⟨_, got⟩ := get_put_eq_some ((mem_rows_iff _ _ _).mp row)
      · exact .inl rfl
      · exact .inr (List.mem_map_of_mem ((mem_rows_iff _ _ _).mpr got))
    | _ => exact .inr again

/-- A line and its bookkeeping change the two mappings alike. -/
theorem Agreed.keep (agreed : host.Agreed []) (line : MapLine) :
    (host.keep line).Agreed [line] := by
  obtain ⟨leaves, relays⟩ := agreed
  simp only [List.reverse_nil, List.nil_append] at leaves relays
  constructor
  · intro fence
    cases line <;> simp [EngineMaps.keep, leafIn, get_put, get_drop, leaves]
  · intro path
    cases line <;> simp [EngineMaps.keep, relayIn, get_put, relays]

theorem rows_keep (rows : ∀ line ∈ host.known, line.named = true ∧ line.fits = true)
    (named : line.named = true) (fits : line.fits = true) :
    ∀ other ∈ (host.keep line).known, other.named = true ∧ other.fits = true := by
  intro other mem
  obtain rfl | old := mem_known_keep mem
  · exact ⟨named, fits⟩
  · exact rows other old

/-- The UNLEAF of a leaf that was taken is shorter than its LEAF. -/
theorem Kept.unleaf_fits (kept : host.Kept) {fence path : String}
    (got : host.leaves.get fence = some path) : (MapLine.unleaf fence).fits = true := by
  obtain ⟨named, fits⟩ := kept.rows _ (List.mem_append_left _ (leaf_mem_replay.mpr got))
  have some : path.utf8ByteSize ≠ 0 := by
    rw [ne_eq, String.utf8ByteSize_eq_zero_iff]
    rintro rfl
    simp [MapLine.named, MapLine.token] at named
  have words : "LEAF ".utf8ByteSize = 5 ∧ "UNLEAF ".utf8ByteSize = 7 ∧ " ".utf8ByteSize = 1 := by
    decide
  simp only [MapLine.fits, MapLine.text, String.utf8ByteSize_append, decide_eq_true_eq] at fits ⊢
  omega

theorem Kept.begin_after (kept : host.Kept) (taken : host.begin line (some line) = some next) :
    next.Kept := by
  simp only [begin, Option.ite_none_right_eq_some, Option.some.injEq] at taken
  obtain ⟨⟨idle, named⟩, rfl⟩ := taken
  rw [Option.isNone_iff_eq_none] at idle
  refine { kept with holds := ?_, agreed := ?_ }
  · rintro writer ⟨⟩
    exact ⟨fun other same => by cases same; exact ⟨rfl, named⟩, nofun, nofun, nofun⟩
  · intro up intact
    have agreed := kept.agreed up intact
    rw [idle] at agreed
    exact agreed

/-- The bookkeeping comes before the line. -/
theorem Kept.keep_begin (kept : host.Kept) (fits : line.fits = true)
    (took : (host.keep line).begin line none = some next) : next.Kept := by
  simp only [begin, Option.ite_none_right_eq_some, Option.some.injEq] at took
  obtain ⟨⟨idle, named⟩, rfl⟩ := took
  have same : (host.keep line).stage = host.stage ∧ (host.keep line).intact = host.intact ∧
      (host.keep line).written = host.written ∧ (host.keep line).writer = host.writer := by
    cases line <;> exact ⟨rfl, rfl, rfl, rfl⟩
  obtain ⟨stage, intact, written, writer⟩ := same
  rw [writer, Option.isNone_iff_eq_none] at idle
  refine ⟨rows_keep kept.rows named fits, ?_, ?_, ?_⟩
  · exact fun starting => written.trans (kept.blank (stage ▸ starting))
  · rintro writer ⟨⟩
    exact ⟨nofun, by simpa using fits, nofun, nofun⟩
  · intro up whole
    have agreed := kept.agreed (stage ▸ up) (intact ▸ whole)
    rw [idle] at agreed
    exact Agreed.keep agreed line

theorem kept_leave {after : Option MapLine}
    (rows : ∀ line ∈ host.known, line.named = true ∧ line.fits = true)
    (blank : host.stage = .starting → host.written = [])
    (noted : ∀ line, after = some line → line.named = true ∧ line.fits = true)
    (broken : host.stage = .up → host.intact = false) : (host.leave after).Kept := by
  unfold EngineMaps.leave
  split
  · obtain ⟨named, fits⟩ := noted _ rfl
    exact ⟨rows_keep rows named fits, blank, nofun, fun up whole => by simp_all [keep]⟩
  · exact ⟨rows, blank, nofun, fun up whole => by simp_all⟩

theorem Kept.look (kept : host.Kept) (taken : host.step .look = some next) : next.Kept := by
  simp only [step] at taken
  split at taken
  case h_2 => cases taken
  rename_i line lines after writing
  have holds := kept.holds _ writing
  have known : ∀ other, after = some other → other = line ∧ other.named = true := by
    intro other same
    obtain ⟨only, named⟩ := holds.after other same
    exact ⟨(List.cons.inj only).1.symm, named⟩
  split at taken
  · -- a line that does not fit is one that is kept after the write
    rename_i long
    cases taken
    refine ⟨kept.rows, kept.blank, nofun, fun up intact => ?_⟩
    have agreed := kept.agreed up intact
    cases after with
    | none => simp [holds.fits rfl line (by simp)] at long
    | some other =>
      rw [writing] at agreed
      exact agreed
  rename_i fits
  simp only [Bool.not_eq_true] at fits
  split at taken
  · rename_i up
    cases taken
    refine { kept with holds := ?_, agreed := ?_ }
    · rintro writer ⟨⟩
      exact ⟨holds.after, holds.fits, by simpa using fits, by simp [up]⟩
    · intro up intact
      have agreed := kept.agreed up intact
      rw [writing] at agreed
      exact agreed
  · rename_i down
    cases taken
    refine kept_leave kept.rows kept.blank (fun other same => ?_) (absurd · down)
    obtain ⟨rfl, named⟩ := known other same
    exact ⟨named, by simpa using fits⟩

theorem agreed_cons : host.Agreed (line :: lines) ↔
    { host with written := line :: host.written }.Agreed lines := by
  simp [Agreed]

/-- The end of an operation whose line was taken. -/
theorem kept_taken {after : Option MapLine}
    (rows : ∀ line ∈ host.known, line.named = true ∧ line.fits = true)
    (blank : host.stage = .starting → host.written = [])
    (noted : ∀ line, after = some line → line.named = true ∧ line.fits = true)
    (agreed : host.stage = .up → host.intact = true → (after.elim host host.keep).Agreed []) :
    Kept { after.elim host host.keep with writer := none } := by
  cases after with
  | none => exact ⟨rows, blank, nofun, agreed⟩
  | some line =>
    obtain ⟨named, fits⟩ := noted line rfl
    cases line <;> exact ⟨rows_keep rows named fits, blank, nofun, agreed⟩

theorem Kept.wrote (kept : host.Kept) {ok : Bool} (took : host.step (.wrote ok) = some next) :
    next.Kept := by
  simp only [step] at took
  split at took
  case h_2 => cases took
  rename_i line lines conn after writing
  split at took
  · cases took
  have has := kept.holds _ writing
  have agreed := kept.agreed
  rw [writing] at agreed
  obtain ⟨_, current, apart⟩ := has.older conn rfl
  have fits : line.fits = true := has.found rfl line rfl
  have known : ∀ other, after = some other → line = other ∧ lines = [] ∧ other.named = true := by
    intro other same
    obtain ⟨only, named⟩ := has.after other same
    exact ⟨(List.cons.inj only).1, (List.cons.inj only).2, named⟩
  have noted : ∀ other, after = some other → other.named = true ∧ other.fits = true := by
    intro other same
    obtain ⟨rfl, _, named⟩ := known other same
    exact ⟨named, fits⟩
  by_cases here : conn = host.conn
  · have begun : host.stage ≠ .starting := fun starting => apart starting here
    simp only [here, if_true] at took
    split at took
    · split at took <;> cases took
      · subst lines
        refine kept_taken kept.rows (absurd · begun) noted fun up whole => ?_
        cases after with
        | none => exact agreed_cons.mp (agreed up whole)
        | some other =>
          obtain ⟨rfl, _⟩ := known other rfl
          have kept := agreed_cons.mp (Agreed.keep (agreed up whole) line)
          cases line <;> exact kept
      · rename_i more
        cases after with
        | some other => exact absurd (known other rfl).2.1 more
        | none =>
          refine ⟨kept.rows, (absurd · begun), ?_, fun up whole => agreed_cons.mp (agreed up whole)⟩
          rintro writer ⟨⟩
          exact ⟨nofun, fun _ other mem => has.fits rfl other (by simp [mem]), nofun, nofun⟩
    · cases took
      exact kept_leave kept.rows kept.blank noted fun _ => rfl
  · -- the line went to an engine that is not up any more
    have down : host.stage ≠ .up := fun up => here (current up)
    simp only [here, if_false] at took
    split at took
    · split at took <;> cases took
      · exact kept_taken kept.rows kept.blank noted (absurd · down)
      · rename_i more
        refine ⟨kept.rows, kept.blank, ?_, (absurd · down)⟩
        rintro writer ⟨⟩
        exact ⟨fun other same => absurd (known other same).2.1 more,
          fun none other mem => has.fits none other (by simp [mem]), nofun, nofun⟩
    · cases took
      exact kept_leave kept.rows kept.blank noted (absurd · down)

theorem Kept.step (kept : host.Kept) {label : MapStep}
    (took : host.step label = some next) : next.Kept := by
  cases label with
  | connect =>
    simp only [EngineMaps.step, Option.ite_none_right_eq_some, Option.some.injEq] at took
    obtain ⟨down, rfl⟩ := took
    refine ⟨kept.rows, fun _ => rfl, fun writer writing => ?_, nofun⟩
    have has := kept.holds writer writing
    refine { has with older := fun conn got => ?_ }
    have older := (has.older conn got).1
    exact ⟨by simp; omega, nofun, fun _ => by simp; omega⟩
  | ready lines =>
    simp only [EngineMaps.step, Option.ite_none_right_eq_some, Option.some.injEq] at took
    obtain ⟨⟨starting, idle, perm⟩, rfl⟩ := took
    have same := List.isPerm_iff.mp perm
    refine ⟨kept.rows, nofun, fun writer writing => ?_, fun up whole => ?_⟩
    · split at writing <;> cases writing
      exact ⟨nofun, fun _ line mem => (kept.rows line
        (List.mem_append_left _ (same.mem_iff.mp mem))).2, nofun, nofun⟩
    · have agreed := agreed_of_perm same (kept.blank starting)
      split
      · subst lines
        exact agreed
      · exact agreed
  | down =>
    cases took
    refine ⟨kept.rows, nofun, fun writer writing => ?_, nofun⟩
    have has := kept.holds writer writing
    exact { has with older := fun conn got => ⟨(has.older conn got).1, nofun, nofun⟩ }
  | close =>
    cases took
    exact ⟨kept.rows, kept.blank, fun writer writing => { kept.holds writer writing with }, nofun⟩
  | leaf fence path | relay path => exact kept.begin_after took
  | releaf fence =>
    obtain ⟨path, got, took⟩ := Option.bind_eq_some_iff.mp took
    have row : .leaf fence path ∈ host.known := List.mem_append_right _
      (List.mem_map_of_mem ((mem_rows_iff _ _ _).mpr got))
    exact kept.keep_begin (kept.rows _ row).2 took
  | unleaf fence =>
    simp only [EngineMaps.step, Option.ite_none_right_eq_some] at took
    obtain ⟨got, took⟩ := took
    obtain ⟨path, got⟩ := Option.isSome_iff_exists.mp got
    exact kept.keep_begin (kept.unleaf_fits got) took
  | look => exact kept.look took
  | wrote ok => exact kept.wrote took

theorem written_of_closed {label : MapStep} (closed : host.intact = false)
    (took : host.step label = some next) (still : next.intact = false) :
    next.written = host.written := by
  have begun {host : EngineMaps} {line : MapLine} {after : Option MapLine}
      (took : host.begin line after = some next) : next.written = host.written := by
    simp only [begin, Option.ite_none_right_eq_some, Option.some.injEq] at took
    obtain ⟨_, rfl⟩ := took
    rfl
  have left (host : EngineMaps) (after : Option MapLine) :
      (host.leave after).written = host.written := by
    unfold leave
    split <;> rfl
  cases label with
  | connect =>
    simp only [step, Option.ite_none_right_eq_some, Option.some.injEq] at took
    obtain ⟨_, rfl⟩ := took
    cases still
  | ready lines =>
    simp only [step, Option.ite_none_right_eq_some, Option.some.injEq] at took
    obtain ⟨_, rfl⟩ := took
    rfl
  | down | close =>
    cases took
    rfl
  | leaf fence path | relay path => exact begun took
  | releaf fence =>
    obtain ⟨path, _, took⟩ := Option.bind_eq_some_iff.mp took
    exact (begun took :)
  | unleaf fence =>
    simp only [step, Option.ite_none_right_eq_some] at took
    exact (begun took.2 :)
  | look =>
    simp only [step] at took
    split at took
    · split at took
      · cases took
        rfl
      split at took <;> cases took
      · rfl
      · exact left host _
    · cases took
  | wrote ok =>
    simp only [step] at took
    split at took
    case h_2 => cases took
    rename_i line lines conn after writing
    split at took
    · cases took
    rename_i open_
    split at took
    · rename_i done
      have other : conn ≠ host.conn := fun same => open_ ⟨done, same, closed⟩
      simp only [other, if_false] at took
      split at took <;> cases took
      · cases after with
        | none => rfl
        | some line => cases line <;> rfl
      · rfl
    · cases took
      rw [left]
      split <;> rfl

end EngineMaps

def mapMachine : Machine EngineMaps MapStep where
  start host := host = {}
  step := EngineMaps.step

theorem engine_mapped {final : EngineMaps} {labels : List MapStep}
    (run : mapMachine.exec {} labels = some final) : final.Mapped ∧
      ∀ label next, final.intact = false → mapMachine.step final label = some next →
        next.intact = false → next.written = final.written := by
  have born : EngineMaps.Kept {} := ⟨nofun, nofun, nofun, nofun⟩
  have kept : final.Kept := exec_keeps (fun _ _ _ kept taken => kept.step taken) born run
  refine ⟨?_, fun _ _ => EngineMaps.written_of_closed⟩
  intro quiet whole
  have agreed := kept.agreed quiet.1 whole
  rwa [Option.isNone_iff_eq_none.mp quiet.2] at agreed

/-- A leaf that outlives an engine, and is mapped again. -/
def replayedLeaf : List MapStep :=
  [.connect, .ready [], .leaf "g/1/1" "/f", .look, .wrote true, .down, .connect,
    .ready [.leaf "g/1/1" "/f"], .look, .wrote true, .releaf "g/1/1", .look, .wrote true]

theorem replayed_leaf_mapped : ∃ final, mapMachine.exec {} replayedLeaf = some final ∧
    (final.stage, final.intact, final.leaves.get "g/1/1") = (.up, true, some "/f") ∧
      final.Mapped := by
  obtain ⟨final, run, reached⟩ : ∃ final, mapMachine.exec {} replayedLeaf = some final ∧
    (final.stage, final.intact, final.leaves.get "g/1/1") = (.up, true, some "/f") := by
    decide +kernel
  exact ⟨final, run, reached, (engine_mapped run).1⟩

/-- The UNLEAF is not taken, and the engine is still up. -/
theorem failed_unleaf_unmapped : ∃ final,
    mapMachine.exec {} [.connect, .ready [], .leaf "g/1/1" "/f", .look, .wrote true,
      .unleaf "g/1/1", .look, .wrote false] = some final ∧ final.Quiet ∧ ¬final.Agreed [] := by
  obtain ⟨final, run, quiet, written, dropped⟩ : ∃ final,
    mapMachine.exec {} [.connect, .ready [], .leaf "g/1/1" "/f", .look, .wrote true,
      .unleaf "g/1/1", .look, .wrote false] = some final ∧
      (final.stage = .up ∧ final.writer.isNone) ∧ final.written = [.leaf "g/1/1" "/f"] ∧
        final.leaves.get "g/1/1" = none := by
    decide +kernel
  refine ⟨final, run, quiet, fun agreed => ?_⟩
  have same := agreed.1 "g/1/1"
  simp [written, dropped, leafIn] at same

end Fiberd
