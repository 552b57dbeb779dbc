import Fiberd.Mobility.FileRegistry

/-!
What a take unlinks.  A take checks its tag and then unlinks it by name, in separate
steps; while no push renames its tag file over a tag some take has in hand, the tag
held at the unlink what the take had checked.
-/

namespace Fiberd

open Tables Programs Machines

/-- A push moves a tag only while no take has it in hand. -/
def movesFree (registry : FileRegistry) (_ : Nat) (action : RegistryAct) (_ : DiskAnswer) : Bool :=
  match action with
  | .renameTag tag => registry.taking.rows.all fun row => row.2.tag ≠ tag
  | _ => true

/-- The tag was unlinked while it held the digest the take had checked. -/
def Removal.Exact (removal : Removal) : Prop :=
  ∃ digest, removal.checked = some ⟨removal.tag, digest⟩ ∧ removal.held = some digest

namespace FileRegistry

structure Taken (registry : FileRegistry) : Prop where
  hands : ∀ thread record, registry.taking.get thread = some record →
    registry.tags.get (.tag record.tag) = some (some record.digest) ∨
      registry.tags.get (.tag record.tag) = none
  pushed : ∀ file digest, registry.tags.get file = some (some digest) → digest ∈ registry.pushed
  apart : ∀ one other digest, registry.tags.get one = some (some digest) →
    registry.tags.get other = some (some digest) → one = other
  gone : ∀ removal ∈ registry.removals, ∀ digest, removal.held = some digest →
    digest ∈ registry.pushed ∧ ∀ file, registry.tags.get file ≠ some (some digest)
  exactly : ∀ removal ∈ registry.removals, removal.Exact
  once : (registry.removals.map Removal.held).Nodup

variable {registry next : FileRegistry} {thread : Nat} {tag digest : String}
  {wanted : Option String} {answer : DiskAnswer}

theorem taken_newRegistry : newRegistry.Taken := by
  constructor <;> simp [newRegistry]

theorem Taken.congr (took : registry.Taken) (tags : next.tags = registry.tags)
    (taking : next.taking = registry.taking) (pushed : next.pushed = registry.pushed)
    (removals : next.removals = registry.removals) : next.Taken := by
  obtain ⟨hands, known, apart, gone, exactly, once⟩ := took
  constructor <;> simp only [tags, taking, pushed, removals] <;> assumption

theorem Taken.letGo (took : registry.Taken) (thread : Nat) :
    ({ registry with taking := registry.taking.drop thread } : FileRegistry).Taken := by
  refine ⟨?_, took.pushed, took.apart, took.gone, took.exactly, took.once⟩
  intro other record inHand
  obtain ⟨_, inHand⟩ := get_drop_eq_some inHand
  exact took.hands other record inHand

theorem check_cases (registry : FileRegistry) (thread : Nat) (tag : String)
    (wanted : Option String) (answer : DiskAnswer) :
    (∃ digest, registry.tags.get (.tag tag) = some (some digest) ∧
      (wanted = none ∨ wanted = some digest) ∧
      registry.check thread tag wanted answer = (.found (some digest),
        { registry with taking := registry.taking.put thread ⟨tag, digest⟩ })) ∨
    ((∀ digest, (registry.check thread tag wanted answer).1 = .found (some digest) →
        ¬(wanted = none ∨ wanted = some digest)) ∧
      (registry.check thread tag wanted answer).2 = registry) := by
  unfold FileRegistry.check
  split
  · rename_i digest reads
    have holds : registry.tags.get (.tag tag) = some (some digest) := by
      cases answer <;> simp only [read, reduceCtorEq] at reads
      cases got : registry.tags.get (.tag tag) with
      | none => simp [got, ReadResult.of] at reads
      | some text => simpa [got, ReadResult.of] using reads
    by_cases fits : wanted = none ∨ wanted = some digest
    · exact .inl ⟨digest, holds, fits, by simp only [if_pos fits]⟩
    · refine .inr ⟨?_, by simp only [if_neg fits]⟩
      intro other same
      simp only [ReadResult.found.injEq, Option.some.injEq] at same
      exact same ▸ fits
  · rename_i unread
    exact .inr ⟨fun digest reads => absurd reads (unread digest), rfl⟩

theorem Taken.takeInHand (took : registry.Taken)
    (holds : registry.tags.get (.tag tag) = some (some digest)) (thread : Nat) :
    ({ registry with taking := registry.taking.put thread ⟨tag, digest⟩ } : FileRegistry).Taken := by
  refine ⟨?_, took.pushed, took.apart, took.gone, took.exactly, took.once⟩
  intro other record inHand
  obtain ⟨_, rfl⟩ | ⟨_, inHand⟩ := get_put_eq_some inHand
  · exact .inl holds
  · exact took.hands other record inHand

theorem write_cases {out : Bool} (written : registry.write tag digest answer = some (out, next)) :
    digest ∉ registry.pushed ∧
      (next = registry ∨
        next = { registry with tags := registry.tags.put (.tmp tag) none } ∨
        next = { registry with
          tags := registry.tags.put (.tmp tag) (some digest)
          pushed := digest :: registry.pushed }) := by
  simp only [FileRegistry.write] at written
  split at written
  · simp at written
  · rename_i new
    refine ⟨new, ?_⟩
    cases answer <;> simp only [Option.some.injEq, Prod.mk.injEq] at written <;> simp [written.2]

theorem Taken.write {out : Bool} (took : registry.Taken)
    (written : registry.write tag digest answer = some (out, next)) : next.Taken := by
  obtain ⟨new, rfl | rfl | rfl⟩ := write_cases written
  · exact took
  · have old : ∀ {file held}, (registry.tags.put (.tmp tag) none).get file = some (some held) →
        registry.tags.get file = some (some held) := by
      intro file held got
      simp only [get_put] at got
      split at got
      · simp at got
      · exact got
    refine ⟨?_, fun _ _ got => took.pushed _ _ (old got),
      fun _ _ _ one other => took.apart _ _ _ (old one) (old other), ?_, took.exactly, took.once⟩
    · intro other record inHand
      simpa [get_put] using took.hands other record inHand
    · intro removal mem held same
      exact ⟨(took.gone removal mem held same).1,
        fun file got => (took.gone removal mem held same).2 file (old got)⟩
  · have cases_ : ∀ {file held},
        (registry.tags.put (.tmp tag) (some digest)).get file = some (some held) →
          (file = .tmp tag ∧ held = digest) ∨
            (file ≠ .tmp tag ∧ registry.tags.get file = some (some held)) := by
      intro file held got
      simp only [get_put] at got
      split at got
      · rename_i same
        simp only [Option.some.injEq] at got
        exact .inl ⟨same, got.symm⟩
      · rename_i other
        exact .inr ⟨other, got⟩
    refine ⟨?_, ?_, ?_, ?_, took.exactly, took.once⟩
    · intro other record inHand
      simpa [get_put] using took.hands other record inHand
    · intro file held got
      obtain ⟨_, rfl⟩ | ⟨_, old⟩ := cases_ got
      · exact List.mem_cons_self
      · exact List.mem_cons_of_mem _ (took.pushed _ _ old)
    · intro one other held first second
      obtain ⟨rfl, rfl⟩ | ⟨_, old⟩ := cases_ first
      · obtain ⟨rfl, _⟩ | ⟨_, old⟩ := cases_ second
        · rfl
        · exact absurd (took.pushed _ _ old) new
      · obtain ⟨rfl, rfl⟩ | ⟨_, older⟩ := cases_ second
        · exact absurd (took.pushed _ _ old) new
        · exact took.apart _ _ _ old older
    · intro removal mem held same
      obtain ⟨known, gone⟩ := took.gone removal mem held same
      refine ⟨List.mem_cons_of_mem _ known, ?_⟩
      intro file got
      obtain ⟨_, rfl⟩ | ⟨_, old⟩ := cases_ got
      · exact new known
      · exact gone file old

theorem rename_cases (registry : FileRegistry) (tag : String) (answer : DiskAnswer) :
    (registry.rename tag answer).2 = registry ∨
    ∃ text, registry.tags.get (.tmp tag) = some text ∧ (registry.rename tag answer).2 =
      { registry with tags := (registry.tags.drop (.tmp tag)).put (.tag tag) text } := by
  cases answer with
  | failed => exact .inl rfl
  | torn => exact .inl rfl
  | done =>
    simp only [FileRegistry.rename]
    split
    · rename_i text got
      exact .inr ⟨text, got, rfl⟩
    · exact .inl rfl

theorem Taken.rename (took : registry.Taken)
    (free : ∀ other record, registry.taking.get other = some record → record.tag ≠ tag) :
    (registry.rename tag answer).2.Taken := by
  obtain same | ⟨text, written, moved⟩ := rename_cases registry tag answer
  · rw [same]
    exact took
  · rw [moved]
    have back : ∀ {file held},
        ((registry.tags.drop (.tmp tag)).put (.tag tag) text).get file = some (some held) →
          (file = .tag tag ∧ registry.tags.get (.tmp tag) = some (some held)) ∨
            (file ≠ .tag tag ∧ file ≠ .tmp tag ∧ registry.tags.get file = some (some held)) := by
      intro file held got
      simp only [get_put, get_drop] at got
      split at got
      · rename_i same
        exact .inl ⟨same, written.trans got⟩
      · split at got
        · simp at got
        · rename_i other tmp
          exact .inr ⟨other, tmp, got⟩
    refine ⟨?_, ?_, ?_, ?_, took.exactly, took.once⟩
    · intro other record inHand
      have apart := free other record inHand
      simpa [get_put, get_drop, apart] using took.hands other record inHand
    · intro file held got
      obtain ⟨_, old⟩ | ⟨_, _, old⟩ := back got <;> exact took.pushed _ _ old
    · intro one other held first second
      obtain ⟨rfl, old⟩ | ⟨_, tmp, old⟩ := back first
      · obtain ⟨rfl, _⟩ | ⟨_, tmp, older⟩ := back second
        · rfl
        · exact absurd (took.apart _ _ _ older old) tmp
      · obtain ⟨rfl, older⟩ | ⟨_, _, older⟩ := back second
        · exact absurd (took.apart _ _ _ old older) tmp
        · exact took.apart _ _ _ old older
    · intro removal mem held same
      obtain ⟨known, gone⟩ := took.gone removal mem held same
      refine ⟨known, ?_⟩
      intro file got
      obtain ⟨_, old⟩ | ⟨_, _, old⟩ := back got <;> exact gone _ old

theorem unlink_cases (registry : FileRegistry) (thread : Nat) (tag : String) (answer : DiskAnswer) :
    (registry.unlink thread tag answer).2 =
      { registry with taking := registry.taking.drop thread } ∨
    ∃ text, registry.tags.get (.tag tag) = some text ∧ (registry.unlink thread tag answer).2 =
      { registry with
        tags := registry.tags.drop (.tag tag)
        taking := registry.taking.drop thread
        removals := ⟨thread, tag, registry.taking.get thread, text⟩ :: registry.removals } := by
  cases answer with
  | failed => exact .inl rfl
  | torn => exact .inl rfl
  | done =>
    simp only [FileRegistry.unlink]
    split
    · rename_i text got
      exact .inr ⟨text, got, rfl⟩
    · exact .inl rfl

theorem Taken.unlink (took : registry.Taken)
    (inHand : (registry.taking.get thread).map RemoteRecord.tag = some tag) :
    (registry.unlink thread tag answer).2.Taken := by
  obtain same | ⟨text, got, gone⟩ := unlink_cases registry thread tag answer
  · rw [same]
    exact took.letGo thread
  · rw [gone]
    obtain ⟨⟨named, digest⟩, checked, rfl⟩ := Option.map_eq_some_iff.mp inHand
    have held : text = some digest := by
      obtain here | none := took.hands thread _ checked
      · simpa [got] using here
      · simp [got] at none
    subst text
    have old : ∀ {file other}, (registry.tags.drop (.tag named)).get file = some (some other) →
        file ≠ .tag named ∧ registry.tags.get file = some (some other) := by
      intro file other stays
      obtain ⟨apart, stays⟩ := get_drop_eq_some stays
      exact ⟨apart, stays⟩
    refine ⟨?_, fun _ _ stays => took.pushed _ _ (old stays).2,
      fun _ _ _ one other => took.apart _ _ _ (old one).2 (old other).2, ?_, ?_, ?_⟩
    · intro other record stays
      simp only [get_drop] at stays ⊢
      split at stays
      · simp at stays
      · split
        · exact .inr rfl
        · exact took.hands other record stays
    · intro removal mem other same
      obtain rfl | mem := List.mem_cons.mp mem
      · cases same
        refine ⟨took.pushed _ _ got, ?_⟩
        intro file stays
        exact (old stays).1 (took.apart _ _ _ (old stays).2 got)
      · obtain ⟨known, absent⟩ := took.gone removal mem other same
        exact ⟨known, fun file stays => absent file (old stays).2⟩
    · intro removal mem
      obtain rfl | mem := List.mem_cons.mp mem
      · exact ⟨digest, checked, rfl⟩
      · exact took.exactly removal mem
    · refine List.nodup_cons.mpr ⟨?_, took.once⟩
      intro again
      obtain ⟨removal, mem, same⟩ := List.mem_map.mp again
      exact (took.gone removal mem digest same).2 _ got

end FileRegistry

def RegistryAct.hand (holds : Option String) : (action : RegistryAct) → action.Result →
    Option (Option String)
  | .checkTag tag wanted, .found (some digest) =>
    some (if wanted = none ∨ wanted = some digest then some tag else holds)
  | .checkTag _ _, _ => some holds
  | .letGo, _ => some none
  | .removeTag tag, _ => if holds = some tag then some none else none
  | _, _ => some holds

/-- The actions that neither take a tag in hand nor unlink one. -/
def RegistryAct.plain : RegistryAct → Prop
  | .checkTag _ _ | .letGo | .removeTag _ => False
  | _ => True

theorem RegistryAct.hand_plain (holds : Option String) (action : RegistryAct)
    (out : action.Result) (plain : action.plain) : action.hand holds out = some holds := by
  cases action <;> first | rfl | exact plain.elim

namespace RegistryProg

abbrev Hands {β : Type} (program : RegistryProg β) (holds : Option String)
    (post : β → Option String → Prop) : Prop :=
  program.Follows RegistryAct.hand holds post

variable {β : Type}

theorem hands_act {action : RegistryAct} {rest : action.Result → RegistryProg β}
    {holds : Option String} {post : β → Option String → Prop} (plain : action.plain)
    (onward : ∀ out, (rest out).Hands holds post) : (act action >>= rest).Hands holds post := by
  intro out
  exact ⟨holds, action.hand_plain holds out plain, onward out⟩

theorem resolveTarget_hands (read : ReadResult TagText) (holds : Option String) :
    (resolveTarget read).Hands holds fun value later =>
      later = holds ∧ ∀ digest, value = .ok (some digest) → read = .found (some digest) := by
  match read with
  | .failed | .missing | .found none => exact ⟨rfl, by simp⟩
  | .found (some digest) =>
    refine hands_act trivial ?_
    intro there
    cases there with
    | true | false => exact ⟨rfl, by simp⟩

theorem fileResolve_hands (read : ReadResult TagText) (holds : Option String) :
    (fileResolve read).Hands holds fun value later =>
      later = holds ∧ ∀ digest, value = .ok (some digest) → read = .found (some digest) := by
  refine (resolveTarget_hands read holds).bind ?_
  rintro value later ⟨rfl, got⟩
  match value with
  | .error _ | .ok none => exact ⟨rfl, by simp⟩
  | .ok (some digest) =>
    refine hands_act trivial ?_
    intro there
    cases there with
    | true => exact ⟨rfl, by simpa using got digest rfl⟩
    | false => exact ⟨rfl, by simp⟩

theorem holdsDigest_hands (digest : String) (files : List TagFile) (holds : Option String) :
    (holdsDigest digest files).Hands holds fun _ _ => True := by
  induction files with
  | nil => trivial
  | cons file files ih =>
    refine hands_act trivial ?_
    intro read
    match read with
    | .failed => exact ih
    | .missing => exact ih
    | .found none => exact ih
    | .found (some held) =>
      by_cases same : held = digest
      · simp only [same, if_true]
        trivial
      · simp only [same, if_false]
        exact ih

theorem fileDelete_hands (tag : String) : (fileDelete tag).Hands (some tag) fun _ _ => True := by
  refine hands_act trivial ?_
  intro read
  refine (resolveTarget_hands read _).bind ?_
  rintro value later ⟨rfl, _⟩
  match value with
  | .error _ => trivial
  | .ok none => trivial
  | .ok (some digest) =>
    intro removed
    refine ⟨none, by simp [RegistryAct.hand], ?_⟩
    match removed with
    | .failed => trivial
    | .missing => trivial
    | .found _ =>
      refine hands_act trivial ?_
      intro files
      refine (holdsDigest_hands digest files none).bind ?_
      rintro held later _
      cases held with
      | true => trivial
      | false =>
        refine hands_act trivial ?_
        intro gone
        cases gone <;> trivial

theorem letGo_hands (value : β) (holds : Option String) :
    (do act .letGo; pure value : RegistryProg β).Hands holds fun _ _ => True :=
  fun _ => ⟨none, rfl, trivial⟩

theorem deleteChecked_hands (tag : String) (took : Bool → TakeOutcome) :
    (deleteChecked tag took).Hands (some tag) fun _ _ => True := by
  refine (fileDelete_hands tag).bind ?_
  intro removed later _ _
  refine ⟨none, rfl, ?_⟩
  cases removed <;> trivial

variable {rest : Except Unit (Option String) → RegistryProg β}

theorem checked_hands {tag : String} {wanted : Option String}
    (got : ∀ digest, wanted = none ∨ wanted = some digest →
      (rest (.ok (some digest))).Hands (some tag) fun _ _ => True) (other : ∀ value holds,
      (∀ digest, value = .ok (some digest) → ¬(wanted = none ∨ wanted = some digest)) →
      (rest value).Hands holds fun _ _ => True) :
    (act (.checkTag tag wanted) >>= fun read => fileResolve read >>= rest).Hands none
      fun _ _ => True := by
  intro read
  have missed : (∀ digest, read = .found (some digest) →
      ¬(wanted = none ∨ wanted = some digest)) →
      ∀ holds, (fileResolve read >>= rest).Hands holds fun _ _ => True := by
    intro unwanted holds
    refine (fileResolve_hands read holds).bind ?_
    rintro value later ⟨_, reads⟩
    exact other value later fun digest same => unwanted digest (reads digest same)
  match read with
  | .failed | .missing | .found none => exact ⟨none, rfl, missed (by simp) none⟩
  | .found (some digest) =>
    by_cases fits : wanted = none ∨ wanted = some digest
    · refine ⟨some tag, by simp [RegistryAct.hand, fits], ?_⟩
      refine (fileResolve_hands (.found (some digest)) (some tag)).bind ?_
      rintro value later ⟨rfl, reads⟩
      match value with
      | .error _ | .ok none => exact other _ _ (by simp)
      | .ok (some held) =>
        have same : digest = held := by simpa using reads held rfl
        exact got held (same ▸ fits)
    · refine ⟨none, by simp [RegistryAct.hand, fits], missed ?_ none⟩
      intro held same
      simp only [ReadResult.found.injEq, Option.some.injEq] at same
      exact same ▸ fits

theorem wanted_hands {tag handle : String}
    (got : (rest (.ok (some handle))).Hands (some tag) fun _ _ => True)
    (failed : ∀ error holds, (rest (.error error)).Hands holds fun _ _ => True)
    (other : ∀ held holds, held ≠ some handle → (rest (.ok held)).Hands holds fun _ _ => True) :
    (act (.checkTag tag (some handle)) >>= fun read => fileResolve read >>= rest).Hands none
      fun _ _ => True := by
  refine checked_hands ?_ ?_
  · intro digest wanted
    have same : handle = digest := by simpa using wanted
    exact same ▸ got
  · intro value holds unwanted
    match value with
    | .error error => exact failed error holds
    | .ok held =>
      refine other held holds ?_
      rintro rfl
      exact unwanted handle rfl (.inr rfl)

theorem deleteDelta_hands (tag handle : String) :
    (deleteDelta tag handle).Hands none fun _ _ => True := by
  refine wanted_hands ?_ (fun _ _ => letGo_hands _ _) ?_
  · simp only [if_true]
    exact deleteChecked_hands tag _
  · intro held holds missed
    simp only [missed, if_false]
    exact letGo_hands _ _

theorem claimDelta_hands (tag handle : String) :
    (claimDelta tag handle).Hands none fun _ _ => True := by
  refine hands_act trivial ?_
  intro pulled
  cases pulled with
  | false => trivial
  | true =>
    refine hands_act trivial ?_
    intro opened
    cases opened with
    | false => trivial
    | true =>
      refine wanted_hands ?_ (fun _ _ => letGo_hands _ _) ?_
      · simp only [if_true]
        exact deleteChecked_hands tag _
      · intro held holds missed
        simp only [missed, if_false]
        exact letGo_hands _ _

theorem removeRecord_hands (ref : String) (holds : Option String) :
    (removeRecord ref).Hands holds fun _ _ => True := by
  refine hands_act trivial ?_
  intro gone
  cases gone <;> trivial

theorem retireDelta_hands (ref : String) : (retireDelta ref).Hands none fun _ _ => True := by
  refine hands_act trivial ?_
  intro read
  match read with
  | .failed => trivial
  | .missing => trivial
  | .found record =>
    refine wanted_hands ?_ (fun _ _ => letGo_hands _ _) ?_
    · simp only [if_true]
      refine (deleteChecked_hands record.tag _).bind ?_
      intro outcome later _
      cases outcome <;> first | trivial | exact removeRecord_hands ref later
    · intro held holds missed
      simp only [missed, if_false]
      exact fun _ => ⟨none, rfl, removeRecord_hands ref none⟩

theorem exportDelta_hands (tag : String) : (exportDelta tag).Hands none fun _ _ => True := by
  refine checked_hands ?_ ?_
  · intro digest _
    refine hands_act trivial ?_
    intro pulled
    cases pulled with
    | false => exact letGo_hands _ _
    | true =>
      refine hands_act trivial ?_
      intro written
      cases written with
      | false => exact letGo_hands _ _
      | true => exact deleteChecked_hands tag _
  · intro value holds unwanted
    match value with
    | .error _ | .ok none => exact letGo_hands _ _
    | .ok (some digest) => exact absurd (.inl rfl) (unwanted digest rfl)

theorem filePushDir_only (tag digest : String) : (filePushDir tag digest).Only RegistryAct.plain := by
  refine ⟨trivial, ?_⟩
  intro there
  have written : ∀ stored : Bool, (if stored then do
      if ← act (.writeTag tag digest) then act (.renameTag tag) else pure false
      else pure false : RegistryProg Bool).Only RegistryAct.plain := by
    intro stored
    cases stored with
    | false => trivial
    | true =>
      refine ⟨trivial, ?_⟩
      intro wrote
      cases wrote with
      | false => trivial
      | true => exact ⟨trivial, fun _ => trivial⟩
  cases there with
  | true => exact written true
  | false => exact ⟨trivial, written⟩

theorem publishDelta_only (ref tag digest : String) :
    (publishDelta ref tag digest).Only RegistryAct.plain := by
  refine ⟨trivial, ?_⟩
  intro ready
  cases ready with
  | false => trivial
  | true =>
    refine (filePushDir_only tag digest).bind ?_
    intro pushed
    cases pushed with
    | false => trivial
    | true =>
      refine ⟨trivial, ?_⟩
      intro noted
      cases noted <;> trivial

end RegistryProg

theorem RegistryCall.body_hands (call : RegistryCall) : call.body.Hands none fun _ _ => True := by
  cases call with
  | publish ref tag digest =>
    exact ((RegistryProg.publishDelta_only ref tag digest).follows
      fun action out => action.hand_plain none out).mono fun _ _ _ => trivial
  | claim tag handle => exact RegistryProg.claimDelta_hands tag handle
  | delete tag handle => exact RegistryProg.deleteDelta_hands tag handle
  | retire ref => exact RegistryProg.retireDelta_hands ref
  | exportTo tag => exact RegistryProg.exportDelta_hands tag

namespace FileRegistry

def InHand (registry : FileRegistry) (thread : Nat) (holds : Option String) : Prop :=
  (registry.taking.get thread).map RemoteRecord.tag = holds

variable {registry next : FileRegistry} {thread : Nat} {holds later : Option String}
  {tag : String} {wanted : Option String} {answer : DiskAnswer}

structure Moves (thread : Nat) (later : Option String) (registry next : FileRegistry) : Prop where
  taken : next.Taken
  here : next.InHand thread later
  others : ∀ other, other ≠ thread → next.taking.get other = registry.taking.get other

theorem moves_same (took : next.Taken) (inHand : registry.InHand thread holds)
    (taking : next.taking = registry.taking) : Moves thread holds registry next :=
  ⟨took, by simpa only [InHand, taking] using inHand, fun _ _ => by rw [taking]⟩

theorem moves_drop (took : next.Taken) (taking : next.taking = registry.taking.drop thread) :
    Moves thread none registry next :=
  ⟨took, by simp [InHand, taking], fun _ apart => by rw [taking, get_drop_other _ apart]⟩

theorem moves_check (taken : registry.Taken) (inHand : registry.InHand thread holds)
    (may : (RegistryAct.checkTag tag wanted).hand holds
      (registry.check thread tag wanted answer).1 = some later) :
    Moves thread later registry (registry.check thread tag wanted answer).2 := by
  obtain ⟨digest, held, fits, checked⟩ | ⟨unwanted, same⟩ :=
    check_cases registry thread tag wanted answer
  · rw [checked] at may ⊢
    simp only [RegistryAct.hand, fits, if_true] at may
    cases may
    exact ⟨taken.takeInHand held thread, by simp [InHand],
      fun _ apart => get_put_other _ _ apart⟩
  · rw [same]
    have kept : holds = later := by
      cases read : (registry.check thread tag wanted answer).1 with
      | failed | missing => simpa [read, RegistryAct.hand] using may
      | found text =>
        cases text with
        | none => simpa [read, RegistryAct.hand] using may
        | some digest => simpa [read, RegistryAct.hand, unwanted digest read] using may
    exact kept ▸ moves_same taken inHand rfl

theorem perform_moves {action : RegistryAct} {out : action.Result} (took : registry.Taken)
    (inHand : registry.InHand thread holds) (may : action.hand holds out = some later)
    (free : movesFree registry thread action answer = true)
    (ran : registry.perform thread action answer = some (out, next)) :
    Moves thread later registry next := by
  have plainly : action.plain → later = holds := by
    intro plain
    simpa [action.hand_plain holds out plain, eq_comm] using may
  cases action with
  | checkTag tag wanted =>
    replace ran := Option.some.inj ran
    obtain ⟨rfl, rfl⟩ := Prod.ext_iff.mp ran.symm
    exact moves_check took inHand may
  | letGo =>
    cases ran
    simp only [RegistryAct.hand, Option.some.injEq] at may
    exact may ▸ moves_drop (took.letGo thread) rfl
  | removeTag tag =>
    replace ran := Option.some.inj ran
    obtain ⟨rfl, rfl⟩ := Prod.ext_iff.mp ran.symm
    simp only [RegistryAct.hand] at may
    split at may <;> cases may
    rename_i mine
    subst mine
    refine moves_drop (took.unlink inHand) ?_
    obtain same | ⟨_, _, gone⟩ := unlink_cases registry thread tag answer
    · rw [same]
    · rw [gone]
  | writeTag tag digest =>
    obtain rfl := plainly trivial
    refine moves_same (took.write ran) inHand ?_
    obtain ⟨_, rfl | rfl | rfl⟩ := write_cases ran <;> rfl
  | renameTag tag =>
    obtain rfl := plainly trivial
    replace ran := Option.some.inj ran
    obtain ⟨rfl, rfl⟩ := Prod.ext_iff.mp ran.symm
    refine moves_same (took.rename ?_) inHand ?_
    · intro other record mine
      have apart := List.all_eq_true.mp free _ ((mem_rows_iff _ _ _).mpr mine)
      simpa using apart
    · obtain same | ⟨_, _, moved⟩ := rename_cases registry tag answer
      · rw [same]
      · rw [moved]
  | _ =>
    obtain rfl := plainly trivial
    simp only [perform] at ran
    repeat' split at ran
    all_goals
      cases ran
      exact moves_same (took.congr rfl rfl rfl rfl) inHand rfl

end FileRegistry

def takeProtocol : Protocol (registryKernel.guarded movesFree) (Option String) where
  inv := FileRegistry.Taken
  idle := none
  At thread holds registry := registry.InHand thread holds
  ends _ _ := True
  after holds action result := action.hand holds result
  started := by
    rintro registry rfl
    exact ⟨FileRegistry.taken_newRegistry, fun thread => by simp [FileRegistry.InHand, newRegistry]⟩
  moved := by
    intro registry thread holds action answer result next later taken inHand may ran
    obtain ⟨free, done⟩ := Kernel.guarded_perform ran
    obtain ⟨kept, here, others⟩ := FileRegistry.perform_moves taken inHand may free done
    refine ⟨kept, here, ?_⟩
    intro other held apart mine
    simpa only [FileRegistry.InHand, others other apart] using mine
  bodies := RegistryCall.body_hands

def emptyRegistry : RegistryThreads := ⟨newRegistry, ∅⟩

theorem emptyRegistry_start : registryKernel.machine.start emptyRegistry := ⟨rfl, rfl⟩

/-- A park is published and claimed, then the next one is published and discarded. -/
def takesRun : List RegistryEvent :=
  .start 0 (.publish "r1" "s" "d1") :: acts 0 6 .done ++
  .start 1 (.claim "s" "d1") :: acts 1 11 .done ++
  .start 2 (.publish "r2" "s" "d2") :: acts 2 6 .done ++
  .start 3 (.delete "s" "d2") :: acts 3 9 .done

/-- The second park is published while the claim of the first stands before its delete. -/
def movedRun : List RegistryEvent :=
  .start 0 (.publish "r1" "s" "d1") :: acts 0 6 .done ++
  .start 1 (.claim "s" "d1") :: acts 1 5 .done ++
  .start 2 (.publish "r2" "s" "d2") :: acts 2 6 .done ++
  acts 1 6 .done

def outcomeAt (threads : RegistryThreads) (thread : Nat) : Option TakeOutcome :=
  match threads.programs.get thread with
  | some (.done outcome) => some outcome
  | _ => none

end Fiberd
