import Mathlib.Logic.Relation

/-!
`RejectUnknown` of `pkg/rpc/admission.go`: the walk over a decoded request.  The protocol is
proto3, so a field is a scalar or a message, alone, in a list or as the values of a map.
-/

namespace Fiberd

mutual

/-- A decoded message.  The fields are those that are set, as `Range` visits them. -/
inductive Message where
  | mk (fullName : String) (unknown : List UInt8) (fields : List MessageField)

/-- A field that is set.  A list or a map of scalars is one of the two kinds without messages. -/
inductive MessageField where
  | scalar
  | scalarMap
  | list (values : List Message)
  | map (values : List Message)
  | message (value : Message)

end

namespace Message

def unknown : Message → List UInt8
  | .mk _ unknown _ => unknown

def fields : Message → List MessageField
  | .mk _ _ fields => fields

end Message

def MessageField.messages : MessageField → List Message
  | .scalar | .scalarMap => []
  | .list values | .map values => values
  | .message value => [value]

mutual

def Message.rejectUnknown : Message → Except String Unit
  | .mk fullName unknown fields =>
    if unknown.length > 0 then
      .error ("admission: " ++ fullName ++ " carries a field the protocol does not define")
    else rejectFields fields

/-- `Range`, which stops at the first error. -/
def rejectFields : List MessageField → Except String Unit
  | [] => .ok ()
  | field :: rest => do
    field.rejectUnknown
    rejectFields rest

def MessageField.rejectUnknown : MessageField → Except String Unit
  | .list values => rejectMessages values
  | .scalarMap => .ok ()
  | .map values => rejectMessages values
  | .message value => value.rejectUnknown
  | .scalar => .ok ()

def rejectMessages : List Message → Except String Unit
  | [] => .ok ()
  | message :: rest => do
    message.rejectUnknown
    rejectMessages rest

end

theorem bind_eq_ok (first : Except String Unit) (next : Except String Unit) :
    (do first; next) = .ok () ↔ first = .ok () ∧ next = .ok () := by
  cases first <;> simp [bind, Except.bind]

theorem rejectMessages_eq_ok (messages : List Message) :
    rejectMessages messages = .ok () ↔ ∀ message ∈ messages, message.rejectUnknown = .ok () := by
  induction messages with
  | nil => simp [rejectMessages]
  | cons message rest ih => rw [rejectMessages, bind_eq_ok, ih, List.forall_mem_cons]

theorem MessageField.rejectUnknown_eq_ok (field : MessageField) : field.rejectUnknown = .ok () ↔
      ∀ message ∈ field.messages, message.rejectUnknown = .ok () := by
  cases field <;> simp [MessageField.rejectUnknown, messages, rejectMessages_eq_ok]

theorem rejectFields_eq_ok (fields : List MessageField) :
    rejectFields fields = .ok () ↔ ∀ field ∈ fields, field.rejectUnknown = .ok () := by
  induction fields with
  | nil => simp [rejectFields]
  | cons field rest ih => rw [rejectFields, bind_eq_ok, ih, List.forall_mem_cons]

namespace Message

def Holds (outer inner : Message) : Prop :=
  ∃ field ∈ outer.fields, inner ∈ field.messages

theorem rejectUnknown_eq_ok (message : Message) : message.rejectUnknown = .ok () ↔
      message.unknown = [] ∧ ∀ inner, message.Holds inner → inner.rejectUnknown = .ok () := by
  obtain ⟨fullName, unknown, fields⟩ := message
  rcases unknown with _ | ⟨byte, rest⟩
  · have walked : rejectFields fields = .ok () ↔
        ∀ inner, Holds (.mk fullName [] fields) inner → inner.rejectUnknown = .ok () := by
      simp only [rejectFields_eq_ok, MessageField.rejectUnknown_eq_ok, Holds, Message.fields]
      exact ⟨fun all inner ⟨field, among, within⟩ => all field among inner within,
        fun all field among inner within => all inner ⟨field, among, within⟩⟩
    simpa [Message.rejectUnknown, Message.unknown] using walked
  · simp [Message.rejectUnknown, Message.unknown]

theorem sizeOf_lt_of_holds {outer inner : Message} (holds : outer.Holds inner) :
    sizeOf inner < sizeOf outer := by
  obtain ⟨fullName, unknown, fields⟩ := outer
  obtain ⟨field, among, within⟩ := holds
  have smaller : sizeOf inner < sizeOf field := by
    cases field with
    | scalar | scalarMap => simp [MessageField.messages] at within
    | list values | map values =>
      have below := List.sizeOf_lt_of_mem within
      simp only [MessageField.list.sizeOf_spec, MessageField.map.sizeOf_spec,
        MessageField.messages] at below ⊢
      omega
    | message value =>
      obtain rfl : inner = value := by simpa [MessageField.messages] using within
      simp
  have below := List.sizeOf_lt_of_mem among
  simp only [Message.mk.sizeOf_spec, Message.fields] at below ⊢
  omega

/-- The walk ends without error exactly when no message it can reach has an unknown field. -/
theorem admitted_iff_known (message : Message) : message.rejectUnknown = .ok () ↔
      ∀ inner, Relation.ReflTransGen Holds message inner → inner.unknown = [] := by
  rw [rejectUnknown_eq_ok]
  constructor
  · intro walked inner reached
    induction reached using Relation.ReflTransGen.head_induction_on with
    | refl => exact walked.1
    | head holds _ ih => exact ih (Iff.mp (rejectUnknown_eq_ok _) (walked.2 _ holds))
  · intro known
    refine ⟨known message .refl, fun inner holds => ?_⟩
    exact Iff.mpr (admitted_iff_known inner) fun deeper reached => known deeper (.head holds reached)
termination_by sizeOf message
decreasing_by exact sizeOf_lt_of_holds holds

end Message

end Fiberd
