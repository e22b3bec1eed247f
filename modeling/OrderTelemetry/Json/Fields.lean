import OrderTelemetry.Json.Codec
import OrderTelemetry.Json.Skip

/-!
# Records

A record is written as an object with a member for each of its fields.  It is read from such an
object, with the members in any order and unknown ones stepped over, or from a list of its fields in
order.  A known member must not come twice.

A field may have a value that stands for a missing member (`absent`) and one that stands for a list
that ends before it (`trailing`).
-/

namespace OrderTelemetry.Json

/-- A field of a record. -/
structure Field (α : Type) where
  name : String
  codec : Codec α
  absent : Option α
  trailing : Option α

namespace Field

/-- A field that has to be there. -/
def required {α : Type} (name : String) (codec : Codec α) : Field α := ⟨name, codec, none, none⟩

/-- A field with a value to fall back on. -/
def withDefault {α : Type} (name : String) (codec : Codec α) (a : α) : Field α :=
  ⟨name, codec, some a, some a⟩

/-- A field that may be `null`, and may be missing from an object though not from a list. -/
def nullable {α : Type} (name : String) (codec : Codec α) : Field (Option α) :=
  ⟨name, codec.optional, some none, none⟩

end Field

/-- The fields of a record in order. -/
inductive Fields : List Type → Type 1 where
  | nil : Fields []
  | cons {α : Type} {ts : List Type} (field : Field α) (rest : Fields ts) : Fields (α :: ts)

/-- One value for each field. -/
@[reducible] def Values : List Type → Type
  | [] => Unit
  | α :: ts => α × Values ts

/-- What has been read so far for each field. -/
@[reducible] def Slots : List Type → Type
  | [] => Unit
  | α :: ts => Option α × Slots ts

namespace Fields

/-- Nothing read so far. -/
def empty : {ts : List Type} → Fields ts → Slots ts
  | _, nil => ()
  | _, cons _ rest => (none, rest.empty)

/-- How to read the member with a name into its slot, `none` if no field has the name.  A member
whose slot is filled cannot be read. -/
def slot : {ts : List Type} → Fields ts → Slots ts → String →
    Option (Except Problem (Reader (Slots ts)))
  | _, nil, _, _ => none
  | _, cons field rest, (first, others), key =>
    if field.name = key then
      some (if first.isSome then .error .mismatched
        else .ok fun s => do
          let (a, s) ← field.codec.read s
          .ok ((some a, others), s))
    else (rest.slot others key).map fun found => found.map fun read s => do
      let (others, s) ← read s
      .ok ((first, others), s)

/-- The values of all fields once the object has ended. -/
def complete : {ts : List Type} → Fields ts → Slots ts → Except Problem (Values ts)
  | _, nil, _ => .ok ()
  | _, cons field rest, (first, others) => do
    match first.or field.absent with
    | some a => .ok (a, ← rest.complete others)
    | none => .error .mismatched

/-- Reads the members up to the end of the object.  The first argument bounds their number. -/
def readMembers {ts : List Type} (fields : Fields ts) :
    Nat → Bool → Slots ts → List Char → Except Problem (Values ts × List Char)
  | 0, _, _, _ => .error .truncated
  | n + 1, first, slots, s => do
    match ← nextEntry '}' first s with
    | none => .ok (← fields.complete slots, ← expect '}' s)
    | some s =>
      let (key, s) ← readName s
      match fields.slot slots key with
      | some read =>
        let read ← read
        let (slots, s) ← read (← expect ':' s)
        fields.readMembers n false slots s
      | none => fields.readMembers n false slots (← skipValue (← expect ':' s))

/-- Reads the fields as the items of a list. -/
def readItems : {ts : List Type} → Fields ts → Bool → Reader (Values ts)
  | _, nil, _, s => .ok ((), s)
  | _, cons field rest, first, s => do
    match ← nextEntry ']' first s with
    | some s =>
      let (a, s) ← field.codec.read s
      let (others, s) ← rest.readItems false s
      .ok ((a, others), s)
    | none =>
      match field.trailing with
      | some a =>
        let (others, s) ← rest.readItems first s
        .ok ((a, others), s)
      | none => .error .mismatched

/-- The members of a record. -/
def members : {ts : List Type} → Fields ts → Values ts → List (String × Json)
  | _, nil, _ => []
  | _, cons field rest, (a, others) => (field.name, field.codec.encode a) :: rest.members others

/-- Records with the given fields. -/
def codec {ts : List Type} (fields : Fields ts) : Codec (Values ts) :=
  ⟨fun values => Json.object (fields.members values), fun s =>
    match skipSpace s with
    | '[' :: rest => do
      let (values, rest) ← fields.readItems true rest
      .ok (values, ← expect ']' rest)
    | '{' :: rest => fields.readMembers (rest.length + 1) true fields.empty rest
    | _ => .error (wrongKind s)⟩

end Fields

end OrderTelemetry.Json
