import HoverServer.Json.Printer
import HoverServer.Text.Quoted
import HoverServer.Uri

/-! Records read from JSON, either from an object by the names of the fields or from an array by
their order. -/
namespace HoverServer.Json

inductive Expected where
  | text
  | unsigned
  | signed
  | record (name : String)
  deriving DecidableEq

def Expected.description : Expected → String
  | .text => "a string"
  | .unsigned => "u32"
  | .signed => "i64"
  | .record name => "struct " ++ name

/-- Why a value is none of what was asked for. -/
inductive Mismatch where
  | missingField (name : String)
  | wrongKind (found : Json) (expected : Expected)
  | outOfRange (n : Whole) (expected : Expected)
  | tooShort (present : Nat) (record : String) (count : Nat)
  | tooLong (length : Nat)
  | uri (fault : UriFault)
  | noVariant (type : String)
  deriving DecidableEq

def kindText : Json → String
  | .null => "null"
  | .bool true => "boolean `true`"
  | .bool false => "boolean `false`"
  | .number (.whole n) => "integer `" ++ (Number.whole n).text ++ "`"
  | .number (.real x) => "floating point `" ++ (Number.real x).text ++ "`"
  | .string s => "string " ++ Text.quoted s
  | .array _ => "sequence"
  | .object _ => "map"

def elementCount (n : Nat) : String :=
  toString n ++ if n = 1 then " element" else " elements"

def Mismatch.message : Mismatch → String
  | .missingField name => "missing field `" ++ name ++ "`"
  | .wrongKind found expected =>
    "invalid type: " ++ kindText found ++ ", expected " ++ expected.description
  | .outOfRange n expected =>
    "invalid value: integer `" ++ (Number.whole n).text ++ "`, expected " ++ expected.description
  | .tooShort present record count =>
    "invalid length " ++ toString present ++ ", expected struct " ++ record ++ " with " ++
      elementCount count
  | .tooLong length =>
    "invalid length " ++ toString length ++ ", expected fewer elements in array"
  | .uri fault => fault.message
  | .noVariant type => "data did not match any variant of untagged enum " ++ type

abbrev Decoder (α : Type) := Json → Except Mismatch α

namespace Decoder

def text : Decoder String
  | .string s => .ok s
  | v => .error (.wrongKind v .text)

def unsigned : Decoder UInt32
  | .number (.whole n) =>
    if 0 ≤ n.value ∧ n.value < 0x100000000 then .ok (UInt32.ofNat n.value.toNat)
    else .error (.outOfRange n .unsigned)
  | v => .error (.wrongKind v .unsigned)

def signed : Decoder Int64
  | .number (.whole n) =>
    if n.value < 0x8000000000000000 then .ok (Int64.ofInt n.value) else .error (.outOfRange n .signed)
  | v => .error (.wrongKind v .signed)

def uri : Decoder Uri := fun v => do
  match Uri.ofString (← text v) with
  | .ok u => .ok u
  | .error fault => .error (.uri fault)

def any : Decoder Json := .ok

/-- A null stands for nothing. -/
def optional {α : Type} (d : Decoder α) : Decoder (Option α)
  | .null => .ok none
  | v => (d v).map some

end Decoder

/-- A field is taken to be `absent` where an object does not name it, and `beyond` where an array
ends before it; without one it has to be there. -/
structure Field (α : Type) where
  name : String
  decode : Decoder α
  absent : Option α
  beyond : Option α

def Field.required {α : Type} (name : String) (d : Decoder α) : Field α := ⟨name, d, none, none⟩

def Field.optional {α : Type} (name : String) (d : Decoder α) : Field (Option α) :=
  ⟨name, d.optional, some none, none⟩

/-- An optional field that an array may leave out as well. -/
def Field.trailing {α : Type} (name : String) (d : Decoder α) : Field (Option α) :=
  ⟨name, d.optional, some none, some none⟩

/-- The mismatch of one member with the field of its name. -/
abbrev Check := String → Json → Option Mismatch

def Field.check {α : Type} (f : Field α) : Check := fun name v =>
  if name = f.name then
    match f.decode v with
    | .ok _ => none
    | .error e => some e
  else none

structure Shape where
  name : String
  checks : List Check

inductive Source where
  | named (members : Members)
  | listed (items : List Json)

/-- Members are looked at in the order of their names, before any field is missed. -/
def Shape.source (shape : Shape) : Decoder Source
  | .object members =>
    match members.findSome? fun (name, v) => shape.checks.findSome? fun check => check name v with
    | none => .ok (.named members)
    | some e => .error e
  | .array items => .ok (.listed items)
  | v => .error (.wrongKind v (.record shape.name))

/-- The field at a given place of the shape. -/
def Field.get {α : Type} (f : Field α) (shape : Shape) (place : Nat) : Source → Except Mismatch α
  | .named members =>
    match members.get? f.name, f.absent with
    | some v, _ => f.decode v
    | none, some a => .ok a
    | none, none => .error (.missingField f.name)
  | .listed items =>
    match items[place]?, f.beyond with
    | some v, _ => f.decode v
    | none, some a => .ok a
    | none, none => .error (.tooShort place shape.name shape.checks.length)

/-- Nothing may follow the last field in an array. -/
def Shape.finish (shape : Shape) : Source → Except Mismatch Unit
  | .named _ => .ok ()
  | .listed items =>
    if items.length ≤ shape.checks.length then .ok () else .error (.tooLong items.length)

def decodeOne {α : Type} (name : String) (f : Field α) : Decoder α := fun v => do
  let shape : Shape := ⟨name, [f.check]⟩
  let source ← shape.source v
  let a ← f.get shape 0 source
  shape.finish source
  return a

def decodeTwo {α β : Type} (name : String) (f : Field α) (g : Field β) : Decoder (α × β) :=
  fun v => do
    let shape : Shape := ⟨name, [f.check, g.check]⟩
    let source ← shape.source v
    let a ← f.get shape 0 source
    let b ← g.get shape 1 source
    shape.finish source
    return (a, b)

def decodeThree {α β γ : Type} (name : String) (f : Field α) (g : Field β) (h : Field γ) :
    Decoder (α × β × γ) :=
  fun v => do
    let shape : Shape := ⟨name, [f.check, g.check, h.check]⟩
    let source ← shape.source v
    let a ← f.get shape 0 source
    let b ← g.get shape 1 source
    let c ← h.get shape 2 source
    shape.finish source
    return (a, b, c)

end HoverServer.Json
