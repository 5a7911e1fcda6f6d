import EditorLink.Form.Checked
import EditorLink.Json.Value
import EditorLink.Number.Reading

/-!
# Fields of records

Checks for the fields of a record that comes as a JSON object: texts, choices among named values,
whole numbers and flags, each required or with a default. Keys that no field has are ignored.
-/

namespace EditorLink.Form

abbrev Check (α : Type) := Value → Except Problem α

def text : Check String
  | .str s => .ok s
  | _ => .error .notText

/-- One of a list of values, by its name. -/
def choice {α : Type} (all : List α) (name : α → String) : Check α := fun value =>
  match all.find? fun a => value.isStr (name a) with
  | some a => .ok a
  | none => .error (.notChoice (all.map name))

/-- A whole number, which may come as a double without a fraction, a flag or text. -/
def whole (reader : Number.Reader) : Check Int
  | .num (.int n) => .ok n
  | .num (.float x) =>
    match x.whole? with
    | some n => .ok n
    | none => .error .notWhole
  | .bool b => .ok (if b then 1 else 0)
  | .str s =>
    match reader.whole s.toList with
    | .ok n => .ok n
    | .error .unreadable => .error .unreadableWhole
    | .error .oversized => .error .oversizedWhole
  | _ => .error .notWhole

def flag : Check Bool
  | .bool b => .ok b
  | .num (.int 0) => .ok false
  | .num (.int 1) => .ok true
  | _ => .error .notFlag

/-- Null counts as absent. -/
def nullable {α : Type} (check : Check α) : Check (Option α)
  | .null => .ok none
  | value => (check value).map some

def required {α : Type} (fields : Fields) (name : String) (check : Check α) : Checked α :=
  match Fields.get? fields name with
  | some value => .ofField name (check value)
  | none => .refused [⟨name, .missing⟩]

def withDefault {α : Type} (fields : Fields) (name : String) (check : Check α) (default : α) :
    Checked α :=
  match Fields.get? fields name with
  | some value => .ofField name (check value)
  | none => .accepted default

/-- A field that may be absent or null. -/
def optional {α : Type} (fields : Fields) (name : String) (check : Check α) :
    Checked (Option α) :=
  withDefault fields name (nullable check) none

end EditorLink.Form
