import EditorLink.Number.Basic

/-!
# Checked forms

A form is a record filled from named fields. Every field is checked, so that a form that cannot be
filled tells what is wrong with each of its fields, in the order in which the form lists them.
Filling combines the fields with `<*>`; `faults_seq` says that no fault is lost on the way.
-/

namespace EditorLink.Form

/-- What can be wrong with a field. -/
inductive Problem where
  | missing
  | notText
  | notChoice (choices : List String)
  | notWhole
  | notFlag
  | unreadableNumber
  | unreadableWhole
  | oversizedWhole
  | notPositive
  | negative
  | refused (reason : String)
deriving DecidableEq, Repr

/-- A list in a sentence, with each item in single quotes: `'a', 'b' or 'c'`. -/
def alternatives : List String → String
  | [] => ""
  | [item] => "'" ++ item ++ "'"
  | [item, last] => "'" ++ item ++ "' or '" ++ last ++ "'"
  | item :: items => "'" ++ item ++ "', " ++ alternatives items

def Problem.message : Problem → String
  | .missing => "Field required"
  | .notText => "Input should be a valid string"
  | .notChoice choices => "Input should be " ++ alternatives choices
  | .notWhole => "Input should be a valid integer"
  | .notFlag => "Input should be a valid boolean"
  | .unreadableNumber =>
    "Input should be a valid number, unable to parse string as a number"
  | .unreadableWhole =>
    "Input should be a valid integer, unable to parse string as an integer"
  | .oversizedWhole => "Unable to parse input string as an integer, exceeded maximum size"
  | .notPositive => "Input should be greater than 0"
  | .negative => "Input should be greater than or equal to 0"
  | .refused reason => "Value error, " ++ reason

structure Fault where
  field : String
  problem : Problem
deriving DecidableEq, Repr

/-- The outcome of checking some fields: what they give, or everything that is wrong. -/
inductive Checked (α : Type) where
  | accepted (value : α)
  | refused (faults : List Fault)

namespace Checked

def faults {α : Type} : Checked α → List Fault
  | accepted _ => []
  | refused faults => faults

def map {α β : Type} (f : α → β) : Checked α → Checked β
  | accepted a => accepted (f a)
  | refused faults => refused faults

def seq {α β : Type} (f : Checked (α → β)) (a : Unit → Checked α) : Checked β :=
  match f, a () with
  | accepted f, accepted a => accepted (f a)
  | accepted _, refused faults => refused faults
  | refused faults, a => refused (faults ++ a.faults)

instance : Applicative Checked where
  pure := accepted
  map := map
  seq := seq

/-- The check of a single field. -/
def ofField {α : Type} (field : String) : Except Problem α → Checked α
  | .ok a => accepted a
  | .error problem => refused [⟨field, problem⟩]

theorem faults_map {α β : Type} (f : α → β) (a : Checked α) : (f <$> a).faults = a.faults := by
  cases a <;> rfl

theorem faults_seq {α β : Type} (f : Checked (α → β)) (a : Checked α) :
    (f <*> a).faults = f.faults ++ a.faults := by
  cases f <;> cases a <;> simp [Seq.seq, seq, faults]

end Checked

example : alternatives ["a", "b", "c"] = "'a', 'b' or 'c'" := by decide

end EditorLink.Form
