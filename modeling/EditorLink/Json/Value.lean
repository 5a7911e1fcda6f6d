import EditorLink.Number.Basic

/-!
# JSON values

Values as the editor and the agents exchange them. Whole numbers and doubles stay apart, and the
fields of an object keep the order in which their keys first came; `setField` keeps keys distinct.
-/

namespace EditorLink

inductive Value where
  | null
  | bool (b : Bool)
  | num (n : Number)
  | str (s : String)
  | arr (items : List Value)
  | obj (fields : List (String × Value))
deriving Inhabited

abbrev Fields := List (String × Value)

namespace Fields

def get? (fields : Fields) (key : String) : Option Value :=
  (fields.find? fun field => field.1 == key).map (·.2)

/-- Gives `key` the value; a key that is already there keeps its place. -/
def set (fields : Fields) (key : String) (value : Value) : Fields :=
  match fields with
  | [] => [(key, value)]
  | field :: rest =>
    if field.1 = key then (key, value) :: rest else field :: Fields.set rest key value

def keys (fields : Fields) : List String := fields.map (·.1)

/-- The value of a key, null when it is absent. -/
def getOrNull (fields : Fields) (key : String) : Value := (fields.get? key).getD .null

theorem get?_cons (key name : String) (value : Value) (fields : Fields) :
    Fields.get? ((name, value) :: fields) key = if name = key then some value else fields.get? key := by
  by_cases h : name = key <;> simp [Fields.get?, h]

end Fields

namespace Value

def int (n : Int) : Value := .num (.int n)

def float (x : Double) : Value := .num (.float x)

def ofOption (f : α → Value) : Option α → Value
  | none => .null
  | some a => f a

def strings (items : List String) : Value := .arr (items.map .str)

/-- The name of a value's kind, as error messages show it. -/
def kindName : Value → String
  | .null => "NoneType"
  | .bool _ => "bool"
  | .num (.int _) => "int"
  | .num (.float _) => "float"
  | .str _ => "str"
  | .arr _ => "list"
  | .obj _ => "dict"

/-- Null, false, zero, and the empty text, list and object do not count as given. -/
def isTruthy : Value → Bool
  | .null => false
  | .bool b => b
  | .num n => !n.isZero
  | .str s => s != ""
  | .arr items => !items.isEmpty
  | .obj fields => !fields.isEmpty

/-- The value itself when it counts as given, else the fallback. -/
def orElse (value fallback : Value) : Value := if value.isTruthy then value else fallback

def isStr (value : Value) (s : String) : Bool :=
  match value with
  | .str t => t == s
  | _ => false

def asString? : Value → Option String
  | .str s => some s
  | _ => none

def asFields? : Value → Option Fields
  | .obj fields => some fields
  | _ => none

mutual

/-- How many lists and objects stand inside each other; empty ones count too. -/
def nesting : Value → Nat
  | .arr items => nestingOfItems items + 1
  | .obj fields => nestingOfFields fields + 1
  | _ => 0

def nestingOfItems : List Value → Nat
  | [] => 0
  | item :: items => max item.nesting (nestingOfItems items)

def nestingOfFields : List (String × Value) → Nat
  | [] => 0
  | (_, item) :: fields => max item.nesting (nestingOfFields fields)

end

end Value

end EditorLink
