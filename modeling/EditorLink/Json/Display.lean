import EditorLink.Json.Value
import EditorLink.Text.Quoted

/-!
# Values in sentences

How a value is shown inside a sentence: a text as it is, anything else in a notation in which null
is `None` and texts inside lists and objects are quoted.
-/

namespace EditorLink.Value

mutual

/-- The notation of a value, with texts quoted. -/
def notated : Value → String
  | .null => "None"
  | .bool b => if b then "True" else "False"
  | .num n => n.plainText
  | .str s => Text.quoted s
  | .arr [] => "[]"
  | .arr (item :: items) => "[" ++ item.notated ++ notatedItems items ++ "]"
  | .obj [] => "\x7b\x7d"
  | .obj ((key, item) :: fields) =>
    "\x7b" ++ Text.quoted key ++ ": " ++ item.notated ++ notatedFields fields ++ "\x7d"

def notatedItems : List Value → String
  | [] => ""
  | item :: items => ", " ++ item.notated ++ notatedItems items

def notatedFields : List (String × Value) → String
  | [] => ""
  | (key, item) :: fields =>
    ", " ++ Text.quoted key ++ ": " ++ item.notated ++ notatedFields fields

end

def shown : Value → String
  | .str s => s
  | value => value.notated

end EditorLink.Value
