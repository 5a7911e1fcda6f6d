import EditorLink.Json.Value
import EditorLink.Text.Quoted

/-!
# Writing JSON

One writer with two layouts: on one line, with a blank after commas and colons, or indented by two
blanks a level. Written JSON is ASCII: other characters, and U+007F, are written as escapes of
their UTF-16 code units.
-/

namespace EditorLink

/-- Where lines break: the line break before an item at a nesting level, and what separates two
items before that break. -/
structure JsonLayout where
  lineBreak : Nat → String
  comma : String

namespace JsonLayout

def oneLine : JsonLayout := ⟨fun _ => "", ", "⟩

def indented : JsonLayout :=
  ⟨fun level => String.ofList ('\n' :: List.replicate (2 * level) ' '), ","⟩

end JsonLayout

namespace Json

def names : SpecialNames := ⟨"NaN", "Infinity"⟩

def unitEscape (unit : Nat) : List Char := '\\' :: 'u' :: Text.hexDigits 4 unit

def escapedChar (c : Char) : List Char :=
  if c = '"' ∨ c = '\\' then ['\\', c]
  else if c = '\n' then ['\\', 'n']
  else if c = '\r' then ['\\', 'r']
  else if c = '\t' then ['\\', 't']
  else if c = '\x08' then ['\\', 'b']
  else if c = '\x0c' then ['\\', 'f']
  else
    let n := c.toNat
    if 0x20 ≤ n ∧ n < 0x7F then [c]
    else if n < 0x10000 then unitEscape n
    else unitEscape (0xD800 + (n - 0x10000) / 0x400) ++ unitEscape (0xDC00 + (n - 0x10000) % 0x400)

def stringText (s : String) : String :=
  String.ofList ('"' :: s.toList.flatMap escapedChar ++ ['"'])

end Json

namespace Value

mutual

/-- The JSON text of a value at a nesting level. -/
def write (layout : JsonLayout) (level : Nat) : Value → String
  | .null => "null"
  | .bool b => if b then "true" else "false"
  | .num n => n.text Json.names
  | .str s => Json.stringText s
  | .arr [] => "[]"
  | .arr (item :: items) =>
    "[" ++ layout.lineBreak (level + 1) ++ item.write layout (level + 1) ++
      writeItems layout (level + 1) items ++ layout.lineBreak level ++ "]"
  | .obj [] => "\x7b\x7d"
  | .obj ((key, item) :: fields) =>
    "\x7b" ++ layout.lineBreak (level + 1) ++ Json.stringText key ++ ": " ++
      item.write layout (level + 1) ++ writeFields layout (level + 1) fields ++
      layout.lineBreak level ++ "\x7d"

def writeItems (layout : JsonLayout) (level : Nat) : List Value → String
  | [] => ""
  | item :: items =>
    layout.comma ++ layout.lineBreak level ++ item.write layout level ++
      writeItems layout level items

def writeFields (layout : JsonLayout) (level : Nat) : List (String × Value) → String
  | [] => ""
  | (key, item) :: fields =>
    layout.comma ++ layout.lineBreak level ++ Json.stringText key ++ ": " ++
      item.write layout level ++ writeFields layout level fields

end

/-- The JSON text on one line. -/
def jsonText (value : Value) : String := value.write .oneLine 0

/-- The indented JSON text. -/
def indentedText (value : Value) : String := value.write .indented 0

end Value

end EditorLink
