import EditorLink.Json.Value
import EditorLink.Text.Class

/-!
# Reading JSON

The reader takes a text as a list of characters and gives a value or the first fault with its
place. A place is kept as the number of characters left, and becomes an offset from the start of
the whole text at the end. Beside the strict grammar the reader takes `NaN`, `Infinity` and
`-Infinity`; of equal keys in an object the last value counts. A whole number may have at most 4300
digits, and lists and objects may nest only so deep: how deep is up to the one who reads. Half of a
surrogate pair, which a text of characters cannot hold, is read as U+FFFD; keys that differ only in
such halves are one key.
-/

namespace EditorLink.Json

inductive Container where
  | list
  | object
deriving DecidableEq, Repr

inductive Fault where
  | byteOrderMark
  | expectingValue
  | expectingKey
  | expectingColon
  | expectingComma
  | extraData
  | unterminatedString
  | controlCharacter
  | badEscape
  | badUnicodeEscape
  | oversizedInteger (digits : Nat)
  | tooDeep (container : Container)
deriving DecidableEq, Repr

/-- A fault and the number of characters left where it was found. -/
structure Stop where
  fault : Fault
  left : Nat
deriving DecidableEq, Repr

abbrev Reading (α : Type) := Except Stop (α × List Char)

def maxIntegerDigits : Nat := 4300

def isSpace (c : Char) : Bool := c == ' ' || c == '\t' || c == '\n' || c == '\r'

def skipSpace (cs : List Char) : List Char := cs.dropWhile isSpace

/-- The value of a run of ASCII digits. -/
def digitsValue (cs : List Char) : Nat := cs.foldl (fun n c => n * 10 + (c.toNat - 48)) 0

/-! ## Numbers -/

def fraction (cs : List Char) : List Char × List Char :=
  match cs with
  | '.' :: rest =>
    if (rest.takeWhile Char.isDigit).isEmpty then ([], cs)
    else (rest.takeWhile Char.isDigit, rest.dropWhile Char.isDigit)
  | _ => ([], cs)

def exponentDigits? (negative : Bool) (cs : List Char) : Option (Int × List Char) :=
  let digits := cs.takeWhile Char.isDigit
  if digits.isEmpty then none
  else
    let value : Int := digitsValue digits
    some (if negative then -value else value, cs.dropWhile Char.isDigit)

def exponent? (cs : List Char) : Option (Int × List Char) :=
  match cs with
  | c :: rest =>
    if c = 'e' ∨ c = 'E' then
      match rest with
      | '+' :: digits => exponentDigits? false digits
      | '-' :: digits => exponentDigits? true digits
      | digits => exponentDigits? false digits
    else none
  | [] => none

/-- The digits of a whole number: a zero alone, or a run that starts with another digit. -/
def wholeDigits (cs : List Char) : List Char × List Char :=
  match cs with
  | '0' :: rest => (['0'], rest)
  | _ => (cs.takeWhile Char.isDigit, cs.dropWhile Char.isDigit)

/-- A number stops at its longest valid beginning. -/
def unsignedNumber (negative : Bool) (cs : List Char) : Reading Number :=
  let (whole, afterWhole) := wholeDigits cs
  let (decimals, afterFraction) := fraction afterWhole
  match exponent? afterFraction with
  | some (exponent, rest) =>
    .ok (.float (.ofDecimal negative (digitsValue (whole ++ decimals))
      (exponent - decimals.length)), rest)
  | none =>
    if decimals.isEmpty then
      if whole.length > maxIntegerDigits then .error ⟨.oversizedInteger whole.length, cs.length⟩
      else
        let value : Int := digitsValue whole
        .ok (.int (if negative then -value else value), afterFraction)
    else
      .ok (.float (.ofDecimal negative (digitsValue (whole ++ decimals)) (-decimals.length)),
        afterFraction)

/-! ## Strings -/

def simpleEscape? (c : Char) : Option Char :=
  if c = '"' ∨ c = '\\' ∨ c = '/' then some c
  else if c = 'n' then some '\n'
  else if c = 'r' then some '\r'
  else if c = 't' then some '\t'
  else if c = 'b' then some '\x08'
  else if c = 'f' then some '\x0c'
  else none

/-- The code unit of four hexadecimal digits; a further character has to follow them. -/
def fourHex? : List Char → Option Nat
  | a :: b :: c :: d :: _ :: _ => do
    let a ← Text.hexDigit? a
    let b ← Text.hexDigit? b
    let c ← Text.hexDigit? c
    let d ← Text.hexDigit? d
    return ((a * 16 + b) * 16 + c) * 16 + d
  | _ => none

def isHighSurrogate (unit : Nat) : Bool := 0xD800 ≤ unit && unit ≤ 0xDBFF

def isLowSurrogate (unit : Nat) : Bool := 0xDC00 ≤ unit && unit ≤ 0xDFFF

/-- The character of a code unit that stands alone. No character is half of a surrogate pair, so
that every such half is read alike, as U+FFFD. -/
def unitChar (unit : Nat) : Char :=
  if isHighSurrogate unit || isLowSurrogate unit then '\ufffd' else Char.ofNat unit

/-- Joins a high surrogate with the low one after it. -/
def joinSurrogates : List Nat → List Char
  | high :: low :: rest =>
    if isHighSurrogate high && isLowSurrogate low then
      Char.ofNat (0x10000 + (high - 0xD800) * 0x400 + (low - 0xDC00)) :: joinSurrogates rest
    else unitChar high :: joinSurrogates (low :: rest)
  | [unit] => [unitChar unit]
  | [] => []

/-- Reads a string after its opening quote, where `start` characters were left, skipping the next
`skip` characters; `units` are the code units read so far, reversed. -/
def stringRest (start : Nat) : Nat → List Nat → List Char → Reading String
  | _, _, [] => .error ⟨.unterminatedString, start⟩
  | skip + 1, units, _ :: cs => stringRest start skip units cs
  | 0, units, '"' :: cs => .ok (String.ofList (joinSurrogates units.reverse), cs)
  | 0, _, ['\\'] => .error ⟨.unterminatedString, start⟩
  | 0, units, '\\' :: c :: cs =>
    if c = 'u' then
      match fourHex? cs with
      | some unit => stringRest start 4 (unit :: units) cs
      | none => .error ⟨.badUnicodeEscape, cs.length + 1⟩
    else
      match simpleEscape? c with
      | some e => stringRest start 0 (e.toNat :: units) cs
      | none => .error ⟨.badEscape, cs.length + 2⟩
  | 0, units, c :: cs =>
    if c.toNat < 0x20 then .error ⟨.controlCharacter, cs.length + 1⟩
    else stringRest start 0 (c.toNat :: units) cs

/-! ## Values -/

def literals : List (List Char × Value) :=
  [("null".toList, .null), ("true".toList, .bool true), ("false".toList, .bool false),
   ("NaN".toList, .float .nan), ("Infinity".toList, .float (.infinite false)),
   ("-Infinity".toList, .float (.infinite true))]

def literal? (cs : List Char) : Option (Value × List Char) :=
  literals.findSome? fun (name, value) => (name.isPrefixOf? cs).map fun rest => (value, rest)

def startsWithDigit (cs : List Char) : Bool :=
  match cs with
  | c :: _ => c.isDigit
  | [] => false

/-- A literal or a number. -/
def scalar (cs : List Char) : Reading Value :=
  match literal? cs with
  | some (value, rest) => .ok (value, rest)
  | none =>
    match cs with
    | '-' :: rest =>
      if startsWithDigit rest then
        (unsignedNumber true rest).map fun (number, rest) => (.num number, rest)
      else .error ⟨.expectingValue, cs.length⟩
    | _ =>
      if startsWithDigit cs then
        (unsignedNumber false cs).map fun (number, rest) => (.num number, rest)
      else .error ⟨.expectingValue, cs.length⟩

mutual

/-- Reads a value at the front of the text, in which `depth` more levels may be opened. The second
argument bounds the recursion; two for each character are enough. -/
def value (depth : Nat) : Nat → List Char → Except Stop (Value × List Char)
  | 0, cs => .error ⟨.expectingValue, cs.length⟩
  | fuel + 1, cs =>
    match cs, depth with
    | '"' :: rest, _ => (stringRest cs.length 0 [] rest).map fun (s, rest) => (.str s, rest)
    | '{' :: _, 0 => .error ⟨.tooDeep .object, cs.length⟩
    | '{' :: rest, depth + 1 =>
      match skipSpace rest with
      | '}' :: rest => .ok (.obj [], rest)
      | rest => members depth fuel [] rest
    | '[' :: _, 0 => .error ⟨.tooDeep .list, cs.length⟩
    | '[' :: rest, depth + 1 =>
      match skipSpace rest with
      | ']' :: rest => .ok (.arr [], rest)
      | rest => elements depth fuel [] rest
    | _, _ => scalar cs

/-- Reads the members of an object from a key on; `fields` came before. -/
def members (depth : Nat) : Nat → Fields → List Char → Except Stop (Value × List Char)
  | fuel + 1, fields, '"' :: rest => do
    let (key, rest) ← stringRest (rest.length + 1) 0 [] rest
    match skipSpace rest with
    | ':' :: rest => do
      let (item, rest) ← value depth fuel (skipSpace rest)
      let fields := fields.set key item
      match skipSpace rest with
      | '}' :: rest => .ok (.obj fields, rest)
      | ',' :: rest => members depth fuel fields (skipSpace rest)
      | rest => .error ⟨.expectingComma, rest.length⟩
    | rest => .error ⟨.expectingColon, rest.length⟩
  | _, _, cs => .error ⟨.expectingKey, cs.length⟩

/-- Reads the elements of a list from a value on; `items` came before, reversed. -/
def elements (depth : Nat) : Nat → List Value → List Char → Except Stop (Value × List Char)
  | 0, _, cs => .error ⟨.expectingValue, cs.length⟩
  | fuel + 1, items, cs => do
    let (item, rest) ← value depth fuel cs
    match skipSpace rest with
    | ']' :: rest => .ok (.arr (item :: items).reverse, rest)
    | ',' :: rest => elements depth fuel (item :: items) (skipSpace rest)
    | rest => .error ⟨.expectingComma, rest.length⟩

end

/-- Reads a text that is one value with spaces around it. -/
def document (depth : Nat) (cs : List Char) : Except Stop Value :=
  match cs with
  | '\ufeff' :: _ => .error ⟨.byteOrderMark, cs.length⟩
  | _ => do
    let start := skipSpace cs
    let (result, rest) ← value depth (2 * start.length + 2) start
    match skipSpace rest with
    | [] => .ok result
    | rest => .error ⟨.extraData, rest.length⟩

/-! ## Errors with their place -/

/-- Why a text cannot be read: it is not JSON, or goes beyond a limit. An offset counts characters
from 0, line and column count from 1. -/
inductive ReadError where
  | malformed (fault : Fault) (offset line column : Nat)
  | oversizedInteger (digits : Nat)
  | tooDeep (container : Container)
deriving DecidableEq, Repr

/-- The reader gave up on the text at one of its limits. -/
def ReadError.isBeyondLimit : ReadError → Bool
  | .malformed _ _ _ _ => false
  | .oversizedInteger _ | .tooDeep _ => true

def Stop.locate (stop : Stop) (cs : List Char) : ReadError :=
  match stop.fault with
  | .oversizedInteger digits => .oversizedInteger digits
  | .tooDeep container => .tooDeep container
  | fault =>
    let before := cs.take (cs.length - stop.left)
    let lastLine := before.reverse.takeWhile (· != '\n')
    .malformed fault before.length (before.count '\n' + 1) (lastLine.length + 1)

/-- Reads a text in which `depth` lists and objects may stand inside each other. -/
def read (depth : Nat) (cs : List Char) : Except ReadError Value :=
  (document depth cs).mapError fun stop => stop.locate cs

def Container.name : Container → String
  | .list => "array"
  | .object => "object"

def Fault.message : Fault → String
  | .byteOrderMark => "Unexpected UTF-8 BOM (decode using utf-8-sig)"
  | .expectingValue => "Expecting value"
  | .expectingKey => "Expecting property name enclosed in double quotes"
  | .expectingColon => "Expecting ':' delimiter"
  | .expectingComma => "Expecting ',' delimiter"
  | .extraData => "Extra data"
  | .unterminatedString => "Unterminated string starting at"
  | .controlCharacter => "Invalid control character at"
  | .badEscape => "Invalid \\escape"
  | .badUnicodeEscape => "Invalid \\uXXXX escape"
  | .oversizedInteger digits =>
    s!"Exceeds the limit ({maxIntegerDigits} digits) for integer string conversion: value has " ++
      s!"{digits} digits; use sys.set_int_max_str_digits() to increase the limit"
  | .tooDeep container =>
    "maximum recursion depth exceeded while decoding a JSON " ++
      s!"{container.name} from a unicode string"

def ReadError.message : ReadError → String
  | .malformed fault offset line column =>
    s!"{fault.message}: line {line} column {column} (char {offset})"
  | .oversizedInteger digits => (Fault.oversizedInteger digits).message
  | .tooDeep container => (Fault.tooDeep container).message

end EditorLink.Json
