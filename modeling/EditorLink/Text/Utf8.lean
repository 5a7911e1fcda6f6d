/-!
# UTF-8

Encoding of characters into octets and decoding of arbitrary octets. The decoder reads one octet
at a time; it keeps how many continuation octets are owed and the range the next one must lie in,
so that overlong forms, surrogates and code points above U+10FFFF are refused at the first octet
that rules them out. A refused start of a character counts as one ill-formed unit, and the
refusing octet is read again from the start. `decode?` refuses a text with an ill-formed unit,
`decodeLossy` shows each as U+FFFD.
-/

namespace EditorLink.Text.Utf8

def encodeChar (c : Char) : List Nat :=
  let n := c.toNat
  if n < 0x80 then [n]
  else if n < 0x800 then [0xC0 + n / 64, 0x80 + n % 64]
  else if n < 0x10000 then [0xE0 + n / 4096, 0x80 + n / 64 % 64, 0x80 + n % 64]
  else [0xF0 + n / 262144, 0x80 + n / 4096 % 64, 0x80 + n / 64 % 64, 0x80 + n % 64]

def encode (cs : List Char) : List Nat := cs.flatMap encodeChar

/-- An unfinished character: `owed` octets are to come, the next one between `low` and `high`, and
`code` holds the bits read so far. -/
structure Opened where
  owed : Nat
  low : Nat
  high : Nat
  code : Nat
deriving DecidableEq, Repr

/-- What the first octet of a character says. -/
inductive Lead where
  | whole (c : Char)
  | opens (character : Opened)
  | refused
deriving DecidableEq, Repr

def lead (octet : Nat) : Lead :=
  if octet ≤ 0x7F then .whole (Char.ofNat octet)
  else if 0xC2 ≤ octet ∧ octet ≤ 0xDF then .opens ⟨1, 0x80, 0xBF, octet - 0xC0⟩
  else if octet = 0xE0 then .opens ⟨2, 0xA0, 0xBF, 0⟩
  else if octet = 0xED then .opens ⟨2, 0x80, 0x9F, 0xD⟩
  else if 0xE1 ≤ octet ∧ octet ≤ 0xEF then .opens ⟨2, 0x80, 0xBF, octet - 0xE0⟩
  else if octet = 0xF0 then .opens ⟨3, 0x90, 0xBF, 0⟩
  else if octet = 0xF4 then .opens ⟨3, 0x80, 0x8F, 4⟩
  else if 0xF1 ≤ octet ∧ octet ≤ 0xF3 then .opens ⟨3, 0x80, 0xBF, octet - 0xF0⟩
  else .refused

/-- Puts a first octet before what the rest of the octets decode to. -/
def startWith (octet : Nat) (rest : Option Opened → List (Option Char)) : List (Option Char) :=
  match lead octet with
  | .whole c => some c :: rest none
  | .opens character => rest (some character)
  | .refused => none :: rest none

/-- The units of a sequence of octets: characters, and `none` for each ill-formed unit. -/
def unitsFrom : Option Opened → List Nat → List (Option Char)
  | none, [] => []
  | some _, [] => [none]
  | none, octet :: rest => startWith octet fun state => unitsFrom state rest
  | some opened, octet :: rest =>
    if opened.low ≤ octet ∧ octet ≤ opened.high then
      let code := opened.code * 64 + (octet - 0x80)
      if opened.owed ≤ 1 then some (Char.ofNat code) :: unitsFrom none rest
      else unitsFrom (some ⟨opened.owed - 1, 0x80, 0xBF, code⟩) rest
    else none :: startWith octet fun state => unitsFrom state rest

def units (octets : List Nat) : List (Option Char) := unitsFrom none octets

def decodeLossy (octets : List Nat) : List Char :=
  (units octets).map fun unit => unit.getD '\ufffd'

/-- The text of a well-formed sequence of octets. -/
def decode? (octets : List Nat) : Option (List Char) := (units octets).mapM id

example : decodeLossy [0xE4, 0xB8, 0x22] = ['\ufffd', '"'] := by decide

example : decodeLossy [0xED, 0xA0, 0x80] = ['\ufffd', '\ufffd', '\ufffd'] := by decide

example : decodeLossy [0xF4, 0x90, 0x80, 0x80] = List.replicate 4 '\ufffd' := by decide

example : decode? (encode ['a', 'é', '中', '😀']) = some ['a', 'é', '中', '😀'] := by decide

end EditorLink.Text.Utf8
