import EditorLink.Text.Class
import EditorLink.Text.Utf8

/-!
# Percent-encoded text

An escape `%XX` stands for one octet. The octets of a run of ASCII characters and escapes are
decoded together as UTF-8, with U+FFFD for ill-formed units; other characters stand for
themselves, and a percent sign that starts no escape stays.
-/

namespace EditorLink.Text

def escapedOctet? (high low : Char) : Option Nat := do
  return (← hexDigit? high) * 16 + (← hexDigit? low)

/-- Decodes with the octets of the current run, reversed, in `run`. -/
def percentDecodeFrom (run : List Nat) : List Char → List Char
  | [] => Utf8.decodeLossy run.reverse
  | '%' :: high :: low :: cs =>
    match escapedOctet? high low with
    | some octet => percentDecodeFrom (octet :: run) cs
    | none => percentDecodeFrom ('%'.toNat :: run) (high :: low :: cs)
  | c :: cs =>
    if c.toNat < 0x80 then percentDecodeFrom (c.toNat :: run) cs
    else Utf8.decodeLossy run.reverse ++ c :: percentDecodeFrom [] cs

def percentDecode (cs : List Char) : List Char := percentDecodeFrom [] cs

example : percentDecode "%4".toList = "%4".toList := by decide

example : percentDecode "%E4%B8%ADx%E4%B8é".toList = "中x\ufffdé".toList := by decide

end EditorLink.Text
