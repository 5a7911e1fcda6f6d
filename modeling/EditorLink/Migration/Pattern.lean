import EditorLink.Text.Basic

/-!
# Patterns in script text

A pattern looks at a place in a text: the characters before it, nearest first, and the characters
from it on. Where it matches it gives what it captured and what follows the match. A pattern never
matches the empty text. `occurs` tries every place from the left; `replaceAll` replaces the leftmost
matches that do not overlap, and copies all else.
-/

namespace EditorLink.Migration

abbrev Pattern (α : Type) := (before rest : List Char) → Option (α × List Char)

namespace Pattern

def occursFrom {α : Type} (p : Pattern α) : List Char → List Char → Bool
  | _, [] => false
  | before, c :: rest => (p before (c :: rest)).isSome || occursFrom p (c :: before) rest

def occurs {α : Type} (p : Pattern α) (text : List Char) : Bool := p.occursFrom [] text

/-- The first match's capture. -/
def searchFrom {α : Type} (p : Pattern α) : List Char → List Char → Option α
  | _, [] => none
  | before, c :: rest =>
    match p before (c :: rest) with
    | some (captured, _) => some captured
    | none => searchFrom p (c :: before) rest

def search? {α : Type} (p : Pattern α) (text : List Char) : Option α := p.searchFrom [] text

/-- Replaces from a place on, where the next `skip` characters belong to a match that has been
replaced. -/
def replaceFrom (p : Pattern (List Char)) : Nat → List Char → List Char → List Char
  | _, _, [] => []
  | skip + 1, before, c :: rest => replaceFrom p skip (c :: before) rest
  | 0, before, c :: rest =>
    match p before (c :: rest) with
    | some (replacement, after) =>
      replacement ++ replaceFrom p (rest.length - after.length) (c :: before) rest
    | none => c :: replaceFrom p 0 (c :: before) rest

def replaceAll (p : Pattern (List Char)) (text : List Char) : List Char := p.replaceFrom 0 [] text

end Pattern

/-! ## Parts of patterns

Each part takes what it can from the front of the text and gives the rest. -/

/-- No word character directly before the place. -/
def atWordStart (before : List Char) : Bool :=
  match before with
  | c :: _ => !Text.isWord c
  | [] => true

/-- No word character at the front. -/
def atWordEnd (rest : List Char) : Bool := atWordStart rest

def atLineStart (before : List Char) : Bool :=
  match before with
  | c :: _ => c == '\n'
  | [] => true

def literal? (s : String) (rest : List Char) : Option (List Char) := s.toList.isPrefixOf? rest

def skipBlanks (rest : List Char) : List Char := rest.dropWhile Text.isBlank

/-- One blank or more. -/
def someBlanks? (rest : List Char) : Option (List Char) :=
  match rest with
  | c :: rest => if Text.isBlank c then some (skipBlanks rest) else none
  | [] => none

/-- A run of characters of a class, as long as it goes and not empty. -/
def run? (p : Char → Bool) (rest : List Char) : Option (List Char × List Char) :=
  let taken := rest.takeWhile p
  if taken.isEmpty then none else some (taken, rest.dropWhile p)

def word? (rest : List Char) : Option (List Char × List Char) := run? Text.isWord rest

/-- Anything up to a closing parenthesis, and the parenthesis. -/
def throughParen? (rest : List Char) : Option (List Char) :=
  literal? ")" (rest.dropWhile (· != ')'))

/-- A blank-tolerant opening parenthesis. -/
def openParen? (rest : List Char) : Option (List Char) := literal? "(" (skipBlanks rest)

theorem isPrefixOf?_eq_some_iff {xs ys zs : List Char} :
    xs.isPrefixOf? ys = some zs ↔ ys = xs ++ zs := by
  induction xs generalizing ys with
  | nil =>
    show some ys = some zs ↔ ys = zs
    simp
  | cons x xs ih =>
    cases ys with
    | nil =>
      show none = some zs ↔ [] = x :: xs ++ zs
      simp
    | cons y ys =>
      show (if x == y then xs.isPrefixOf? ys else none) = some zs ↔ y :: ys = x :: xs ++ zs
      by_cases h : x = y
      · subst h
        simp [ih]
      · simp [h, Ne.symm h]

theorem literal?_eq_some_iff {s : String} {rest after : List Char} :
    literal? s rest = some after ↔ rest = s.toList ++ after :=
  isPrefixOf?_eq_some_iff

end EditorLink.Migration
