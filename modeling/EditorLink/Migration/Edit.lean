import EditorLink.Migration.Rule

/-!
# Edits of script text

The text each fix strategy puts in place of what it finds. A strategy makes one pass over the text,
or several, each over the result of the one before. An assignment to a material's property is moved
to the particles node: to the owner of the material when it is named, else to the variable of a
particles node declared in the ten lines above, else to `particles`.
-/

namespace EditorLink.Migration

/-! ## has_property -/

/-- A receiver, a point, a method's name and an opening parenthesis. -/
def receiver? (name : String) (rest : List Char) : Option (List Char × List Char) := do
  let (receiver, rest) ← word? rest
  let rest ← literal? "." rest
  let rest ← literal? name rest
  let rest ← openParen? rest
  return (receiver, rest)

def isQuote (c : Char) : Bool := c == '"' || c == '\''

def quote? (rest : List Char) : Option (List Char) :=
  match rest with
  | c :: rest => if isQuote c then some rest else none
  | [] => none

/-- A quoted name and a closing parenthesis. -/
def quotedArgument? (rest : List Char) : Option (List Char × List Char) := do
  let rest ← quote? (skipBlanks rest)
  let (name, rest) ← run? (!isQuote ·) rest
  let rest ← quote? rest
  let rest ← literal? ")" (skipBlanks rest)
  return (name, rest)

def isIndent (c : Char) : Bool := c == ' ' || c == '\t'

/-- A whole line head `if x.has_property("p"):` becomes a look-up and a null check. -/
def propertyCheckHeader : Pattern (List Char) := fun before rest => do
  guard (atLineStart before)
  let indent := rest.takeWhile isIndent
  let rest ← literal? "if" (rest.dropWhile isIndent)
  let rest ← someBlanks? rest
  let (receiver, rest) ← receiver? "has_property" rest
  let (name, rest) ← quotedArgument? rest
  let rest ← literal? ":" (skipBlanks rest)
  return (indent ++ "var ".toList ++ name ++ "_value = ".toList ++ receiver ++ ".get(\"".toList ++
    name ++ "\")\n".toList ++ indent ++ "if ".toList ++ name ++
    "_value != null:  # fixed: has_property() replaced with get() + null check".toList, rest)

/-- Any other call becomes a comparison with null. -/
def propertyCheckCall : Pattern (List Char) := fun _ rest => do
  let (receiver, rest) ← receiver? "has_property" rest
  let (name, rest) ← quotedArgument? rest
  return ("(".toList ++ receiver ++ ".get(\"".toList ++ name ++ "\") != null)".toList, rest)

/-! ## set_looped and get_color_at_offset -/

def loopedCall : Pattern (List Char) := fun _ rest => do
  let (receiver, rest) ← receiver? "set_looped" rest
  let rest ← throughParen? rest
  return ("# ".toList ++ receiver ++
    (".set_looped() was removed, loop with a callback instead:\n" ++
      "# func animate_loop():\n" ++
      "#     var tween = create_tween()\n" ++
      "#     # animation steps...\n" ++
      "#     tween.tween_callback(animate_loop)").toList, rest)

def colorAtOffsetCall : Pattern (List Char) := fun _ rest => do
  let (receiver, rest) ← receiver? "get_color_at_offset" rest
  let rest ← throughParen? rest
  return (receiver ++ ".get_color(index)  # fixed: use the index of the gradient point".toList, rest)

/-! ## ColorRect -/

/-- `ColorRect` as the name that a keyword introduces. -/
def colorRectAfter (keyword : String) : Pattern (List Char) := fun _ rest => do
  let rest ← literal? keyword rest
  let rest ← someBlanks? rest
  let rest ← literal? "ColorRect" rest
  guard (atWordEnd rest)
  return (keyword.toList ++
    " TextureRect  # fixed: TextureRect handles gradients better".toList, rest)

/-- `ColorRect()` or `ColorRect.new()`. -/
def colorRectCall : Pattern (List Char) := fun before rest => do
  guard (atWordStart before)
  let rest := skipBlanks (← literal? "ColorRect" rest)
  let rest := ((literal? ".new" rest).map skipBlanks).getD rest
  let rest ← literal? "()" rest
  return ("TextureRect.new()".toList, rest)

/-! ## Material properties -/

def endsValue (c : Char) : Bool := c == ';' || c == '\n'

/-- The value after an equals sign: blanks, then at least one character up to a semicolon or the end
of the line. Where only blanks are left before a semicolon or the end of the text, the value is the
blanks themselves, up to the last one that is no line break. -/
def assignedValue? (rest : List Char) : Option (List Char × List Char) :=
  let blanks := rest.takeWhile Text.isBlank
  match run? (!endsValue ·) (skipBlanks rest) with
  | some (value, rest) => some (blanks ++ value, rest)
  | none =>
    let kept := Text.dropRightWhile (· == '\n') blanks
    if kept.isEmpty then none else some (kept, rest.drop kept.length)

/-- Equality of letters up to case, where dotted and dotless I count as `i`. -/
def sameLetter (letter c : Char) : Bool :=
  c.toLower == letter || (letter == 'i' && (c == 'ı' || c == 'İ'))

def literalAnyCase? : List Char → List Char → Option (List Char)
  | [], rest => some rest
  | letter :: letters, c :: rest =>
    if sameLetter letter c then literalAnyCase? letters rest else none
  | _ :: _, [] => none

def anyCase (s : String) : Pattern Unit := fun _ rest =>
  (literalAnyCase? s.toList rest).map fun rest => ((), rest)

/-- A node look-up: the dollar sign, or a call of `get_node` with an argument. -/
def nodeLookup? (rest : List Char) : Option (List Char) :=
  match literal? "$" rest with
  | some rest => some rest
  | none => do
    let rest ← literalAnyCase? "get_node(".toList rest
    let (_, rest) ← run? (· != ')') rest
    literal? ")" rest

/-- The declaration of a variable for a node whose look-up mentions particles. -/
def particlesDeclaration : Pattern (List Char) := fun _ rest => do
  let rest ← literalAnyCase? "var".toList rest
  let rest ← someBlanks? rest
  let (name, rest) ← word? rest
  let rest ← literal? "=" (skipBlanks rest)
  let rest ← nodeLookup? (skipBlanks rest)
  guard ((anyCase "particle").occurs (rest.takeWhile (· != ';')))
  return (name, rest)

/-- The complete lines before a place, at most the last `count`, from top to bottom. -/
def linesAbove (count : Nat) (before : List Char) : List (List Char) :=
  let above := (before.reverse.splitOn '\n').dropLast
  above.drop (above.length - count)

/-- The particles node that an assignment without an owner belongs to. -/
def particlesAbove (before : List Char) : List Char :=
  ((linesAbove 10 before).findSome? fun line =>
    particlesDeclaration.search? (Text.trim line)).getD "particles".toList

def movedAssignment (property : MaterialProperty) (node value : List Char) : List Char :=
  node ++ ".".toList ++ property.nodeName.toList ++ " = ".toList ++ value ++
    "  # fixed: moved from material.".toList ++ property.name.toList ++ " to ".toList ++ node ++
    ".".toList ++ property.nodeName.toList

/-- An assignment to a material's property with its value. A word and a point before it name the
node. The owner and the value are those that the pattern reads: a search in the statement for the
word before `.material.` and for what stands behind the equals sign finds the same, and since a
statement has a value, no default value of a property is ever written. -/
def materialStatement (property : MaterialProperty) : Pattern (List Char) := fun before rest => do
  match (ownedTarget? property rest).bind fun (owner, rest) =>
      (assignedValue? rest).map fun (value, rest) => (owner, value, rest) with
  | some (owner, value, rest) => return (movedAssignment property owner (Text.trim value), rest)
  | none =>
    guard (atWordStart before)
    let rest ← materialTarget? property rest
    let (value, rest) ← assignedValue? rest
    return (movedAssignment property (particlesAbove before) (Text.trim value), rest)

/-! ## Strategies -/

/-- The passes of a strategy, in order. -/
def FixStrategy.passes : FixStrategy → List (Pattern (List Char))
  | .hasProperty => [propertyCheckHeader, propertyCheckCall]
  | .setLooped => [loopedCall]
  | .colorAtOffset => [colorAtOffsetCall]
  | .colorRect => [colorRectAfter "class_name", colorRectAfter "extends", colorRectCall]
  | .material property => [materialStatement property]

def FixStrategy.edit (strategy : FixStrategy) (source : List Char) : List Char :=
  strategy.passes.foldl (fun text pass => pass.replaceAll text) source

end EditorLink.Migration
