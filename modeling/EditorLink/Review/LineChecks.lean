import EditorLink.Migration.Rule
import EditorLink.Review.Finding
import EditorLink.Review.Place

/-!
# Checks of single lines and of function bodies

Checks that look at a line alone (indentation, unchecked nodes, connections), and checks that
depend on the function a line stands in. A line belongs to the function whose header, a line with
`func `, is the nearest one above it; a header belongs to itself.
-/

namespace EditorLink.Review

def mentions (line : Line) (s : String) : Bool := Text.contains s.toList line

/-! ## Indentation -/

def indentOf (line : Line) : List Char := line.takeWhile fun c => c == ' ' || c == '\t'

def isBlankLine (line : Line) : Bool := line.all Text.isBlank

/-- A line with text whose indentation has both blanks and tabs. -/
def mixesIndent (line : Line) : Bool :=
  !isBlankLine line && (indentOf line).contains ' ' && (indentOf line).contains '\t'

def mixedIndent (number : Nat) : Error where
  kind := .badSyntax
  level := .error
  message := "Inconsistent indentation: tabs and spaces are mixed"
  line := some number
  suggestion := some "Indent with tabs only"

def indentErrors (lines : List Line) : List Error :=
  (lines.zipIdx 1).filterMap fun (line, number) =>
    if mixesIndent line then some (mixedIndent number) else none

/-! ## Nodes and connections -/

/-- A node is looked up on a line that shows no sign of a check. -/
def usesUncheckedNode (line : Line) : Bool :=
  mentions line "get_node(" && !mentions line "get_node_or_null(" && !mentions line "if" &&
    !mentions line "has_node"

def uncheckedNode (number : Nat) : Warning where
  kind := .safety
  message := "Node is accessed without checking that it exists"
  line := number
  recommendation := "Use get_node_or_null() or check with has_node() first"

def nodeWarnings (lines : List Line) : List Warning :=
  (lines.zipIdx 1).filterMap fun (line, number) =>
    if usesUncheckedNode line then some (uncheckedNode number) else none

def connectsByName (line : Line) : Bool :=
  mentions line ".connect(" && line.contains '"' && line.contains ','

def callableConnection : Suggestion where
  message := "Signal connection can use the callable syntax"
  benefit := "Shorter and checked by the editor"
  implementation := "button.pressed.connect(_on_button_pressed)"

def connectionSuggestions (lines : List Line) : List Suggestion :=
  (lines.filter connectsByName).map fun _ => callableConnection

/-! ## Function bodies -/

def isHeader (line : Line) : Bool := mentions line "func "

def isProcessHeader (line : Line) : Bool := mentions line "func _process("

/-- A call that creates something: `create_` with any ending, and empty parentheses. -/
def creatingCall : Migration.Pattern Unit := fun _ rest => do
  let rest ← Migration.literal? "create_" rest
  let rest ← Migration.literal? "()" (rest.dropWhile Text.isWord)
  return ((), rest)

def isHeavy (line : Line) : Bool :=
  (Migration.methodCall "find").occurs line || (Migration.methodCall "get_children").occurs line ||
    creatingCall.occurs line

/-- A method called directly on a node that is looked up. -/
def nodeMethodCall : Migration.Pattern Unit := fun _ rest => do
  let rest ← Migration.literal? "get_node(" rest
  let (_, rest) ← Migration.run? (· != ')') rest
  let rest ← Migration.literal? ")." rest
  let (_, rest) ← Migration.word? rest
  let rest ← Migration.literal? "(" rest
  return ((), rest)

def fetchesInLoop (line : Line) : Bool := nodeMethodCall.occurs line && mentions line "for "

def heavyCall (number : Nat) : Warning where
  kind := .performance
  message := "Expensive call inside _process"
  line := number
  recommendation := "Move it to _ready or cache the result"

def repeatedFetch (number : Nat) : Warning where
  kind := .performance
  message := "Node reference fetched repeatedly inside a loop"
  line := number
  recommendation := "Cache the node reference outside the loop"

/-- The heavy calls of a function body, which starts with the line numbered `first` and ends before
the next header. -/
def bodyWarnings (first : Nat) (lines : List Line) : List Warning :=
  ((lines.takeWhile (!isHeader ·)).zipIdx first).filterMap fun (line, number) =>
    if isHeavy line then some (heavyCall number) else none

def performanceWarningsFrom (number : Nat) : List Line → List Warning
  | [] => []
  | line :: lines =>
    (if isProcessHeader line then bodyWarnings (number + 1) lines else []) ++
      (if fetchesInLoop line then [repeatedFetch number] else []) ++
      performanceWarningsFrom (number + 1) lines

def performanceWarnings (lines : List Line) : List Warning := performanceWarningsFrom 1 lines

/-- The header of a signal handler: `func _on_` at the start of the line, and a word character. -/
def isHandlerHeader (line : Line) : Bool :=
  match Text.after? "func _on_".toList line with
  | some (c :: _) => Text.isWord c
  | _ => false

/-- Whether the first of some lines, given from the bottom up, stands in a signal handler. -/
def inHandler (upwards : List Line) : Bool :=
  match upwards.find? isHeader with
  | some header => isHandlerHeader header
  | none => false

def freedInHandler (number : Nat) : Warning where
  kind := .safety
  message := "Freeing a node inside a signal handler can crash"
  line := number
  recommendation := "Use call_deferred(\"queue_free\")"

def lastingConnection (number : Nat) : Warning where
  kind := .bestPractice
  message := "Consider CONNECT_ONE_SHOT for one-off signals"
  line := number
  recommendation := "Pass CONNECT_ONE_SHOT so the connection is dropped after firing"

def safetyWarningsFrom (number : Nat) (above : List Line) : List Line → List Warning
  | [] => []
  | line :: lines =>
    (if mentions line "queue_free()" && inHandler (line :: above) then [freedInHandler number]
      else []) ++
      (if mentions line "connect(" && !mentions line "CONNECT_ONE_SHOT" then
        [lastingConnection number] else []) ++
      safetyWarningsFrom (number + 1) (line :: above) lines

def safetyWarnings (lines : List Line) : List Warning := safetyWarningsFrom 1 [] lines

end EditorLink.Review
