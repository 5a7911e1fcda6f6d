import EditorLink.Exchange.Fault

/-!
# Exchanges with the editor

What a tool or a resource does towards the editor: it sends commands, one after the other, each of
which may depend on the outcomes before it, and ends with a result.
-/

namespace EditorLink

namespace Exchange

structure Command where
  name : String
  params : Fields

/-- Why a command has no result: the link failed, or something outside it. -/
inductive Failure where
  | link (kind : LinkErrorKind) (message : String)
  | foreign (name message : String)
deriving DecidableEq

abbrev Outcome := Except Failure Value

/-- An editor, as far as a caller sees it. -/
abbrev Editor := Command → Outcome

def Failure.fault : Failure → CallFault
  | link kind message => .link kind message
  | foreign name message => .foreign name message

end Exchange

inductive Exchange (α : Type) where
  | ended (result : α)
  | asks (command : Exchange.Command) (proceed : Exchange.Outcome → Exchange α)

namespace Exchange

variable {α β : Type}

protected def bind : Exchange α → (α → Exchange β) → Exchange β
  | ended result, next => next result
  | asks command proceed, next => asks command fun outcome => (proceed outcome).bind next

instance : Monad Exchange where
  pure := ended
  bind := Exchange.bind

def send (command : Command) : Exchange Outcome := asks command ended

def result (editor : Editor) : Exchange α → α
  | ended result => result
  | asks command proceed => (proceed (editor command)).result editor

/-- The commands that an editor gets, in order. -/
def sent (editor : Editor) : Exchange α → List Command
  | ended _ => []
  | asks command proceed => command :: (proceed (editor command)).sent editor

@[simp] theorem result_pure (editor : Editor) (a : α) :
    (pure a : Exchange α).result editor = a := rfl

@[simp] theorem sent_pure (editor : Editor) (a : α) : (pure a : Exchange α).sent editor = [] := rfl

@[simp] theorem result_send (editor : Editor) (command : Command) :
    (send command).result editor = editor command := rfl

@[simp] theorem sent_send (editor : Editor) (command : Command) :
    (send command).sent editor = [command] := rfl

@[simp] theorem result_bind (editor : Editor) (exchange : Exchange α) (next : α → Exchange β) :
    (exchange >>= next).result editor = (next (exchange.result editor)).result editor := by
  induction exchange with
  | ended result => rfl
  | asks command proceed ih => exact ih (editor command)

@[simp] theorem sent_bind (editor : Editor) (exchange : Exchange α) (next : α → Exchange β) :
    (exchange >>= next).sent editor =
      exchange.sent editor ++ (next (exchange.result editor)).sent editor := by
  induction exchange with
  | ended result => rfl
  | asks command proceed ih => exact congrArg (command :: ·) (ih (editor command))

@[simp] theorem result_map (editor : Editor) (f : α → β) (exchange : Exchange α) :
    (f <$> exchange).result editor = f (exchange.result editor) :=
  result_bind editor exchange fun a => pure (f a)

@[simp] theorem sent_map (editor : Editor) (f : α → β) (exchange : Exchange α) :
    (f <$> exchange).sent editor = exchange.sent editor :=
  (sent_bind editor exchange fun a => pure (f a)).trans (List.append_nil _)

end Exchange

end EditorLink
