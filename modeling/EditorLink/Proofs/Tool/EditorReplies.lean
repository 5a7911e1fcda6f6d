import EditorLink.Proofs.Exchange.Faults
import EditorLink.Proofs.Tool.Acceptance
import EditorLink.Tool.EditorSchema

/-!
# What editor tools ask and tell

With accepted arguments a tool asks its command with all required arguments in it, unless it answers
without the editor. Whatever the editor then replies is told in a text, except for replies whose
parts are of another shape than the tool goes through: properties or a version that are no object,
children that are no list of objects, and a result of a script that is too deep to be written.
-/

namespace EditorLink

namespace EditorTool

open Tool

/-! ## Replies of another shape -/

/-- Children that cannot be listed, and the fault that the list ends in instead. A text is gone
through by its characters and an object by its keys, which are no children either. -/
inductive MalformedChildren : Value → CallFault → Prop
  | flag : MalformedChildren (.bool true) (.notIterable "bool")
  | number {n : Number} (h : n.isZero = false) :
    MalformedChildren (.num n) (.notIterable (Value.num n).kindName)
  | text {s : String} (h : s ≠ "") : MalformedChildren (.str s) (.lacksMember "str" "get")
  | object {fields : Fields} (h : fields ≠ []) :
    MalformedChildren (.obj fields) (.lacksMember "str" "get")
  | child {before after : List Value} {child : Value}
    (hbefore : ∀ item ∈ before, ∃ fields, item = .obj fields) (hchild : child.asFields? = none) :
    MalformedChildren (.arr (before ++ child :: after)) (.lacksMember child.kindName "get")

/-- The results that a tool cannot tell with some room for nesting, and the fault that it ends in
instead. -/
inductive Malformed (room : Nat) (result : Fields) : EditorTool → CallFault → Prop
  | properties {value : Value} (hvalue : result.getOrNull "properties" = value)
    (hgiven : value.isTruthy) (hkind : value.asFields? = none) :
    Malformed room result getNodeProperties (.lacksMember value.kindName "items")
  | children {fault : CallFault} (h : MalformedChildren (result.getOrNull "children") fault) :
    Malformed room result listNodes fault
  | version {value : Value} (hvalue : result.getOrNull "godot_version" = value)
    (hgiven : value.isTruthy) (hkind : value.asFields? = none) :
    Malformed room result getProjectInfo (.lacksMember value.kindName "get")
  | deep {value : Value} (hvalue : result.getOrNull "result" = value) (hgiven : value.isTruthy)
    (hdeep : room < value.nesting) : Malformed room result executeEditorScript .tooDeep

variable {room : Nat} {result : Fields} {fault : CallFault}

theorem childLine_eq_error_iff {child : Value} : childLine child = .error fault ↔
    child.asFields? = none ∧ fault = .lacksMember child.kindName "get" :=
  bind_pure_eq_error_iff.trans Value.fieldsFor_eq_error_iff

theorem exists_childLine_iff {child : Value} :
    (∃ line, childLine child = .ok line) ↔ ∃ fields, child = .obj fields := by
  constructor
  · intro ⟨line, hline⟩
    cases child with
    | obj fields => exact ⟨fields, rfl⟩
    | _ => cases hline
  · rintro ⟨fields, rfl⟩
    exact ⟨_, rfl⟩

/-- Items that begin with a text are no children. -/
theorem childLines_of_text (s : String) (items : List Value) :
    (Value.str s :: items).mapM childLine = .error (.lacksMember "str" "get") := by
  rw [List.mapM_cons]
  rfl

/-- The lines of some children, or the fault that they end in. -/
def childLines (children : Value) : Except CallFault (List String) :=
  children.iterated >>= fun items => items.mapM childLine

theorem childLines_iff_of_error {children : Value} {found : CallFault}
    (hlines : childLines children = .error found) (hfound : MalformedChildren children found)
    (hunique : ∀ fault, MalformedChildren children fault → fault = found) :
    childLines children = .error fault ↔ MalformedChildren children fault := by
  rw [hlines]
  constructor
  · intro h
    cases h
    exact hfound
  · intro h
    rw [hunique fault h]

theorem childLines_eq_error_iff {children : Value} (hgiven : children.isTruthy) :
    childLines children = .error fault ↔ MalformedChildren children fault := by
  cases children with
  | null => cases hgiven
  | bool b =>
    obtain rfl : b = true := hgiven
    refine childLines_iff_of_error rfl .flag fun fault h => ?_
    cases h
    rfl
  | num n =>
    have hn : n.isZero = false := by simpa [Value.isTruthy] using hgiven
    refine childLines_iff_of_error rfl (.number hn) fun fault h => ?_
    cases h
    rfl
  | str s =>
    have hs : s ≠ "" := by simpa [Value.isTruthy] using hgiven
    obtain ⟨c, cs, hchars⟩ := List.exists_cons_of_ne_nil (mt String.toList_eq_nil_iff.mp hs)
    have hlines : childLines (.str s) = .error (.lacksMember "str" "get") := by
      simp only [childLines, Value.iterated, hchars]
      exact childLines_of_text (String.singleton c) (cs.map fun c => .str (String.singleton c))
    refine childLines_iff_of_error hlines (.text hs) fun fault h => ?_
    cases h
    rfl
  | arr items =>
    refine Iff.trans (mapM_eq_error_iff (f := childLine)) ?_
    constructor
    · intro ⟨before, child, after, hitems, hbefore, hchild⟩
      obtain ⟨hkind, rfl⟩ := childLine_eq_error_iff.mp hchild
      rw [hitems]
      exact .child (fun item hitem => exists_childLine_iff.mp (hbefore item hitem)) hkind
    · intro h
      cases h with
      | @child before after child hbefore hkind =>
        exact ⟨before, child, after, rfl,
          fun item hitem => exists_childLine_iff.mpr (hbefore item hitem),
          childLine_eq_error_iff.mpr ⟨hkind, rfl⟩⟩
  | obj fields =>
    have hfields : fields ≠ [] := by simpa [Value.isTruthy] using hgiven
    obtain ⟨⟨key, value⟩, rest, rfl⟩ := List.exists_cons_of_ne_nil hfields
    have hlines : childLines (.obj ((key, value) :: rest)) = .error (.lacksMember "str" "get") :=
      childLines_of_text key (rest.map fun field => .str field.1)
    refine childLines_iff_of_error hlines (.object hfields) fun fault h => ?_
    cases h
    rfl

theorem MalformedChildren.isTruthy {children : Value} (h : MalformedChildren children fault) :
    children.isTruthy := by
  cases h with
  | flag => rfl
  | number hn => simpa [Value.isTruthy] using hn
  | text hs => simpa [Value.isTruthy] using hs
  | object hfields => simpa [Value.isTruthy] using hfields
  | child => simp [Value.isTruthy]

theorem tellChildren_of_given {parent : Value} (h : (result.getOrNull "children").isTruthy) :
    tellChildren parent result = (childLines (result.getOrNull "children") >>= fun lines =>
      pure (s!"Children of node at {parent.shown}:\n\n" ++ "\n".intercalate lines)) := by
  simp only [tellChildren, h, if_true, childLines, bind_assoc]

theorem tellChildren_eq_error_iff {parent : Value} :
    tellChildren parent result = .error fault ↔ Malformed room result listNodes fault := by
  have hchildren : Malformed room result listNodes fault ↔
      MalformedChildren (result.getOrNull "children") fault := by
    constructor
    · intro h
      cases h with
      | children h => exact h
    · exact .children
  rw [hchildren]
  by_cases hgiven : (result.getOrNull "children").isTruthy
  · rw [tellChildren_of_given hgiven, bind_pure_eq_error_iff, childLines_eq_error_iff hgiven]
  · rw [tellChildren, if_neg hgiven]
    exact iff_of_false nofun fun h => hgiven h.isTruthy

theorem tellProperties_eq_error_iff {path : Value} :
    tellProperties path result = .error fault ↔ Malformed room result getNodeProperties fault := by
  refine bind_pure_eq_error_iff.trans (Value.orElse_fieldsFor_eq_error_iff.trans ?_)
  constructor
  · rintro ⟨hgiven, hkind, rfl⟩
    exact .properties rfl hgiven hkind
  · intro h
    cases h with
    | properties hvalue hgiven hkind =>
      subst hvalue
      exact ⟨hgiven, hkind, rfl⟩

theorem tellProject_eq_error_iff :
    tellProject result = .error fault ↔ Malformed room result getProjectInfo fault := by
  refine bind_pure_eq_error_iff.trans (Value.orElse_fieldsFor_eq_error_iff.trans ?_)
  constructor
  · rintro ⟨hgiven, hkind, rfl⟩
    exact .version rfl hgiven hkind
  · intro h
    cases h with
    | version hvalue hgiven hkind =>
      subst hvalue
      exact ⟨hgiven, hkind, rfl⟩

theorem tellExecution_eq_error_iff :
    tellExecution room result = .error fault ↔ Malformed room result executeEditorScript fault := by
  have hmalformed : Malformed room result executeEditorScript fault ↔
      (result.getOrNull "result").isTruthy ∧ room < (result.getOrNull "result").nesting ∧
        fault = .tooDeep := by
    constructor
    · intro h
      cases h with
      | deep hvalue hgiven hdeep =>
        subst hvalue
        exact ⟨hgiven, hdeep, rfl⟩
    · rintro ⟨hgiven, hdeep, rfl⟩
      exact .deep rfl hgiven hdeep
  rw [hmalformed, tellExecution]
  split
  · next hgiven =>
    refine bind_pure_eq_error_iff.trans (Value.indentedWithin_eq_error_iff.trans ?_)
    exact (and_iff_right hgiven).symm
  · next hgiven => exact iff_of_false nofun fun h => hgiven h.1

/-! ## What a tool does -/

/-- The words of a tool for a failure of the link. -/
def failure : EditorTool → String
  | createNode => "Failed to create node"
  | deleteNode => "Failed to delete node"
  | updateNodeProperty => "Failed to update node property"
  | getNodeProperties => "Failed to get node properties"
  | listNodes => "Failed to list nodes"
  | createScene => "Failed to create scene"
  | saveScene => "Failed to save scene"
  | openScene => "Failed to open scene"
  | getCurrentScene => "Failed to get current scene"
  | getProjectInfo => "Failed to get project info"
  | createResource => "Failed to create resource"
  | createScript => "Failed to create script"
  | editScript => "Failed to edit script"
  | getScript => "Failed to get script"
  | createScriptTemplate => "Failed to create script template"
  | executeEditorScript => "Script execution failed"

variable {tool : EditorTool} {arguments : Fields}

/-- A tool answers without the editor: the template tool always, and the reading of a script when
nothing tells which one. -/
def AnswersAlone (tool : EditorTool) (arguments : Fields) : Prop :=
  tool = createScriptTemplate ∨ tool = getScript ∧
    (arguments.getOrNull "script_path").isTruthy = false ∧
    (arguments.getOrNull "node_path").isTruthy = false

/-- Every required argument is given, and is among the parameters under its own key. -/
def Carries (tool : EditorTool) (arguments params : Fields) : Prop :=
  ∀ key ∈ tool.schema.required, ∃ value,
    arguments.get? key = some value ∧ params.get? key = some value

/-- A tool sends the command that has its name, with all required arguments, and tells each result
that is not malformed. -/
def Asks (room : Nat) (tool : EditorTool) (arguments : Fields) (work : Work String) : Prop :=
  ∃ params, ∃ tell : Fields → Except CallFault String,
    work = (send tool.name params tool.failure >>= fun result => liftM (tell result)) ∧
      Carries tool arguments params ∧
        ∀ result fault, tell result = .error fault ↔ Malformed room result tool fault

/-- A required argument is at hand when it is taken. -/
theorem asks_argument {key : String} {next : Value → Work String}
    (h : tool.schema.accepts arguments) (hkey : key ∈ tool.schema.required)
    (hnext : ∀ value, arguments.get? key = some value → Asks room tool arguments (next value)) :
    Asks room tool arguments (liftM (arguments.argument key) >>= next) := by
  obtain ⟨value, hvalue⟩ := (Schema.accepts_iff.mp h).1 key hkey
  rw [Fields.argument, hvalue]
  exact hnext value hvalue

/-- Only four tools go into the parts of a result. -/
theorem Malformed.tool_mem (h : Malformed room result tool fault) :
    tool ∈ [getNodeProperties, listNodes, getProjectInfo, executeEditorScript] := by
  cases h <;> decide

/-- A tool that tells every result in a text. -/
theorem asks_plain {params : Fields} {text : Fields → String}
    (hcarries : Carries tool arguments params)
    (hplain : tool ∉ [getNodeProperties, listNodes, getProjectInfo, executeEditorScript]) :
    Asks room tool arguments
      (send tool.name params tool.failure >>= fun result => pure (text result)) := by
  refine ⟨params, fun result => .ok (text result), rfl, hcarries,
    fun result fault => iff_of_false nofun ?_⟩
  intro hmalformed
  exact hplain hmalformed.tool_mem

theorem givenArguments_eq_nil_iff {keys : List String} : givenArguments arguments keys = [] ↔
    ∀ key ∈ keys, (arguments.getOrNull key).isTruthy = false := by
  simp only [givenArguments, List.filterMap_eq_nil_iff]
  refine forall₂_congr fun key _ => ?_
  cases (arguments.getOrNull key).isTruthy <;> simp

/-- What the tool asks that reads a script, when something tells which one. -/
theorem asks_getScript (h : ¬ AnswersAlone getScript arguments) :
    Asks room getScript arguments (work room getScript arguments) := by
  have hparams : givenArguments arguments ["script_path", "node_path"] ≠ [] := by
    intro hnil
    have hgiven := givenArguments_eq_nil_iff.mp hnil
    exact h (.inr ⟨rfl, hgiven _ (.head _), hgiven _ (.tail _ (.head _))⟩)
  simp only [work, List.isEmpty_iff, hparams, if_false]
  exact asks_plain (by simp [Carries, schema]) (by decide)

theorem asks_of_accepts (room : Nat) (h : tool.schema.accepts arguments)
    (halone : ¬ AnswersAlone tool arguments) : Asks room tool arguments (tool.work room arguments) := by
  cases tool with
  | createNode =>
    refine asks_argument h (by simp [schema]) fun parent hparent => ?_
    refine asks_argument h (by simp [schema]) fun kind hkind => ?_
    refine asks_argument h (by simp [schema]) fun name hname => asks_plain ?_ (by decide)
    simp [Carries, schema, Fields.get?_cons, hparent, hkind, hname]
  | deleteNode =>
    refine asks_argument h (by simp [schema]) fun path hpath => asks_plain ?_ (by decide)
    simp [Carries, schema, Fields.get?_cons, hpath]
  | updateNodeProperty =>
    refine asks_argument h (by simp [schema]) fun path hpath => ?_
    refine asks_argument h (by simp [schema]) fun property hproperty => asks_plain ?_ (by decide)
    -- The value may be null, so it is taken as an argument that may be missing.
    obtain ⟨value, hvalue⟩ := (Schema.accepts_iff.mp h).1 "value" (by simp [schema])
    simp [Carries, schema, Fields.get?_cons, Fields.getOrNull, hpath, hproperty, hvalue]
  | getNodeProperties =>
    refine asks_argument h (by simp [schema]) fun path hpath => ?_
    refine ⟨_, _, rfl, by simp [Carries, schema, Fields.get?_cons, hpath], ?_⟩
    exact fun result fault => tellProperties_eq_error_iff
  | listNodes =>
    refine asks_argument h (by simp [schema]) fun parent hparent => ?_
    refine ⟨_, _, rfl, by simp [Carries, schema, Fields.get?_cons, hparent], ?_⟩
    exact fun result fault => tellChildren_eq_error_iff
  | createScene =>
    refine asks_argument h (by simp [schema]) fun path hpath => asks_plain ?_ (by decide)
    simp [Carries, schema, Fields.get?_cons, hpath]
  | saveScene => exact asks_plain (by simp [Carries, schema]) (by decide)
  | openScene =>
    refine asks_argument h (by simp [schema]) fun path hpath => asks_plain ?_ (by decide)
    simp [Carries, schema, Fields.get?_cons, hpath]
  | getCurrentScene => exact asks_plain (by simp [Carries, schema]) (by decide)
  | getProjectInfo =>
    refine ⟨[], tellProject, rfl, by simp [Carries, schema], ?_⟩
    exact fun result fault => tellProject_eq_error_iff
  | createResource =>
    refine asks_argument h (by simp [schema]) fun kind hkind => ?_
    refine asks_argument h (by simp [schema]) fun path hpath => asks_plain ?_ (by decide)
    simp [Carries, schema, Fields.get?_cons, hkind, hpath]
  | createScript =>
    refine asks_argument h (by simp [schema]) fun path hpath => ?_
    refine asks_argument h (by simp [schema]) fun content hcontent => asks_plain ?_ (by decide)
    simp [Carries, schema, Fields.get?_cons, hpath, hcontent]
  | editScript =>
    refine asks_argument h (by simp [schema]) fun path hpath => ?_
    refine asks_argument h (by simp [schema]) fun content hcontent => asks_plain ?_ (by decide)
    simp [Carries, schema, Fields.get?_cons, hpath, hcontent]
  | getScript => exact asks_getScript halone
  | createScriptTemplate => exact absurd (.inl rfl) halone
  | executeEditorScript =>
    refine asks_argument h (by simp [schema]) fun code hcode => ?_
    refine ⟨_, _, rfl, by simp [Carries, schema, Fields.get?_cons, hcode], ?_⟩
    exact fun result fault => tellExecution_eq_error_iff

/-! ## Calls -/

theorem sent_send_bind {name failure : String} {params : Fields}
    {tell : Fields → Except CallFault String} (editor : Exchange.Editor) :
    (send name params failure >>= fun result => liftM (tell result)).run.sent editor =
      [⟨name, params⟩] := by
  show (Exchange.send ⟨name, params⟩ >>= _ >>= _ >>= _).sent editor = _
  simp only [Exchange.sent_bind, Exchange.sent_send, Exchange.result_bind, Exchange.result_send]
  rcases editor ⟨name, params⟩ with ⟨kind, message⟩ | reply
  all_goals rfl

/-- The fault that a tool reports for a command without a result. -/
def failureFault (tool : EditorTool) : Exchange.Failure → CallFault
  | .link _ message => .failed (tool.failure ++ ": " ++ message)
  | .foreign name message => .foreign name message

theorem result_send_bind {params : Fields} {tell : Fields → Except CallFault String}
    (editor : Exchange.Editor) :
    (send tool.name params tool.failure >>= fun result => liftM (tell result)).run.result editor =
      match editor ⟨tool.name, params⟩ with
      | .ok reply => tell (reply.asFields?.getD [])
      | .error failure => .error (tool.failureFault failure) := by
  show (Exchange.send ⟨tool.name, params⟩ >>= _ >>= _ >>= _).result editor = _
  simp only [Exchange.result_bind, Exchange.result_send]
  rcases editor ⟨tool.name, params⟩ with ⟨kind, message⟩ | reply
  all_goals rfl

theorem call_getScript_alone (h : AnswersAlone getScript arguments) :
    getScript.call room arguments =
      pure (.error (.failed "Either script_path or node_path must be provided")) := by
  rcases h with htool | ⟨-, hscript, hnode⟩
  · cases htool
  · have hparams : givenArguments arguments ["script_path", "node_path"] = [] := by
      rw [givenArguments_eq_nil_iff]
      simp [hscript, hnode]
    simp only [call, work, hparams, List.isEmpty_nil, if_true]
    rfl

/-- What a tool tells that answers without the editor. -/
theorem call_alone (room : Nat) (h : AnswersAlone tool arguments) :
    ∃ told, tool.call room arguments = pure told ∧
      ((∃ text, told = .ok text) ∨ ∃ message, told = .error (.failed message)) := by
  rcases h with rfl | ⟨rfl, hnone⟩
  · exact ⟨_, rfl, .inl ⟨_, rfl⟩⟩
  · exact ⟨_, call_getScript_alone (.inr ⟨rfl, hnone⟩), .inr ⟨_, rfl⟩⟩

theorem not_malformed_of_alone (h : AnswersAlone tool arguments) :
    ¬ Malformed room result tool fault := by
  intro hmalformed
  rcases h with rfl | ⟨rfl, -⟩ <;> cases hmalformed

theorem MalformedChildren.fault_cases {children : Value} (h : MalformedChildren children fault) :
    (∃ kind, fault = .notIterable kind) ∨ ∃ kind member, fault = .lacksMember kind member := by
  cases h with
  | flag => exact .inl ⟨_, rfl⟩
  | number => exact .inl ⟨_, rfl⟩
  | _ => exact .inr ⟨_, _, rfl⟩

theorem Malformed.fault_cases (h : Malformed room result tool fault) :
    (∃ kind, fault = .notIterable kind) ∨ (∃ kind member, fault = .lacksMember kind member) ∨
      fault = .tooDeep := by
  cases h with
  | children h => exact h.fault_cases.imp_right .inl
  | deep => exact .inr (.inr rfl)
  | _ => exact .inr (.inl ⟨_, _, rfl⟩)

/-- Whatever the editor replies, a call with accepted arguments gives a text or tells of a failure,
unless the reply is malformed for the tool; then it ends in the fault that this brings. -/
theorem answered_unless_malformed (room : Nat) (tool : EditorTool) (arguments : Fields)
    (reply : Value) (h : tool.schema.accepts arguments) :
    let told := (tool.call room arguments).result fun _ => .ok reply
    let result := reply.asFields?.getD []
    ((∃ text, told = .ok text) ∨ (∃ message, told = .error (.failed message)) ↔
      ∀ fault, ¬ Malformed room result tool fault) ∧
    ∀ fault, Malformed room result tool fault → told = .error fault := by
  intro told result
  by_cases halone : AnswersAlone tool arguments
  · obtain ⟨found, hcall, hfound⟩ := call_alone room halone
    have htold : told = found := congrArg (Exchange.result _) hcall
    rw [htold]
    exact ⟨iff_of_true hfound fun fault => not_malformed_of_alone halone,
      fun fault hmalformed => absurd hmalformed (not_malformed_of_alone halone)⟩
  · obtain ⟨params, tell, hwork, -, hfault⟩ := asks_of_accepts room h halone
    have htold : told = tell result :=
      (congrArg (fun work => work.run.result fun _ => .ok reply) hwork).trans
        (result_send_bind fun _ => .ok reply)
    rw [htold]
    refine ⟨?_, fun fault => (hfault result fault).mpr⟩
    constructor
    · intro htext fault hmalformed
      have herror := (hfault result fault).mpr hmalformed
      rcases htext with ⟨text, htext⟩ | ⟨message, hfailed⟩
      · cases htext.symm.trans herror
      · cases hfailed.symm.trans herror
        rcases hmalformed.fault_cases with ⟨kind, hfault⟩ | ⟨kind, member, hfault⟩ | hfault <;>
          cases hfault
    · intro hnone
      cases hresult : tell result with
      | ok text => exact .inl ⟨text, rfl⟩
      | error fault => exact absurd ((hfault result fault).mp hresult) (hnone fault)

/-- A version that is told as a text is not gone into, and a list in a list is not written where
there is room for one level. -/
theorem answered_unless_malformed_version :
    (schema getProjectInfo).accepts [] ∧
      (getProjectInfo.call 900 []).result (fun _ => .ok (.obj [("godot_version", .str "4.2")])) =
        .error (.lacksMember "str" "get") ∧
      (executeEditorScript.call 1 [("code", .str "")]).result
        (fun _ => .ok (.obj [("result", .arr [.arr []])])) = .error .tooDeep := by
  have haccepts : (schema getProjectInfo).accepts [] := by decide
  have hversion := answered_unless_malformed 900 getProjectInfo []
    (.obj [("godot_version", .str "4.2")]) haccepts
  have hdeep := answered_unless_malformed 1 executeEditorScript [("code", .str "")]
    (.obj [("result", .arr [.arr []])]) (by decide)
  exact ⟨haccepts, hversion.2 _ (.version rfl rfl rfl), hdeep.2 _ (.deep rfl rfl (by decide))⟩

end EditorTool

end EditorLink
