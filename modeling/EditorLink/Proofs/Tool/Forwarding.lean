import EditorLink.Proofs.Project.Memory
import EditorLink.Proofs.Tool.EditorReplies
import EditorLink.Server

/-!
# Commands that tools send

A call of an editor tool with accepted arguments sends one command with the tool's own name, which
holds every required argument as it was given; a failure of the command is told behind the tool's
words for it, or passed on when the link is not its cause. Through the server, a call sends what the
tool sends, and nothing when no tool has the name or the arguments are not accepted.
-/

namespace EditorLink

namespace EditorTool

open Tool

/-! ## Calls of editor tools -/

/-- A call sends one command with the tool's name and all required arguments, whatever the editor
answers. A failure of the link is told to the agent, any other failure is passed on. -/
def Forwards (room : Nat) (tool : EditorTool) (arguments : Fields) : Prop :=
  ∃ params, Carries tool arguments params ∧ ∀ editor,
    (tool.call room arguments).sent editor = [⟨tool.name, params⟩] ∧
      (∀ kind message, editor ⟨tool.name, params⟩ = .error (.link kind message) →
        (tool.call room arguments).result editor =
          .error (.failed (tool.failure ++ ": " ++ message))) ∧
      ∀ name message, editor ⟨tool.name, params⟩ = .error (.foreign name message) →
        (tool.call room arguments).result editor = .error (.foreign name message)

/-- A call sends nothing: it gives a script template, or tells that no script is named. -/
def SendsNothing (room : Nat) (tool : EditorTool) (arguments : Fields) : Prop :=
  (∀ editor, (tool.call room arguments).sent editor = []) ∧
    (tool = createScriptTemplate →
      ∃ text, ∀ editor, (tool.call room arguments).result editor = .ok text) ∧
    (tool = getScript → ∀ editor, (tool.call room arguments).result editor =
      .error (.failed "Either script_path or node_path must be provided"))

variable {room : Nat} {tool : EditorTool} {arguments : Fields}

theorem forwards_of_accepts (h : tool.schema.accepts arguments)
    (halone : ¬ AnswersAlone tool arguments) : Forwards room tool arguments := by
  obtain ⟨params, tell, hwork, hcarries, -⟩ := asks_of_accepts room h halone
  refine ⟨params, hcarries, fun editor => ?_⟩
  rw [call, hwork]
  refine ⟨sent_send_bind editor, ?_, ?_⟩
  · intro kind message hfailure
    rw [result_send_bind, hfailure]
    rfl
  · intro name message hfailure
    rw [result_send_bind, hfailure]
    rfl

theorem sendsNothing_of_alone (h : AnswersAlone tool arguments) :
    SendsNothing room tool arguments := by
  obtain ⟨told, hcall, -⟩ := call_alone room h
  refine ⟨fun editor => by rw [hcall]; rfl, ?_, ?_⟩
  · rintro rfl
    exact ⟨_, fun editor => rfl⟩
  · rintro rfl editor
    rw [call_getScript_alone h]
    rfl

/-- A tool looks for no argument that may be missing. -/
theorem result_ne_missingArgument (h : tool.schema.accepts arguments) (editor : Exchange.Editor)
    (key : String) : (tool.call room arguments).result editor ≠ .error (.missingArgument key) := by
  by_cases halone : AnswersAlone tool arguments
  · obtain ⟨told, hcall, htold⟩ := call_alone room halone
    rw [hcall]
    rcases htold with ⟨text, rfl⟩ | ⟨message, rfl⟩ <;> simp
  · obtain ⟨params, tell, hwork, -, hfault⟩ := asks_of_accepts room h halone
    rw [call, hwork, result_send_bind]
    cases editor ⟨tool.name, params⟩ with
    | error failure => cases failure <;> simp [failureFault]
    | ok reply =>
      intro htold
      rcases ((hfault _ _).mp htold).fault_cases with ⟨kind, hkind⟩ | ⟨kind, member, hkind⟩ | hkind
      all_goals cases hkind

end EditorTool

/-! ## Calls through the server -/

namespace AnyTool

theorem ofName?_name (tool : AnyTool) : ofName? tool.name = some tool := by
  rcases tool with tool | tool <;> cases tool <;> decide +kernel

theorem name_of_ofName? {name : String} {tool : AnyTool} (h : ofName? name = some tool) :
    tool.name = name := by
  simpa using List.find?_some h

end AnyTool

namespace Server

open Project

variable {room : Nat} {files : Files} {detector : Detector} {arguments : Fields}

theorem sent_callTool {tool : AnyTool} (h : tool.schema.accepts arguments)
    (editor : Exchange.Editor) :
    (callTool room files detector tool.name arguments).1.sent editor =
      (tool.call room files detector arguments).1.sent editor := by
  have haccepts : tool.schema.violation? arguments = none := Option.isNone_iff_eq_none.mp h
  simp only [callTool, AnyTool.ofName?_name, haccepts, Exchange.sent_map]

theorem sent_callTool_eq_nil {name : String}
    (h : ∀ tool : AnyTool, tool.name = name → ¬ tool.schema.accepts arguments)
    (editor : Exchange.Editor) :
    (callTool room files detector name arguments).1.sent editor = [] := by
  rw [callTool]
  cases hfound : AnyTool.ofName? name with
  | none => rfl
  | some tool =>
    have hrefused := h tool (AnyTool.name_of_ofName? hfound)
    cases hviolation : tool.schema.violation? arguments with
    | none => exact absurd (Option.isNone_iff_eq_none.mpr hviolation) hrefused
    | some violation => simp only [hviolation, Exchange.sent_pure]

/-- Every call of an editor tool with accepted arguments forwards them in one command, unless the
tool answers without the editor; and the server lets no other calls through to the editor. -/
theorem accepted_calls_forwarded_once (room : Nat) :
    (∀ (tool : EditorTool) (arguments : Fields), tool.schema.accepts arguments →
      (∀ editor key,
        (tool.call room arguments).result editor ≠ .error (.missingArgument key)) ∧
      (¬ tool.AnswersAlone arguments → tool.Forwards room arguments) ∧
      (tool.AnswersAlone arguments → tool.SendsNothing room arguments)) ∧
    (∀ files detector (tool : AnyTool) arguments editor, tool.schema.accepts arguments →
      (callTool room files detector tool.name arguments).1.sent editor =
        (tool.call room files detector arguments).1.sent editor) ∧
    ∀ files detector name arguments editor,
      (∀ tool : AnyTool, tool.name = name → ¬ tool.schema.accepts arguments) →
      (callTool room files detector name arguments).1.sent editor = [] := by
  refine ⟨?_, ?_, ?_⟩
  · intro tool arguments h
    exact ⟨EditorTool.result_ne_missingArgument h, EditorTool.forwards_of_accepts h,
      EditorTool.sendsNothing_of_alone⟩
  · intro files detector tool arguments editor h
    exact sent_callTool h editor
  · intro files detector name arguments editor h
    exact sent_callTool_eq_nil h editor

/-- Arguments for a new node. -/
def nodeArguments : Fields :=
  [("parent_path", .str "/root"), ("node_type", .str "Node2D"), ("node_name", .str "Player")]

/-- A command that the link fails is told with the tool's words; a script that nothing names is not
asked for; a name that no tool has, and arguments that miss a required one, send nothing. -/
theorem accepted_calls_forwarded_once_failingLink :
    let editor : Exchange.Editor := fun _ => .error (.link .connectionClosed "gone")
    (EditorTool.schema .createNode).accepts nodeArguments ∧
      (EditorTool.call 900 .createNode nodeArguments).result editor =
        .error (.failed "Failed to create node: gone") ∧
      (EditorTool.schema .getScript).accepts [("script_path", .str "")] ∧
      (EditorTool.call 900 .getScript [("script_path", .str "")]).sent editor = [] ∧
      (callTool 900 noFiles rootDetector "create_node" nodeArguments).1.sent editor ≠ [] ∧
      (callTool 900 noFiles rootDetector "create_nodes" nodeArguments).1.sent editor = [] ∧
      (callTool 900 noFiles rootDetector "create_node" []).1.sent editor = [] := by
  intro editor
  have hnode : (EditorTool.schema .createNode).accepts nodeArguments := by decide
  have hscript : (EditorTool.schema .getScript).accepts [("script_path", .str "")] := by decide
  have hunnamed : ∀ tool : AnyTool, tool.name = "create_nodes" →
      ¬ tool.schema.accepts nodeArguments := by
    rintro (tool | tool) <;> cases tool <;> decide
  have hmissing : ∀ tool : AnyTool, tool.name = "create_node" → ¬ tool.schema.accepts [] := by
    rintro (tool | tool) <;> cases tool <;> decide
  obtain ⟨hcalls, hserved, hrefused⟩ := accepted_calls_forwarded_once 900
  obtain ⟨-, hforwards, -⟩ := hcalls .createNode nodeArguments hnode
  obtain ⟨params, -, hfailures⟩ := hforwards (by rintro (h | ⟨h, -⟩) <;> cases h)
  obtain ⟨hsent, htold, -⟩ := hfailures editor
  obtain ⟨-, -, hnothing⟩ := hcalls .getScript [("script_path", .str "")] hscript
  have hserver : (callTool 900 noFiles rootDetector "create_node" nodeArguments).1.sent editor ≠
      [] := by
    intro hnil
    have hsame := hserved noFiles rootDetector (.editor .createNode) nodeArguments editor hnode
    cases hsent.symm.trans (hsame.symm.trans hnil)
  exact ⟨hnode, htold .connectionClosed "gone" rfl, hscript,
    (hnothing (.inr ⟨rfl, by decide, by decide⟩)).1 editor, hserver,
    hrefused _ _ "create_nodes" nodeArguments editor hunnamed,
    hrefused _ _ "create_node" [] editor hmissing⟩

end Server

end EditorLink
