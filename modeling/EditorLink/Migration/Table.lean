import EditorLink.Migration.Change

/-!
# The table of changes

All known changes by category, in the order in which they are listed, searched and reported. The
table is fixed; look-ups by symbol take the first change in table order.
-/

namespace EditorLink.Migration

def tweenRedesigned : ApiChange where
  category := "tween"
  fromSymbol := some "interpolate_property"
  toSymbol := some "tween_property"
  description := "The Tween system was rewritten; method names and usage changed"
  migrationNotes :=
    "In Godot 4.x a Tween is created with create_tween() and driven with tween_property(). " ++
    "set_looped() is gone; loop with a callback instead."
  exampleBefore := some
    ("# Godot 3.x\n" ++
    "$Tween.interpolate_property(self, \"position\", start_pos, end_pos, 1.0, " ++
    "Tween.TRANS_SINE)\n" ++
    "$Tween.start()")
  exampleAfter := some
    ("# Godot 4.x\n" ++
    "var tween = create_tween()\n" ++
    "tween.tween_property(self, \"position\", end_pos, 1.0).set_trans(Tween.TRANS_SINE)")
  severity := .breaking

def setLoopedRemoved : ApiChange where
  category := "tween"
  fromSymbol := some "set_looped"
  toSymbol := some "callback_based_loop"
  description := "Tween.set_looped() was removed"
  migrationNotes := "Use tween_callback() to restart the animation and loop it"
  exampleBefore := some "# Godot 3.x\ntween.set_looped(true)"
  exampleAfter := some
    ("# Godot 4.x\n" ++
    "func animate_loop():\n" ++
    "    var tween = create_tween()\n" ++
    "    # animation steps...\n" ++
    "    tween.tween_callback(animate_loop)")
  severity := .breaking
  fix := some .setLooped

def colorAtOffsetRemoved : ApiChange where
  category := "gradient"
  fromSymbol := some "get_color_at_offset"
  toSymbol := some "get_color"
  description := "Gradient.get_color_at_offset() was removed"
  migrationNotes := "Use the index based get_color(index) and set_color(index, color)"
  exampleBefore := some "# Godot 3.x\nvar color = gradient.get_color_at_offset(0.5)"
  exampleAfter := some
    ("# Godot 4.x\n" ++
    "var color = gradient.get_color(1)  # assuming 0.5 is the second point\n" ++
    "gradient.set_color(1, new_color)")
  severity := .breaking
  fix := some .colorAtOffset

def inputAdjusted : ApiChange where
  category := "input"
  fromSymbol := some "is_action_just_pressed"
  toSymbol := some "Input.is_action_just_pressed"
  description := "The input API was adjusted slightly"
  migrationNotes := "Most input methods are unchanged, but some constants and methods moved"
  exampleBefore := some "# Godot 3.x\nif Input.is_action_just_pressed(\"ui_accept\"):"
  exampleAfter := some "# Godot 4.x\nif Input.is_action_just_pressed(\"ui_accept\"):"
  severity := .changed

def mouseButtonsRenamed : ApiChange where
  category := "input"
  fromSymbol := some "MOUSE_BUTTON_LEFT"
  toSymbol := some "MOUSE_BUTTON_LEFT"
  description := "Mouse button constants were renamed"
  migrationNotes := "InputEventMouseButton.button_index compares against MOUSE_BUTTON_* constants"
  exampleBefore := some "# Godot 3.x\nif event.button_index == BUTTON_LEFT:"
  exampleAfter := some "# Godot 4.x\nif event.button_index == MOUSE_BUTTON_LEFT:"
  severity := .changed

def getNodeStricter : ApiChange where
  category := "node"
  fromSymbol := some "get_node"
  toSymbol := some "get_node"
  description := "get_node() is unchanged but missing nodes are reported more strictly"
  migrationNotes := "Check with has_node() first, or use get_node_or_null()"
  exampleBefore := some "# Godot 3.x\nvar node = get_node(\"Path/To/Node\")"
  exampleAfter := some
    ("# Godot 4.x\n" ++
    "var node = get_node_or_null(\"Path/To/Node\")\n" ++
    "if node:\n" ++
    "    pass")
  severity := .changed

def queueFreeTiming : ApiChange where
  category := "node"
  fromSymbol := some "queue_free"
  toSymbol := some "queue_free"
  description := "queue_free() is unchanged but the call timing matters"
  migrationNotes :=
    "Do not free a node while its signal is being emitted; defer with call_deferred()"
  exampleBefore := some "# Godot 3.x\nemit_signal(\"some_signal\")\nqueue_free()"
  exampleAfter := some "# Godot 4.x\nemit_signal(\"some_signal\")\ncall_deferred(\"queue_free\")"
  severity := .changed

def connectSyntax : ApiChange where
  category := "signal"
  fromSymbol := some "connect"
  toSymbol := some "connect"
  description := "Signal connection syntax changed"
  migrationNotes := "Godot 4.x connects through the signal object and accepts callables and lambdas"
  exampleBefore := some "# Godot 3.x\nbutton.connect(\"pressed\", self, \"_on_button_pressed\")"
  exampleAfter := some
    ("# Godot 4.x\n" ++
    "button.pressed.connect(_on_button_pressed)\n" ++
    "button.pressed.connect(func(): print(\"Button pressed\"))")
  severity := .changed

def hasPropertyGone : ApiChange where
  category := "property"
  fromSymbol := some "has_property"
  toSymbol := some "direct_get_or_null_check"
  description := "has_property() does not exist in Godot 4.x"
  migrationNotes := "Call get() and compare the result with null, or scan get_property_list()"
  exampleBefore := some
    ("# Godot 3.x\n" ++
    "if node.has_property(\"custom_property\"):\n" ++
    "    value = node.get(\"custom_property\")")
  exampleAfter := some
    ("# Godot 4.x\n" ++
    "var value = node.get(\"custom_property\")\n" ++
    "if value != null:\n" ++
    "    pass")
  severity := .breaking
  fix := some .hasProperty

def colorRectDeprecated : ApiChange where
  category := "general"
  fromSymbol := some "ColorRect"
  toSymbol := some "TextureRect"
  description := "TextureRect is a better fit than ColorRect for gradient backgrounds"
  migrationNotes := "TextureRect takes a GradientTexture2D and renders gradients properly"
  exampleBefore := some
    ("# Godot 3.x\n" ++
    "var color_rect = ColorRect.new()\n" ++
    "color_rect.color = Color.BLUE")
  exampleAfter := some
    ("# Godot 4.x\n" ++
    "var texture_rect = TextureRect.new()\n" ++
    "var gradient = GradientTexture2D.new()\n" ++
    "texture_rect.texture = gradient")
  severity := .deprecated
  fix := some .colorRect

def particlesMaterialRenamed : ApiChange where
  category := "general"
  fromSymbol := some "ParticlesMaterial"
  toSymbol := some "ParticleProcessMaterial"
  description := "ParticlesMaterial was renamed and some of its properties changed"
  migrationNotes := "ParticlesMaterial is now ParticleProcessMaterial, with renamed properties"
  exampleBefore := some
    ("# Godot 3.x\n" ++
    "var material = ParticlesMaterial.new()\n" ++
    "material.initial_velocity_min = 100.0")
  exampleAfter := some
    ("# Godot 4.x\n" ++
    "var material = ParticleProcessMaterial.new()\n" ++
    "material.initial_velocity_min = 100.0")
  severity := .breaking

def explosivenessSuperseded : ApiChange where
  category := "particles"
  fromSymbol := some "explosiveness"
  toSymbol := some "direction + spread"
  description := "explosiveness is superseded by direction and spread"
  migrationNotes := "Control the emission direction and cone with direction and spread"
  exampleBefore := some "# Godot 3.x\nmaterial.explosiveness = 1.0"
  exampleAfter := some "# Godot 4.x\nmaterial.direction = Vector3.UP\nmaterial.spread = 45.0"
  severity := .breaking

def amountRenamed : ApiChange where
  category := "particles"
  fromSymbol := some "amount"
  toSymbol := some "emission_amount"
  description := "amount was renamed to emission_amount"
  migrationNotes := "ParticleProcessMaterial uses emission_amount where Godot 3.x used amount"
  exampleBefore := some "# Godot 3.x\nmaterial.amount = 50"
  exampleAfter := some "# Godot 4.x\nmaterial.emission_amount = 50"
  severity := .breaking

def scaleNamesShortened : ApiChange where
  category := "particles"
  fromSymbol := some "scale_amount_min/max"
  toSymbol := some "scale_min/max"
  description := "Scale property names were shortened"
  migrationNotes := "scale_amount_min and scale_amount_max are now scale_min and scale_max"
  exampleBefore := some
    ("# Godot 3.x\n" ++
    "material.scale_amount_min = 0.1\n" ++
    "material.scale_amount_max = 0.3")
  exampleAfter := some "# Godot 4.x\nmaterial.scale_min = 0.1\nmaterial.scale_max = 0.3"
  severity := .breaking

def shaderParameterNullable : ApiChange where
  category := "shader"
  fromSymbol := some "get_shader_parameter"
  toSymbol := some "get_shader_parameter"
  description := "get_shader_parameter() may return null; cast it before doing arithmetic"
  migrationNotes := "Cast the returned value to the expected type before using it in expressions"
  exampleBefore := some "# Godot 4.x, unsafe\nmaterial.get_shader_parameter(\"glow\") + 0.1"
  exampleAfter := some
    ("# Godot 4.x\n" ++
    "var glow = material.get_shader_parameter(\"glow\") as float\n" ++
    "glow + 0.1")
  severity := .breaking

/-- A property that moved from the particles material to the particles node. `what` says what the
property is, and `value` is the value in the examples. -/
def movedToNode (property : MaterialProperty) (value what : String) : ApiChange where
  category := "particles"
  fromSymbol := some ("material." ++ property.name)
  toSymbol := some ("particles." ++ property.nodeName)
  description := property.name ++ " must be set on the GPUParticles node, not on the material"
  migrationNotes :=
    "In Godot 4.x the " ++ what ++ " is the " ++ property.nodeName ++
    " property of the GPUParticles2D/3D node, not a ParticleProcessMaterial property"
  exampleBefore := some
    ("# Godot 3.x (or incorrect Godot 4.x usage)\n" ++
    "material." ++ property.name ++ " = " ++ value ++ "  # wrong: type mismatch")
  exampleAfter := some
    ("# Godot 4.x\n" ++
    "particles." ++ property.nodeName ++ " = " ++ value ++
    "  # set on the GPUParticles2D/3D node")
  severity := .breaking
  fix := some (.material property)

def materialMoved : MaterialProperty → ApiChange
  | .emissionAmount => movedToNode .emissionAmount "50" "particle count"
  | .lifetime => movedToNode .lifetime "2.0" "particle lifetime"
  | .oneShot => movedToNode .oneShot "true" "one-shot emission mode"
  | .randomness => movedToNode .randomness "0.5" "randomness"
  | .fixedFps => movedToNode .fixedFps "30" "fixed frame rate"

def changeTable : List (String × List ApiChange) :=
  [("tween", [tweenRedesigned, setLoopedRemoved]),
   ("gradient", [colorAtOffsetRemoved]),
   ("input", [inputAdjusted, mouseButtonsRenamed]),
   ("node", [getNodeStricter, queueFreeTiming]),
   ("signal", [connectSyntax]),
   ("property", [hasPropertyGone]),
   ("general", [colorRectDeprecated, particlesMaterialRenamed]),
   ("particles", [explosivenessSuperseded, amountRenamed, materialMoved .emissionAmount,
      scaleNamesShortened, materialMoved .lifetime, materialMoved .oneShot,
      materialMoved .randomness, materialMoved .fixedFps]),
   ("shader", [shaderParameterNullable])]

def categories : List String := changeTable.map (·.1)

def allChanges : List ApiChange := changeTable.flatMap (·.2)

def breakingChanges : List ApiChange := allChanges.filter (·.severity = .breaking)

/-- The first change whose old or new symbol is the given one. -/
def findChange? (symbol : String) : Option ApiChange :=
  allChanges.find? fun change => change.fromSymbol == some symbol || change.toSymbol == some symbol

def changesOfCategory (category : String) : List ApiChange :=
  (changeTable.lookup category).getD []

def adviceLines : List String :=
  ["Major change: the Tween system was rewritten",
   "Major change: the input API was adjusted",
   "Major change: the Gradient API was updated",
   "Recommendation: use get_node_or_null() for safe node access",
   "Recommendation: use call_deferred(\"queue_free\") to free nodes",
   "Recommendation: update signal connections to the callable syntax"]

/-- Advice is known for a move from a 3.x release to a 4.x release. -/
def migrationAdvice (source target : String) : List String :=
  if "3.".isPrefixOf source && "4.".isPrefixOf target then adviceLines else []

end EditorLink.Migration
