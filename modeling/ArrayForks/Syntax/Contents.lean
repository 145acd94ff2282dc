import ArrayForks.Syntax.Node

/-! # The text of nodes

Messages name a node by a short text in the form of the program. A text of more than fifty
characters gives way to a shorter one in which the parts of the node are left out as `(?)`; each
part decides this for itself before its text becomes part of a longer one. `render` writes a node
given the rule for choosing between the text and its short form, `contents` by that rule, and
`fullText` without ever shortening. -/

namespace ArrayForks

/-- The greatest number of characters of a text that is not shortened. -/
def contentsBudget : Nat := 50

/-- The text itself if it is within the budget, and its short form otherwise. -/
def budgeted (text short : String) : String :=
  if text.length ≤ contentsBudget then text else short

namespace Node

mutual

/-- The text of a node, with `choose text short` in the place of a text that has a short form. The text
of an integer literal is total, `toString value`: a limit that a host sets on the number of digits it
prints is left out. -/
def render (choose : String → String → String) : Node → String
  | .int _ value => toString value
  | .float _ value => Decimal.text value
  | .string _ value => choose ("\"" ++ value ++ "\"") "\"(?)\""
  | .null _ => "null"
  | .reference _ name => name
  | .constructor _ of => "$" ++ of.name
  | .array _ items => choose ("[" ++ ", ".intercalate (renderAll choose items) ++ "]") "[(?)]"
  | .paren _ inner => choose ("(" ++ inner.render choose ++ ")") "(?)"
  | .field _ stem name => choose (stem.render choose ++ "." ++ name) ("(?)." ++ name)
  | .index _ stem position =>
      choose (stem.render choose ++ "[" ++ position.render choose ++ "]") "(?)[(?)]"
  | .call _ callee arguments =>
      let function := callee.render choose
      choose (function ++ "(" ++ ", ".intercalate (renderAll choose arguments) ++ ")")
        (function ++ "(?)")
  | .diadic _ left op right =>
      choose (left.render choose ++ " " ++ op.glyph ++ " " ++ right.render choose)
        ("(?) " ++ op.glyph ++ " (?)")
  | .monadic _ op operand =>
      choose (op.glyph ++ " " ++ operand.render choose) (op.glyph ++ " (?)")
  | .monadicFork _ fork operand =>
      choose (fork.glyphs ++ " " ++ operand.render choose) (fork.glyphs ++ " (?)")
  | .diadicFork _ left fork right =>
      choose (left.render choose ++ " " ++ fork.glyphs ++ " " ++ right.render choose)
        ("(?) " ++ fork.glyphs ++ " (?)")
  | .assign _ target source =>
      choose (target.render choose ++ " = " ++ source.render choose) "(?) = (?)"
  | .block _ body => if body.isEmpty then "\x7b\x7d" else "\x7b ... \x7d"
  | .variable _ name initial =>
      choose ("var " ++ name ++ " = " ++ initial.render choose) ("var " ++ name ++ " = (?)")
  | .expression _ inner => inner.render choose
  | .branch _ condition _ _ =>
      choose ("if " ++ condition.render choose ++ " ...") "if (?) ..."
  | .loop _ condition _ =>
      choose ("while " ++ condition.render choose ++ " ...") "while (?) ..."
  | .return _ none => "return"
  | .return _ (some result) => choose ("return " ++ result.render choose) "return (?)"
  | .function _ name parameters _ =>
      "fun " ++ name ++ "(" ++ ", ".intercalate parameters ++ ")"
  | .struct _ name _ => "struct " ++ name
  | .parameter _ name => name
  | .fieldDeclaration _ name => "var " ++ name
  | .root _ _ => "<root>"

/-- The texts of nodes. -/
def renderAll (choose : String → String → String) : List Node → List String
  | [] => []
  | node :: nodes => node.render choose :: renderAll choose nodes

end

/-- The texts of nodes are those of the nodes one by one. -/
theorem renderAll_eq_map (choose : String → String → String) (nodes : List Node) :
    renderAll choose nodes = nodes.map fun node => node.render choose := by
  induction nodes with
  | nil => rfl
  | cons node nodes inductionHypothesis => rw [renderAll, inductionHypothesis, List.map_cons]

/-- The text of a node in messages. -/
def contents (node : Node) : String :=
  node.render budgeted

/-- The text of a node at its full length. -/
def fullText (node : Node) : String :=
  node.render fun text _ => text

end Node

end ArrayForks
