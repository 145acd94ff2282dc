import ArrayForks.Syntax.Contents
import ArrayForks.Proofs.DecimalLength
import ArrayForks.Proofs.Everywhere

/-! # The length of the text of expressions

A text within the budget stays, and the short form that another one gives way to leaves out the
parts of the node, which keeps it within the budget as well: what is left of the node is its
operators, or a name. A call alone keeps a part in its short form, the text of its callee. So the
budget holds but for calls whose callee leaves fewer than three characters of it, and it is exceeded
by three characters at most for each of the calls in a row.

* **`length_contents_le_of_not_call`**: `node.contents.length ≤ contentsBudget` for all
  expressions with short names but calls.
* **`budget_lt_length_call`**: a call exceeds the budget exactly if its full text does and
  `contentsBudget < callee.contents.length + 3`.
* **`length_contents_le`**: `node.contents.length ≤ contentsBudget + 3 * node.callsInRow`. -/

namespace ArrayForks

/-! ### Choosing the short form -/

variable {text short : String}

/-- A text is too long only if the short form is too. -/
theorem budget_lt_length_budgeted :
    contentsBudget < (budgeted text short).length ↔
      contentsBudget < text.length ∧ contentsBudget < short.length := by
  unfold budgeted
  split <;> omega

/-- A text with a short form within the budget is brought within the budget. -/
theorem length_budgeted_le (shortFits : short.length ≤ contentsBudget) :
    (budgeted text short).length ≤ contentsBudget := by
  unfold budgeted
  split <;> assumption

/-! ### Operators -/

/-- The sign of a diadic operator has two characters at the most. -/
theorem DiadicOp.length_glyph_le (op : DiadicOp) : op.glyph.length ≤ 2 := by
  rcases op with op | op | op | _ <;> first | cases op <;> decide | decide

/-- The sign of a monadic operator has two characters at the most. -/
theorem MonadicOp.length_glyph_le (op : MonadicOp) : op.glyph.length ≤ 2 := by
  rcases op with op | op | op | _ | _ <;> first | cases op <;> decide | decide

/-- Three operators, two blanks and the parentheses. -/
theorem length_fork_le {left middle right : String} (leftFits : left.length ≤ 2)
    (middleFits : middle.length ≤ 2) (rightFits : right.length ≤ 2) :
    ("(" ++ left ++ " " ++ middle ++ " " ++ right ++ ")").length ≤ 10 := by
  simp only [String.length_append]
  change 1 + left.length + 1 + middle.length + 1 + right.length + 1 ≤ 10
  omega

/-- The three signs of a fork in brackets have ten characters at the most. -/
theorem MonadicFork.length_glyphs_le (fork : MonadicFork) : fork.glyphs.length ≤ 10 :=
  length_fork_le fork.left.length_glyph_le fork.middle.length_glyph_le fork.right.length_glyph_le

/-- The three signs of a fork in brackets have ten characters at the most. -/
theorem DiadicFork.length_glyphs_le (fork : DiadicFork) : fork.glyphs.length ≤ 10 :=
  length_fork_le fork.left.length_glyph_le fork.middle.length_glyph_le fork.right.length_glyph_le

/-- A sign between two parts that are left out. -/
theorem length_between_le {sign : String} (signFits : sign.length ≤ 10) :
    ("(?) " ++ sign ++ " (?)").length ≤ contentsBudget := by
  simp only [String.length_append]
  change 4 + sign.length + 4 ≤ 50
  omega

/-- A sign before a part that is left out. -/
theorem length_before_le {sign : String} (signFits : sign.length ≤ 10) :
    (sign ++ " (?)").length ≤ contentsBudget := by
  rw [String.length_append]
  change sign.length + 4 ≤ 50
  omega

namespace Node

/-! ### Expressions with short names -/

/-- The greatest number of characters of a name or a number that counts as short. -/
def wordLimit : Nat := 40

/-- An expression whose own name or number is short. Doubles are always written shortly, and texts
are left out when they are long. -/
def IsTerse : Node → Prop
  | .int _ value => (toString value).length ≤ wordLimit
  | .reference _ name | .field _ _ name => name.length ≤ wordLimit
  | .constructor _ of => of.name.length ≤ wordLimit
  | .float _ _ | .string _ _ | .null _ | .array _ _ | .paren _ _ | .index _ _ _ | .call _ _ _
  | .diadic _ _ _ _ | .monadic _ _ _ | .monadicFork _ _ _ | .diadicFork _ _ _ _
  | .assign _ _ _ => True
  | _ => False

/-- The text of a call in which nothing of its own is left out. -/
def callText (callee : Node) (arguments : List Node) : String :=
  callee.contents ++ "(" ++ ", ".intercalate (arguments.map contents) ++ ")"

/-- The number of calls in a row, each one the callee of the one before. -/
def callsInRow : Node → Nat
  | .call _ callee _ => callee.callsInRow + 1
  | _ => 0

variable {node : Node}

/-- A call is written with its callee and its arguments, or else with its callee only. -/
theorem contents_call (id : NodeId) (callee : Node) (arguments : List Node) :
    (Node.call id callee arguments).contents =
      budgeted (callText callee arguments) (callee.contents ++ "(?)") := by
  simp only [contents, render, renderAll_eq_map, callText]
  rfl

/-- A call that is too long in full keeps the text of its callee. -/
theorem contents_call_of_long {callee : Node} {arguments : List Node}
    (long : contentsBudget < (callText callee arguments).length) (id : NodeId) :
    (Node.call id callee arguments).contents = callee.contents ++ "(?)" := by
  rw [contents_call, budgeted, if_neg (Nat.not_le_of_lt long)]

/-- All expressions but calls are within the budget, whatever stands within them. -/
theorem length_contents_le_of_not_call (terse : node.IsTerse)
    (notCall : ∀ id callee arguments, node ≠ .call id callee arguments) :
    node.contents.length ≤ contentsBudget := by
  -- What is left of a node in its short form is its name, of forty characters at the most, or its
  -- operators.
  cases node with
  | call id callee arguments => exact absurd rfl (notCall id callee arguments)
  | int id value => exact le_trans terse (by decide)
  | float id value => exact le_trans (Decimal.length_text_le value) (by decide)
  | reference id name => exact le_trans terse (by decide)
  | constructor id of =>
      have := show of.name.length ≤ 40 from terse
      rw [contents, render, String.length_append]
      change 1 + of.name.length ≤ 50
      omega
  | field id stem name =>
      have := show name.length ≤ 40 from terse
      refine length_budgeted_le ?_
      rw [String.length_append]
      change 4 + name.length ≤ 50
      omega
  | diadic id left op right =>
      exact length_budgeted_le (length_between_le (le_trans op.length_glyph_le (by decide)))
  | monadic id op operand =>
      exact length_budgeted_le (length_before_le (le_trans op.length_glyph_le (by decide)))
  | monadicFork id fork operand =>
      exact length_budgeted_le (length_before_le fork.length_glyphs_le)
  | diadicFork id left fork right =>
      exact length_budgeted_le (length_between_le fork.length_glyphs_le)
  | null id => exact (by decide : "null".length ≤ contentsBudget)
  | string | array | paren | index | assign => exact length_budgeted_le (by decide)
  | _ => exact terse.elim

/-- A call is too long if and only if it would be so both in full and in short. -/
theorem budget_lt_length_call (id : NodeId) (callee : Node) (arguments : List Node) :
    contentsBudget < (Node.call id callee arguments).contents.length ↔
      contentsBudget < (callText callee arguments).length ∧
        contentsBudget < callee.contents.length + 3 := by
  rw [contents_call, budget_lt_length_budgeted, String.length_append]
  rfl

/-- A call in short form is three characters longer than its callee. -/
theorem length_contents_call_le (id : NodeId) (callee : Node) (arguments : List Node) :
    (Node.call id callee arguments).contents.length ≤
      max contentsBudget (callee.contents.length + 3) := by
  rcases Nat.lt_or_ge contentsBudget (callText callee arguments).length with long | fits
  · rw [contents_call_of_long long, String.length_append]
    exact le_max_right _ _
  · rw [contents_call, budgeted, if_pos fits]
    exact le_max_of_le_left fits

/-- The text of an expression exceeds the budget by no more than the calls in a row need. -/
theorem length_contents_le (terse : node.Everywhere IsTerse) :
    node.contents.length ≤ contentsBudget + 3 * node.callsInRow := by
  -- Short forms leave out all other parts, so the induction follows the callees alone.
  induction node using callsInRow.induct with
  | case1 id callee arguments inductionHypothesis =>
      have calleeFits := inductionHypothesis (terse.first rfl)
      have callFits := length_contents_call_le id callee arguments
      rw [callsInRow]
      omega
  | case2 node notCall =>
      exact Nat.le_add_right_of_le (length_contents_le_of_not_call terse.here notCall)

/-! ### The budget -/

/-- **What exceeds the budget.** In an expression with short names and numbers, at any depth and
width,

`contentsBudget < node.contents.length`

if and only if the expression is a call with a text that is too long in full, and its callee leaves
fewer than three characters. Then `node.contents = callee.contents ++ "(?)"`. In any case
`node.contents.length ≤ contentsBudget + 3 * node.callsInRow`. -/
theorem contents_exceeds_budget_iff (terse : node.Everywhere IsTerse) :
    (contentsBudget < node.contents.length ↔
      ∃ id callee arguments, node = .call id callee arguments ∧
        contentsBudget < (callText callee arguments).length ∧
        contentsBudget < callee.contents.length + 3 ∧
        node.contents = callee.contents ++ "(?)") ∧
    node.contents.length ≤ contentsBudget + 3 * node.callsInRow := by
  refine ⟨⟨fun exceeds => ?_, ?_⟩, length_contents_le terse⟩
  · by_contra noSuchCall
    refine absurd (length_contents_le_of_not_call terse.here ?_) (not_le.mpr exceeds)
    rintro id callee arguments rfl
    obtain ⟨long, tight⟩ := (budget_lt_length_call id callee arguments).mp exceeds
    exact noSuchCall ⟨id, callee, arguments, rfl, long, tight, contents_call_of_long long id⟩
  · rintro ⟨id, callee, arguments, rfl, long, tight, -⟩
    exact (budget_lt_length_call id callee arguments).mpr ⟨long, tight⟩

/-- A function with a name of forty letters is called with a number. The text of the call is exactly
within the budget. -/
def tightCall : Node :=
  .call 1 (.reference 2 "aaaaaaaaaaaaaaaaaaaaaaaaaaaaaaaaaaaaaaaa") [.int 3 12345678]

/-- The result of that call is called. -/
def curriedCall : Node :=
  .call 0 tightCall []

/-- The names and numbers of the example are short. -/
theorem curriedCall_terse : curriedCall.Everywhere IsTerse := by
  have name : (Node.reference 2 "aaaaaaaaaaaaaaaaaaaaaaaaaaaaaaaaaaaaaaaa").Everywhere IsTerse :=
    .intro (by unfold IsTerse; decide) (List.forall_mem_nil _)
  have number : (Node.int 3 12345678).Everywhere IsTerse :=
    .intro (by unfold IsTerse; decide) (List.forall_mem_nil _)
  have callee : tightCall.Everywhere IsTerse :=
    .intro trivial (List.forall_mem_cons.mpr ⟨name, List.forall_mem_singleton.mpr number⟩)
  exact .intro trivial (List.forall_mem_singleton.mpr callee)

/-- The second call is beyond the budget, for its short form keeps the first one. -/
theorem contents_exceeds_budget_curried :
    contentsBudget < curriedCall.contents.length ∧
      curriedCall.contents.length ≤ contentsBudget + 3 * curriedCall.callsInRow := by
  obtain ⟨exceeds, bounded⟩ := contents_exceeds_budget_iff curriedCall_terse
  have long : contentsBudget < (callText tightCall []).length := by decide +kernel
  have tight : contentsBudget < tightCall.contents.length + 3 := by decide +kernel
  exact ⟨exceeds.mpr ⟨0, tightCall, [], rfl, long, tight, contents_call_of_long long 0⟩, bounded⟩

/-- An expression with short names and numbers has a text of fifty-three characters: the short form
of the second call keeps the whole text of the first one. -/
theorem curriedCall_beyond_budget :
    curriedCall.Everywhere IsTerse ∧
      curriedCall.contents = "aaaaaaaaaaaaaaaaaaaaaaaaaaaaaaaaaaaaaaaa(12345678)(?)" ∧
      curriedCall.contents.length = contentsBudget + 3 :=
  ⟨curriedCall_terse, by decide +kernel, by decide +kernel⟩

end Node

end ArrayForks
