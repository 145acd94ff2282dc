import ArrayForks.Proofs.ContentsBudget

/-! # Texts that fit

The text of a node is put together from the texts of nodes within it, and each of these texts may
have given way to its short form before. It does not as long as the text of the whole fits. For in a
text that is never shortened all parts are written out, so none of them is longer than the whole; and
a text whose parts are all written out gives way only if it is too long itself.

* **`Node.shownParts`** are the nodes whose texts a text contains, and **`Node.Shows`** is its
  closure.
* **`Shows.length_fullText_le`**: `part.fullText.length ≤ node.fullText.length`.
* **`contents_eq_fullText`**: `node.contents = node.fullText` if the latter is within the budget. -/

namespace ArrayForks

/-- A text that is within the budget does not give way. -/
theorem budgeted_of_fits {text : String} (fits : text.length ≤ contentsBudget) (short : String) :
    budgeted text short = text :=
  if_pos fits

/-- Each of some texts is no longer than all of them in a row. -/
theorem length_le_length_intercalate (sign : String) {text : String} {texts : List String}
    (isIn : text ∈ texts) : text.length ≤ (sign.intercalate texts).length := by
  induction texts with
  | nil => cases isIn
  | cons first others inductionHypothesis =>
      cases others with
      | nil => exact Nat.le_of_eq (by rw [List.mem_singleton.mp isIn, String.intercalate_singleton])
      | cons second others =>
          rw [String.intercalate_cons_cons, String.length_append, String.length_append]
          rcases List.mem_cons.mp isIn with rfl | later
          · omega
          · have := inductionHypothesis later
            omega

namespace Node

/-! ### Parts that a text shows -/

/-- The nodes right within a node whose texts are part of its text. A constructor shows the name of
its type alone, a choice or loop its condition, and a block or a declaration nothing of its
statements. -/
def shownParts : Node → List Node
  | .array _ items => items
  | .paren _ inner | .field _ inner _ | .monadic _ _ inner | .monadicFork _ _ inner
  | .variable _ _ inner | .expression _ inner | .return _ (some inner) => [inner]
  | .index _ left right | .diadic _ left _ right | .diadicFork _ left _ right
  | .assign _ left right => [left, right]
  | .call _ callee arguments => callee :: arguments
  | .branch _ condition _ _ | .loop _ condition _ => [condition]
  | _ => []

/-- A node shows another one in its text, at any depth. -/
inductive Shows : Node → Node → Prop where
  /-- It shows itself. -/
  | whole (node : Node) : Shows node node
  /-- It shows what its parts show. -/
  | within {node part inner : Node} (isPart : part ∈ node.shownParts) (shows : Shows part inner) :
      Shows node inner

variable {node part : Node}

/-- The parts that a text shows are nodes right within the node. -/
theorem mem_children_of_mem_shownParts (isPart : part ∈ node.shownParts) :
    part ∈ node.children := by
  cases node with
  | «return» id result => cases result <;> exact isPart
  | branch id condition accepted rejected =>
      rw [List.mem_singleton.mp isPart]
      cases rejected <;> exact List.mem_cons_self
  | loop id condition body => exact List.mem_cons.mpr (.inl (List.mem_singleton.mp isPart))
  | constructor | block | function | root => cases isPart
  | _ => exact isPart

/-! ### Texts in full -/

/-- The texts of nodes in a row, in full. -/
def fullRow (nodes : List Node) : String :=
  ", ".intercalate (nodes.map fullText)

/-- A row is no shorter than any node in it. -/
theorem length_fullText_le_fullRow {nodes : List Node} (isIn : part ∈ nodes) :
    part.fullText.length ≤ (fullRow nodes).length :=
  length_le_length_intercalate ", " (List.mem_map_of_mem isIn)

/-- `"[" ++ fullRow items ++ "]"`. -/
theorem fullText_array (id : NodeId) (items : List Node) :
    (Node.array id items).fullText = "[" ++ fullRow items ++ "]" := by
  simp only [fullText, render, renderAll_eq_map, fullRow]
  rfl

/-- `callee.fullText ++ "(" ++ fullRow arguments ++ ")"`. -/
theorem fullText_call (id : NodeId) (callee : Node) (arguments : List Node) :
    (Node.call id callee arguments).fullText = callee.fullText ++ "(" ++ fullRow arguments ++ ")" := by
  simp only [fullText, render, renderAll_eq_map, fullRow]
  rfl

/-- In full, no part is longer than the whole. -/
theorem length_fullText_le_of_mem (isPart : part ∈ node.shownParts) :
    part.fullText.length ≤ node.fullText.length := by
  -- Each text is the texts of its parts with something between them.
  cases node with
  | array id items =>
      have : part.fullText.length ≤ (fullRow items).length := length_fullText_le_fullRow isPart
      rw [fullText_array, String.length_append, String.length_append]
      omega
  | call id callee arguments =>
      rw [fullText_call]
      simp only [String.length_append]
      rcases List.mem_cons.mp isPart with rfl | isArgument
      · omega
      · have := length_fullText_le_fullRow isArgument
        omega
  | paren | field | monadic | monadicFork | «variable» | branch | loop =>
      rw [List.mem_singleton.mp isPart]
      simp only [fullText, render, String.length_append]
      omega
  | index | diadic | diadicFork | assign =>
      rcases List.mem_pair.mp isPart with rfl | rfl <;>
        simp only [fullText, render, String.length_append] <;> omega
  | expression id inner => exact Nat.le_of_eq (by rw [List.mem_singleton.mp isPart]; rfl)
  | «return» id result =>
      cases result with
      | none => cases isPart
      | some result =>
          rw [List.mem_singleton.mp isPart]
          simp only [fullText, render, String.length_append]
          omega
  | _ => cases isPart

/-- In full, nothing that is shown is longer than the whole. -/
theorem Shows.length_fullText_le (shows : node.Shows part) :
    part.fullText.length ≤ node.fullText.length := by
  induction shows with
  | whole node => exact le_rfl
  | within isPart shows inductionHypothesis =>
      exact le_trans inductionHypothesis (length_fullText_le_of_mem isPart)

/-! ### Nothing is left out -/

/-- A text that fits in full is written out if those of its parts are. -/
theorem contents_eq_fullText_of_parts
    (parts : ∀ part ∈ node.shownParts, part.contents = part.fullText)
    (fits : node.fullText.length ≤ contentsBudget) : node.contents = node.fullText := by
  cases node with
  | string => exact budgeted_of_fits fits _
  -- A row of parts is replaced at once, single parts one by one.
  | array id items =>
      have same : items.map contents = items.map fullText := List.map_congr_left parts
      rw [contents, render, renderAll_eq_map]
      change budgeted ("[" ++ ", ".intercalate (items.map contents) ++ "]") _ = _
      rw [same]
      rw [fullText_array] at fits ⊢
      exact budgeted_of_fits fits _
  | call id callee arguments =>
      have ofCallee := parts callee List.mem_cons_self
      have same : arguments.map contents = arguments.map fullText :=
        List.map_congr_left fun part isIn => parts part (List.mem_cons_of_mem _ isIn)
      rw [contents_call, callText, ofCallee, same]
      rw [fullText_call] at fits ⊢
      exact budgeted_of_fits fits _
  | paren | field | monadic | monadicFork | «variable» | branch | loop =>
      have same := parts _ List.mem_cons_self
      rw [contents, fullText] at same
      rw [contents, render, same]
      exact budgeted_of_fits fits _
  | index | diadic | diadicFork | assign =>
      have first := parts _ List.mem_cons_self
      have second := parts _ (List.mem_cons_of_mem _ List.mem_cons_self)
      rw [contents, fullText] at first second
      rw [contents, render, first, second]
      exact budgeted_of_fits fits _
  | expression id inner => exact parts inner List.mem_cons_self
  | «return» id result =>
      cases result with
      | none => rfl
      | some result =>
          have same := parts _ List.mem_cons_self
          rw [contents, fullText] at same
          rw [contents, render, same]
          exact budgeted_of_fits fits _
  | _ => rfl

/-- A text that fits in full is written out. -/
theorem contents_eq_fullText (node : Node) (fits : node.fullText.length ≤ contentsBudget) :
    node.contents = node.fullText :=
  contents_eq_fullText_of_parts
    (fun part isPart =>
      have _ := sizeOf_child_lt node part (mem_children_of_mem_shownParts isPart)
      contents_eq_fullText part (le_trans (length_fullText_le_of_mem isPart) fits))
    fits
termination_by sizeOf node

/-- **Nothing is left out of a text that fits.** If `node.fullText.length ≤ contentsBudget`, then
`node.contents = node.fullText`, and `part.contents = part.fullText` for every node that it `Shows`,
at whatever depth. -/
theorem nothing_left_out_of_fits (fits : node.fullText.length ≤ contentsBudget) :
    node.contents = node.fullText ∧ ∀ part, node.Shows part → part.contents = part.fullText :=
  ⟨contents_eq_fullText node fits, fun part shows =>
    contents_eq_fullText part (le_trans shows.length_fullText_le fits)⟩

/-- The sum of a cost and two, in parentheses. -/
def costSum : Node :=
  .paren 3 (.monadic 4 (.fold .sum) (.array 5 [.reference 6 "cost", .int 7 2]))

/-- A loop that compares the sum with a field of an element of an array. -/
def thriftyLoop : Node :=
  .loop 1
    (.diadic 2 costSum (.comparison .lower)
      (.field 8 (.index 9 (.reference 10 "limits")
        (.call 11 (.reference 12 "place") [.reference 13 "name"])) "top"))
    (.block 14 [])

/-- The loop takes exactly fifty characters in full. Nothing of its condition is left out, nor of what
is deep within. -/
theorem nothing_left_out_of_fits_exactly :
    thriftyLoop.fullText = "while (+/ [cost, 2]) < limits[place(name)].top ..." ∧
      thriftyLoop.fullText.length = contentsBudget ∧
      thriftyLoop.contents = thriftyLoop.fullText ∧ costSum.contents = costSum.fullText := by
  have exactly : thriftyLoop.fullText.length = contentsBudget := by decide +kernel
  obtain ⟨whole, inside⟩ := nothing_left_out_of_fits exactly.le
  have shown : thriftyLoop.Shows costSum :=
    .within List.mem_cons_self (.within List.mem_cons_self (.whole costSum))
  exact ⟨by decide +kernel, exactly, whole, inside costSum shown⟩

end Node

end ArrayForks
