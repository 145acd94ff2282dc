/-! # Nested rows

Items laid out in rows, which may lie in rows themselves. The numbers of an operand are laid out in
this way, and so are the values of an array that has just been computed. Two layouts come together
item by item once they are of one shape: the shallower one is put into rows of its own as often as
it is shallower, and a row of a single part is repeated along the row that it meets.

* **`Nested α`** is an item or a row, and **`ofList`** a row of single items.
* **`left.pairs? right`** brings two layouts together, if that is possible.
* **`right.isSpreadOver left`**: a single item on the right meets several on the left. -/

namespace ArrayForks

/-- A single item, or a row of layouts. -/
inductive Nested (α : Type) where
  /-- A single item. -/
  | item (value : α)
  /-- A row. -/
  | row (parts : List (Nested α))
  deriving Repr

namespace Nested

variable {α β γ : Type}

/-! ### Decidable equality -/

mutual

/-- Whether two layouts are the same. -/
def decideEq [DecidableEq α] : (left right : Nested α) → Decidable (left = right)
  | .item left, .item right => decidable_of_iff (left = right) (by simp)
  | .row lefts, .row rights =>
      match decideAllEq lefts rights with
      | .isTrue equal => .isTrue (congrArg Nested.row equal)
      | .isFalse differ => .isFalse fun equal => differ (Nested.row.inj equal)
  | .item _, .row _ => .isFalse (by simp)
  | .row _, .item _ => .isFalse (by simp)

/-- Whether two lists of layouts are the same. -/
def decideAllEq [DecidableEq α] : (lefts rights : List (Nested α)) → Decidable (lefts = rights)
  | [], [] => .isTrue rfl
  | left :: lefts, right :: rights =>
      match decideEq left right, decideAllEq lefts rights with
      | .isTrue first, .isTrue rest => .isTrue (by rw [first, rest])
      | .isFalse differ, _ => .isFalse fun equal => differ (List.cons.inj equal).1
      | _, .isFalse differ => .isFalse fun equal => differ (List.cons.inj equal).2
  | [], _ :: _ => .isFalse (by simp)
  | _ :: _, [] => .isFalse (by simp)

end

instance [DecidableEq α] : DecidableEq (Nested α) :=
  decideEq

/-! ### Rows of items -/

/-- A row of items. -/
def ofList (values : List α) : Nested α :=
  .row (values.map .item)

/-- The items of a row that holds nothing else. -/
def flat? : List (Nested α) → Option (List α)
  | [] => some []
  | .item value :: parts => (flat? parts).map (value :: ·)
  | .row _ :: _ => none

/-- `flat? (values.map item) = some values`. -/
@[simp] theorem flat?_map_item (values : List α) : flat? (values.map item) = some values := by
  induction values with
  | nil => rfl
  | cons value values inductionHypothesis => simp [flat?, inductionHypothesis]

/-- The number of parts, a single item being one. -/
def length : Nested α → Nat
  | .item _ => 1
  | .row parts => parts.length

/-- A row has as many items as it is made of. -/
@[simp] theorem length_ofList (values : List α) : (ofList values).length = values.length := by
  simp [ofList, length]

/-- How many rows lie around the first item. -/
def depth : Nested α → Nat
  | .item _ => 0
  | .row [] => 1
  | .row (first :: _) => first.depth + 1
termination_by structural nested => nested

/-- A single item has no row around it. -/
@[simp] theorem depth_item (value : α) : (item value).depth = 0 :=
  rfl

/-- A row of single items has one level. -/
@[simp] theorem depth_ofList (values : List α) : (ofList values).depth = 1 := by
  cases values <;> rfl

mutual

/-- The items in order. -/
def items : Nested α → List α
  | .item value => [value]
  | .row parts => allItems parts

/-- The items of layouts in order. -/
def allItems : List (Nested α) → List α
  | [] => []
  | part :: parts => part.items ++ allItems parts

end

/-- A single item has itself for its items. -/
@[simp] theorem items_item (value : α) : (item value).items = [value] :=
  rfl

/-- `(ofList values).items = values`. -/
@[simp] theorem items_ofList (values : List α) : (ofList values).items = values := by
  change allItems (values.map item) = values
  induction values with
  | nil => rfl
  | cons value values inductionHypothesis => simp [allItems, inductionHypothesis]

mutual

/-- Apply a function to every item. -/
def map (f : α → β) : Nested α → Nested β
  | .item value => .item (f value)
  | .row parts => .row (mapAll f parts)

/-- Apply a function to every item of layouts. -/
def mapAll (f : α → β) : List (Nested α) → List (Nested β)
  | [] => []
  | part :: parts => part.map f :: mapAll f parts

end

/-- Mapping a single item maps its value. -/
@[simp] theorem map_item (f : α → β) (value : α) : (item value).map f = item (f value) :=
  rfl

/-- `(ofList values).map f = ofList (values.map f)`. -/
@[simp] theorem map_ofList (f : α → β) (values : List α) :
    (ofList values).map f = ofList (values.map f) := by
  change row (mapAll f (values.map item)) = row ((values.map f).map item)
  congr 1
  induction values with
  | nil => rfl
  | cons value values inductionHypothesis => simp [mapAll, inductionHypothesis]

/-- A function applied to every item leaves the number of parts. -/
@[simp] theorem length_map (f : α → β) (nested : Nested α) :
    (nested.map f).length = nested.length := by
  cases nested with
  | item value => rfl
  | row parts =>
      change (mapAll f parts).length = parts.length
      induction parts with
      | nil => rfl
      | cons part parts inductionHypothesis => simp [mapAll, inductionHypothesis]

mutual

/-- A function applied to every item is applied to the items in order. -/
theorem items_map (f : α → β) : (nested : Nested α) → (nested.map f).items = nested.items.map f
  | .item _ => rfl
  | .row parts => allItems_mapAll f parts

/-- A function applied to every item of layouts is applied to their items in order. -/
theorem allItems_mapAll (f : α → β) :
    (parts : List (Nested α)) → allItems (mapAll f parts) = (allItems parts).map f
  | [] => rfl
  | part :: parts => by
      simp [mapAll, allItems, items_map f part, allItems_mapAll f parts]

end

mutual

/-- Functions applied to every item one after the other are applied at once. -/
@[simp] theorem map_map (f : α → β) (g : β → γ) :
    (nested : Nested α) → (nested.map f).map g = nested.map (g ∘ f)
  | .item _ => rfl
  | .row parts => congrArg row (mapAll_mapAll f g parts)

/-- Functions applied to every item of layouts one after the other are applied at once. -/
theorem mapAll_mapAll (f : α → β) (g : β → γ) :
    (parts : List (Nested α)) → mapAll g (mapAll f parts) = mapAll (g ∘ f) parts
  | [] => rfl
  | part :: parts => by
      simp [mapAll, map_map f g part, mapAll_mapAll f g parts]

end

/-! ### Bringing two layouts together -/

/-- Put a layout into rows without other parts, `depth` of them around each other. -/
def wrap (nested : Nested α) : (depth : Nat) → Nested α
  | 0 => nested
  | depth + 1 => .row [nested.wrap depth]

/-- What a row of computations gives is given by one of them. -/
theorem mem_of_mapM_eq_some {f : α → Option β} {inputs : List α} {outputs : List β} {output : β}
    (ran : inputs.mapM f = some outputs) (isIn : output ∈ outputs) :
    ∃ input ∈ inputs, f input = some output := by
  induction inputs generalizing outputs with
  | nil =>
      cases ran
      cases isIn
  | cons input inputs inductionHypothesis =>
      simp only [List.mapM_cons, Option.bind_eq_bind, Option.bind_eq_some_iff] at ran
      obtain ⟨first, ofFirst, rest, ofRest, same⟩ := ran
      cases same
      rcases List.mem_cons.mp isIn with rfl | later
      · exact ⟨input, List.mem_cons_self, ofFirst⟩
      · obtain ⟨other, inRest, ofOther⟩ := inductionHypothesis ofRest later
        exact ⟨other, List.mem_cons_of_mem _ inRest, ofOther⟩

/-- Repeat a single part to a length. -/
def stretch (length : Nat) : List (Nested α) → List (Nested α)
  | [only] => List.replicate length only
  | parts => parts

mutual

/-- Pair up the items of two layouts of one depth. -/
def pairLevel? : Nested α → Nested β → Option (Nested (α × β))
  | .item left, .item right => some (.item (left, right))
  -- The only part of a row is repeated along the other row, even along an empty one.
  | .row [left], .row rights => (rights.mapM fun right => pairLevel? left right).map .row
  | .row lefts, .row rights => (pairAlong? lefts (stretch lefts.length rights)).map .row
  | _, _ => none
termination_by structural nested => nested

/-- Pair up the items of the parts of two rows of one length. -/
def pairAlong? : List (Nested α) → List (Nested β) → Option (List (Nested (α × β)))
  | [], [] => some []
  | left :: lefts, right :: rights => do
      let pair ← pairLevel? left right
      let pairs ← pairAlong? lefts rights
      some (pair :: pairs)
  | _, _ => none
termination_by structural lefts => lefts

end

/-- Pair up the items of two layouts that stretch to one shape. -/
def pairs? (left : Nested α) (right : Nested β) : Option (Nested (α × β)) :=
  pairLevel? (left.wrap (right.depth - left.depth)) (right.wrap (left.depth - right.depth))

/-- What is in several layouts is in one of them. -/
theorem mem_allItems {parts : List (Nested α)} {value : α} :
    value ∈ allItems parts ↔ ∃ part ∈ parts, value ∈ part.items := by
  induction parts with
  | nil => simp [allItems]
  | cons part parts inductionHypothesis => simp [allItems, inductionHypothesis]

/-- Rows around a layout hold nothing else. -/
theorem items_wrap (nested : Nested α) (depth : Nat) : (nested.wrap depth).items = nested.items := by
  induction depth with
  | zero => rfl
  | succ depth inductionHypothesis => simp [wrap, items, allItems, inductionHypothesis]

mutual

/-- The left sides of pairs come from the left layout. -/
theorem fst_mem_of_pairLevel? : {left : Nested α} → {right : Nested β} →
    {pairs : Nested (α × β)} → pairLevel? left right = some pairs →
    ∀ pair ∈ pairs.items, pair.1 ∈ left.items
  | .item left, .item right, _, paired, pair, isIn => by
      cases paired
      rw [List.mem_singleton.mp isIn]
      exact List.mem_cons_self
  | .row [left], .row rights, _, paired, pair, isIn => by
      simp only [pairLevel?, Option.map_eq_some_iff] at paired
      obtain ⟨parts, ofRights, rfl⟩ := paired
      obtain ⟨part, isPart, inPart⟩ := mem_allItems.mp isIn
      obtain ⟨right, -, ofRight⟩ := mem_of_mapM_eq_some ofRights isPart
      exact mem_allItems.mpr ⟨left, List.mem_cons_self, fst_mem_of_pairLevel? ofRight pair inPart⟩
  | .row [], .row rights, _, paired, pair, isIn => by
      simp only [pairLevel?, Option.map_eq_some_iff] at paired
      obtain ⟨parts, along, rfl⟩ := paired
      exact fst_mem_of_pairAlong? along pair isIn
  | .row (first :: second :: lefts), .row rights, _, paired, pair, isIn => by
      simp only [pairLevel?, Option.map_eq_some_iff] at paired
      obtain ⟨parts, along, rfl⟩ := paired
      exact fst_mem_of_pairAlong? along pair isIn
  | .item _, .row _, _, paired, _, _ => by cases paired
  | .row [], .item _, _, paired, _, _ => by cases paired
  | .row [_], .item _, _, paired, _, _ => by cases paired
  | .row (_ :: _ :: _), .item _, _, paired, _, _ => by cases paired

/-- The left sides of pairs come from the left layouts. -/
theorem fst_mem_of_pairAlong? : {lefts : List (Nested α)} → {rights : List (Nested β)} →
    {pairs : List (Nested (α × β))} → pairAlong? lefts rights = some pairs →
    ∀ pair ∈ allItems pairs, pair.1 ∈ allItems lefts
  | [], [], _, paired, pair, isIn => by
      cases paired
      cases isIn
  | left :: lefts, right :: rights, _, paired, pair, isIn => by
      simp only [pairAlong?, Option.bind_eq_bind, Option.bind_eq_some_iff, Option.some.injEq]
        at paired
      obtain ⟨part, ofFirst, parts, ofRest, rfl⟩ := paired
      rcases List.mem_append.mp isIn with inFirst | inRest
      · exact List.mem_append_left _ (fst_mem_of_pairLevel? ofFirst pair inFirst)
      · exact List.mem_append_right _ (fst_mem_of_pairAlong? ofRest pair inRest)
  | [], _ :: _, _, paired, _, _ => by cases paired
  | _ :: _, [], _, paired, _, _ => by cases paired

end

/-- The left sides of pairs come from the left layout. -/
theorem fst_mem_of_pairs? {left : Nested α} {right : Nested β} {pairs : Nested (α × β)}
    (paired : left.pairs? right = some pairs) : ∀ pair ∈ pairs.items, pair.1 ∈ left.items := by
  intro pair isIn
  rw [← items_wrap left (right.depth - left.depth)]
  exact fst_mem_of_pairLevel? paired pair isIn

/-- Whether there is a single item, which meets several items of another layout. -/
def isSpreadOver (nested : Nested α) (other : Nested β) : Bool :=
  nested.items.length == 1 && 1 < other.items.length

/-- Nothing is spread over a single item. -/
@[simp] theorem isSpreadOver_item (nested : Nested α) (value : β) :
    nested.isSpreadOver (item value) = false := by
  simp [isSpreadOver]

/-- Two single items are a pair. -/
@[simp] theorem pairs?_item_item (left : α) (right : β) :
    (item left).pairs? (item right) = some (item (left, right)) :=
  rfl

/-- A single item is paired with each of the items of a row. -/
theorem mapM_pairLevel?_item (left : α) (rights : List β) :
    ((rights.map item).mapM fun right => pairLevel? (item left) right) =
      some (rights.map fun right => item (left, right)) := by
  induction rights with
  | nil => rfl
  | cons right rights inductionHypothesis =>
      simp [List.mapM_cons, pairLevel?, inductionHypothesis]

/-- Single items are paired one by one. -/
theorem pairAlong?_items {lefts : List α} {rights : List β}
    (same : lefts.length = rights.length) :
    pairAlong? (lefts.map item) (rights.map item) = some ((lefts.zip rights).map item) := by
  induction lefts generalizing rights with
  | nil =>
      cases rights with
      | nil => rfl
      | cons right rights => simp at same
  | cons left lefts inductionHypothesis =>
      cases rights with
      | nil => simp at same
      | cons right rights =>
          have rest := @inductionHypothesis rights (by simpa using same)
          simp [pairAlong?, pairLevel?, rest]

/-- Each of the items of a row is paired with a repeated single item. -/
theorem pairAlong?_replicate (lefts : List α) (right : β) :
    pairAlong? (lefts.map item) (List.replicate lefts.length (item right)) =
      some (lefts.map fun left => item (left, right)) := by
  induction lefts with
  | nil => rfl
  | cons left lefts inductionHypothesis =>
      simp [List.replicate_succ, pairAlong?, pairLevel?, inductionHypothesis]

/-- A row of one item is stretched along a row of items. -/
theorem pairs?_ofList_singleton_left (left : α) (rights : List β) :
    (ofList [left]).pairs? (ofList rights) =
      some (ofList (rights.map fun right => (left, right))) := by
  have pairs := mapM_pairLevel?_item left rights
  simp only [pairs?, depth_ofList, Nat.sub_self, wrap]
  simp only [ofList, List.map_cons, List.map_nil, pairLevel?, pairs, List.map_map]
  rfl

/-- A single item is stretched along a row of items. -/
@[simp] theorem pairs?_item_ofList (left : α) (rights : List β) :
    (item left).pairs? (ofList rights) =
      some (ofList (rights.map fun right => (left, right))) := by
  rw [← pairs?_ofList_singleton_left]
  simp only [pairs?, depth_item, depth_ofList]
  rfl

/-- Rows of items of one length are paired item by item. -/
theorem pairs?_ofList {lefts : List α} {rights : List β}
    (same : lefts.length = rights.length) :
    (ofList lefts).pairs? (ofList rights) = some (ofList (lefts.zip rights)) := by
  match lefts, rights, same with
  | [], [], _ => rfl
  | [left], [right], _ => rfl
  | first :: second :: lefts, other :: another :: rights, same =>
      have pairs := pairAlong?_items same
      simp only [pairs?, depth_ofList, Nat.sub_self, wrap]
      simp only [ofList, List.map_cons, pairLevel?, stretch] at pairs ⊢
      rw [pairs]
      rfl

/-- A row of one item is stretched along a row of items. -/
theorem pairs?_ofList_singleton_right (lefts : List α) (right : β) :
    (ofList lefts).pairs? (ofList [right]) =
      some (ofList (lefts.map fun left => (left, right))) := by
  match lefts with
  | [] => rfl
  | [left] => rfl
  | first :: second :: lefts =>
      have pairs := pairAlong?_replicate (first :: second :: lefts) right
      simp only [pairs?, depth_ofList, Nat.sub_self, wrap]
      simp only [ofList, List.map_cons, List.map_nil, pairLevel?, stretch, List.length_cons,
        List.length_map] at pairs ⊢
      rw [pairs]
      simp

/-- A single item is stretched along a row of items. -/
@[simp] theorem pairs?_ofList_item (lefts : List α) (right : β) :
    (ofList lefts).pairs? (item right) =
      some (ofList (lefts.map fun left => (left, right))) := by
  rw [← pairs?_ofList_singleton_right]
  simp only [pairs?, depth_item, depth_ofList]
  rfl

end Nested

end ArrayForks
