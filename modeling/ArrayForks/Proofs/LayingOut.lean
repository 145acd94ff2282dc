import ArrayForks.Proofs.ExactArithmetic
import ArrayForks.Proofs.WordRange

/-! # Laying out

Laying out puts what two operands show into one array. When three operands are laid out, it does not
matter which two come first: words that are widened in an inner array are doubles already when the
whole is widened, and otherwise all are widened at the end. A reduction with a neutral number turns
laying out two operands of words into a diadic operator, as it comes to the exact reduction of all
numbers wrapped once, and this is made up of those of both parts, even if a part has no numbers.

* **`laidOut_append`**, **`laidOut_laidOut`**: `laidOut floating` of copies in a row can be taken
  apart and repeated.
* **`Reduces`**: a reduction gives a function of the words that are laid out, and
  **`Reduces.turnsLayingOutInto`** turns a law of this function for `++` into one of the
  reduction. -/

namespace ArrayForks

/-! ### Widening in parts -/

namespace Evaluation

/-- A double stays as it is when it is widened, so widening twice is widening once. -/
theorem widen_widen (copy : Copy) : widen .float (widen .float copy) = widen .float copy := by
  obtain ⟨value, origin⟩ := copy
  cases value <;> rfl

/-- A number that is widened is the double that it is read as. -/
theorem value_widen {copy : Copy} {floating : Bool} (fits : copy.value.FitsInto floating) :
    (widen .float copy).value = .float (Floating.number copy.value) := by
  obtain ⟨value, origin⟩ := copy
  rcases fits.wordOrDouble with ⟨n, rfl⟩ | ⟨x, rfl⟩
  · rfl
  · rfl

end Evaluation

namespace Operation

/-- Copies become elements one by one. -/
theorem laidOut_append (floating : Bool) (copies others : List Copy) :
    laidOut floating (copies ++ others) = laidOut floating copies ++ laidOut floating others := by
  cases floating with
  | true => exact List.map_append
  | false => rfl

section

variable {inner outer : Bool} (wide : inner = true → outer = true)

include wide

/-- Elements of an inner row become those of an outer one as if they had never been in the inner one,
unless doubles would become words. -/
theorem laidOut_laidOut (copies : List Copy) :
    laidOut outer (laidOut inner copies) = laidOut outer copies := by
  cases inner with
  | false => rfl
  | true =>
      rw [wide rfl]
      change (copies.map (Evaluation.widen .float)).map (Evaluation.widen .float) =
        copies.map (Evaluation.widen .float)
      rw [List.map_map]
      exact List.map_congr_left fun copy _ => Evaluation.widen_widen copy

/-- An inner row may come first. -/
theorem laidOut_laidOut_append (copies others : List Copy) :
    laidOut outer (laidOut inner copies ++ others) = laidOut outer (copies ++ others) := by
  rw [laidOut_append, laidOut_laidOut wide, ← laidOut_append]

/-- An inner row may come last. -/
theorem laidOut_append_laidOut (copies others : List Copy) :
    laidOut outer (copies ++ laidOut inner others) = laidOut outer (copies ++ others) := by
  rw [laidOut_append, laidOut_laidOut wide, ← laidOut_append]

end

/-- There are as many elements as copies. -/
theorem length_laidOut (floating : Bool) (copies : List Copy) :
    (laidOut floating copies).length = copies.length := by
  cases floating with
  | true => exact List.length_map _
  | false => rfl

/-- As elements of a row of doubles, copies have the doubles as values that they are read as. -/
theorem values_laidOut {copies : List Copy} {floating : Bool}
    (fit : ∀ copy ∈ copies, copy.value.FitsInto floating) :
    (laidOut true copies).map Copy.value =
      copies.map fun copy => .float (Floating.number copy.value) := by
  change (copies.map (Evaluation.widen .float)).map Copy.value = _
  rw [List.map_map]
  exact List.map_congr_left fun copy isIn => Evaluation.value_widen (fit copy isIn)

variable [NumericLibrary]

section

variable {heap : Heap} {xType yType zType : NumericType} {x y z : Operand}
  {xContent yContent zContent : Nested Copy}

/-- Laying out an operand after two that are laid out already. -/
theorem diadic_concat_left (xShown : Operand.Shows heap xType x xContent)
    (yShown : Operand.Shows heap yType y yContent) (zShown : Operand.Shows heap zType z zContent) :
    diadic heap .concat (NumericType.static ⟨true, xType.isFloating || yType.isFloating⟩)
        zType.static
        (.ofList (laidOut (xType.isFloating || yType.isFloating) (xContent.items ++ yContent.items)))
        z =
      .ok (.ofList (laidOut (xType.isFloating || yType.isFloating || zType.isFloating)
        (xContent.items ++ yContent.items ++ zContent.items))) := by
  have wide : (xType.isFloating || yType.isFloating) = true →
      (xType.isFloating || yType.isFloating || zType.isFloating) = true := by
    intro double
    rw [double, Bool.true_or]
  have laid := diadic_concat (shows_laidOut xShown yShown) zShown
  rw [Nested.items_ofList] at laid
  rw [← laidOut_laidOut_append wide]
  exact laid

/-- Laying out an operand before two that are laid out already. -/
theorem diadic_concat_right (xShown : Operand.Shows heap xType x xContent)
    (yShown : Operand.Shows heap yType y yContent) (zShown : Operand.Shows heap zType z zContent) :
    diadic heap .concat xType.static
        (NumericType.static ⟨true, yType.isFloating || zType.isFloating⟩) x
        (.ofList
          (laidOut (yType.isFloating || zType.isFloating) (yContent.items ++ zContent.items))) =
      .ok (.ofList (laidOut (xType.isFloating || yType.isFloating || zType.isFloating)
        (xContent.items ++ yContent.items ++ zContent.items))) := by
  have wide : (yType.isFloating || zType.isFloating) = true →
      (xType.isFloating || (yType.isFloating || zType.isFloating)) = true := by
    intro double
    rw [double, Bool.or_true]
  have laid := diadic_concat xShown (shows_laidOut yShown zShown)
  rw [Nested.items_ofList] at laid
  rw [Bool.or_assoc, List.append_assoc, ← laidOut_append_laidOut wide]
  exact laid

end

/-- **Laying out is associative.** `(x , y) , z` and `x , (y , z)`, where the comma lays out and the
inner results have the types `⟨true, floating⟩` of their operands, have the same `items`:

* `items.length = xContent.length + yContent.length + zContent.length`;
* if any of the three types is floating, `items` have the values
  `.float (Floating.number copy.value)` of all copies in their order, so that each word is widened
  just once;
* otherwise `items` are the copies themselves. -/
theorem layingOut_assoc (heap : Heap) {xType yType zType : NumericType} {x y z : Operand}
    {xContent yContent zContent : Nested Copy} (xShown : Operand.Shows heap xType x xContent)
    (yShown : Operand.Shows heap yType y yContent) (zShown : Operand.Shows heap zType z zContent) :
    let floating := xType.isFloating || yType.isFloating || zType.isFloating
    let copies := xContent.items ++ yContent.items ++ zContent.items
    ∃ first last items,
      diadic heap .concat xType.static yType.static x y = .ok first ∧
      diadic heap .concat yType.static zType.static y z = .ok last ∧
      diadic heap .concat (NumericType.static ⟨true, xType.isFloating || yType.isFloating⟩)
        zType.static first z = .ok (.ofList items) ∧
      diadic heap .concat xType.static
        (NumericType.static ⟨true, yType.isFloating || zType.isFloating⟩) x last =
          .ok (.ofList items) ∧
      items.length = xContent.length + yContent.length + zContent.length ∧
      (∀ item ∈ items, item.value.IsNumber floating) ∧
      (floating = true →
        items.map Copy.value = copies.map fun copy => .float (Floating.number copy.value)) ∧
      (floating = false → items = copies) := by
  intro floating copies
  have fit : ∀ copy ∈ copies, copy.value.FitsInto floating := by
    intro copy isIn
    rcases List.mem_append.mp isIn with inFirst | inLast
    · obtain ⟨own, isNumber, wide⟩ := fit_append xShown yShown copy inFirst
      exact ⟨own, isNumber, fun double => Bool.or_eq_true_iff.mpr (.inl (wide double))⟩
    · exact (zShown.areNumbers copy inLast).fitsInto fun double =>
        Bool.or_eq_true_iff.mpr (.inr double)
  refine ⟨_, _, laidOut floating copies, diadic_concat xShown yShown, diadic_concat yShown zShown,
    diadic_concat_left xShown yShown zShown, diadic_concat_right xShown yShown zShown, ?_,
    isNumber_laidOut fit, fun doubles => ?_, fun words => ?_⟩
  · rw [length_laidOut, List.length_append, List.length_append, xShown.flat.length_items,
      yShown.flat.length_items, zShown.flat.length_items]
  · rw [doubles]
    exact values_laidOut fit
  · rw [words]
    rfl

omit [NumericLibrary] in
/-- Beside a double, the words of an array and a word by itself are widened in the inner array or in
the outer one. -/
theorem layingOut_assoc_mixed :
    letI : NumericLibrary := .standard
    let row : Operand := .ofList [.new (.int 1), .new (.int 2)]
    let word : Operand := .item (.new (.int 3))
    let double : Operand := .item (.new (.float 0.5))
    Operand.Shows .empty ⟨true, false⟩ row row ∧ Operand.Shows .empty ⟨false, false⟩ word word ∧
      Operand.Shows .empty ⟨false, true⟩ double double ∧
      ∃ first last items,
        diadic .empty .concat (.array .int) .int row word = .ok first ∧
        diadic .empty .concat .int .float word double = .ok last ∧
        diadic .empty .concat (.array .int) .float first double = .ok (.ofList items) ∧
        diadic .empty .concat (.array .int) (.array .float) row last = .ok (.ofList items) ∧
        items.map Copy.value =
          [.float (Float.ofInt 1), .float (Float.ofInt 2), .float (Float.ofInt 3), .float 0.5] := by
  let : NumericLibrary := .standard
  intro row word double
  have rowShown : Operand.Shows .empty ⟨true, false⟩ row row :=
    .row rfl (by simp [Value.IsNumber])
  have wordShown : Operand.Shows .empty ⟨false, false⟩ word word := .number rfl rfl
  have doubleShown : Operand.Shows .empty ⟨false, true⟩ double double := .number rfl rfl
  obtain ⟨first, last, items, isFirst, isLast, firstWhole, lastWhole, -, -, doubles, -⟩ :=
    layingOut_assoc .empty rowShown wordShown doubleShown
  exact ⟨rowShown, wordShown, doubleShown, first, last, items, isFirst, isLast, firstWhole,
    lastWhole, doubles rfl⟩

end Operation

/-! ### Reductions of what is laid out -/

variable [NumericLibrary]

/-- The words that copies are read as, in order. -/
def Nested.words (copies : Nested Copy) : List Int :=
  copies.items.map fun copy => Domain.Reads.number copy.value

/-- A value in range is read as a word in range. -/
theorem Value.InRange.number {value : Value} (inRange : value.InRange) :
    Word.InRange (Domain.Reads.number value) := by
  have zero : Word.InRange 0 := by decide
  cases value with
  | int n => exact inRange
  | _ => exact zero

/-- The words of a row are those of its elements. -/
theorem Nested.words_ofList (items : List Copy) :
    (ofList items).words = items.map fun item => Domain.Reads.number item.value := by
  rw [words, items_ofList]

/-- There are as many words as a layout of one level is long. -/
theorem Nested.Flat.length_words {copies : Nested Copy} {isRow : Bool} (flat : copies.Flat isRow) :
    copies.words.length = copies.length := by
  rw [words, List.length_map, flat.length_items]

/-- A copy of a word has that word alone. -/
theorem Nested.words_item {copy : Copy} {n : Int} (isWord : copy.value = .int n) :
    (item copy).words = [n] := by
  rw [words, items_item, List.map_singleton, isWord]
  rfl

/-- An operator that commutes with wrapping is a step on wrapped numbers that gives the word of its
exact result. -/
theorem Domain.step_exact {op : Arithmetic} {f : Int → Int → Int}
    (isExact : op.unwrapped? = some f) (m n : Int) :
    step (Word.arithmetic op) (.arithmetic op) (Word.wrap m) (Word.wrap n) =
      .ok (Word.wrap (f m n)) := by
  rw [step, trap?, trapOnRights?_exact isExact, trapOnPairs?_exact isExact, Option.or_none,
    Word.arithmetic_exact isExact]

/-- A connective is a step on the tests of two rows that gives the test of both together. -/
theorem Domain.step_test (op : Quantifier) (ms ns : List Int) :
    step (fun left right : Int => ofBool (connect op.connective left right))
        (.connective op.connective) (ofBool (test op ms)) (ofBool (test op ns)) =
      .ok (ofBool (test op (ms ++ ns))) := by
  rw [step]
  change Except.ok (ofBool (connect op.connective (ofBool (test op ms)) (ofBool (test op ns)))) = _
  cases op with
  | all => simp [connect, test, Quantifier.connective, FoldsBySteps.isTrue_ofBool]
  | any => simp [connect, test, Quantifier.connective, FoldsBySteps.isTrue_ofBool]

namespace Operation

/-- A reduction gives a word that depends on the words of an operand alone, for all words that
fit. -/
structure Reduces (reduction : MonadicOp) (fits : List Int → Prop) (worth : List Int → Int) :
    Prop where
  /-- The reduction of an array is a new word. -/
  array {heap : Heap} {operand : Operand} {items : List Copy}
    (shown : Operand.Shows heap ⟨true, false⟩ operand (.ofList items))
    (fit : fits (Nested.ofList items).words) :
    monadic heap reduction (.array .int) operand =
      .ok (.item (.new (.int (worth (Nested.ofList items).words))))
  /-- The reduction of a single number is a word, too, as if it were the only element of an array. -/
  number (heap : Heap) {copy : Copy} (isNumber : copy.value.IsNumber false)
    (fit : fits (Nested.item copy).words) :
    ∃ given, monadic heap reduction .int (.item copy) = .ok (.item given) ∧
      given.value = .int (worth (Nested.item copy).words)

namespace Reduces

variable {reduction : MonadicOp} {fits : List Int → Prop} {worth : List Int → Int}

/-- The reduction of what an operand shows. -/
theorem gives (reduces : Reduces reduction fits worth) {heap : Heap} {isArray : Bool}
    {operand : Operand} {content : Nested Copy}
    (shown : Operand.Shows heap ⟨isArray, false⟩ operand content)
    (fit : fits content.words) :
    ∃ given, monadic heap reduction (NumericType.static ⟨isArray, false⟩) operand =
        .ok (.item given) ∧ given.value = .int (worth content.words) := by
  cases shown with
  | number scalar isNumber =>
      cases scalar
      exact reduces.number heap isNumber fit
  | array array found areNumbers =>
      cases array
      exact ⟨_, reduces.array (.array rfl found areNumbers) fit, rfl⟩
  | row array areNumbers =>
      cases array
      exact ⟨_, reduces.array (.row rfl areNumbers) fit, rfl⟩

end Reduces

/-- A fold that commutes with wrapping and is one number's own is the exact fold wrapped once. -/
theorem reduces_fold {op : Fold} {exact : List Int → Int}
    (isExact : ∀ ns, op.unwrapped? ns = some (exact ns)) (ofOne : ∀ n, exact [n] = n) :
    Reduces (.fold op) (fun ns => ∀ n ∈ ns, Word.InRange n) fun ns => Word.wrap (exact ns) where
  array {heap operand items} shown fit := by
    have wrapped : (Nested.ofList items).words.map Word.wrap = (Nested.ofList items).words :=
      (List.map_congr_left fun n isIn => Word.wrap_of_inRange (fit n isIn)).trans (List.map_id _)
    have folded := reduce_fold_words (isExact (Nested.ofList items).words)
      ((Nested.words_ofList items).symm.trans wrapped.symm)
    rw [monadic_words (by simp) (by simp) shown, folded]
    rfl
  number heap {copy} isNumber fit := by
    obtain ⟨n, isWord⟩ := (isNumber.fitsInto id).word
    rw [Nested.words_item isWord] at fit ⊢
    have inRange := fit n List.mem_cons_self
    -- The fold gives the number back without wrapping it, so it must have been a word.
    refine ⟨copy, rfl, ?_⟩
    rw [ofOne, Word.wrap_of_inRange inRange]
    exact isWord

/-- A test is the truth value of whether all or any numbers are other than zero. -/
theorem reduces_quantifier (op : Quantifier) :
    Reduces (.quantifier op) (fun _ => True) fun ns => Domain.ofBool (Domain.test op ns) where
  array {heap operand items} shown _ := by
    rw [monadic_words (by simp) (by simp) shown, reduce_quantifier_eq, ← Nested.words_ofList]
    rfl
  number heap {copy} isNumber _ := by
    have given : monadic heap (.quantifier op) .int (.item copy) = _ :=
      onNumber_eq (α := Int) (.quantifier op) (isNumber.fitsInto id)
    exact ⟨_, given, rfl⟩

/-- The number of elements is a word in an array shorter than `2 ^ 63`. -/
theorem reduces_count :
    Reduces .count (fun ns => ns.length < 9223372036854775808) fun ns => Word.wrap ns.length where
  array {heap operand items} shown fit := by
    have elements : operand.elements heap (.array .int) =
        .ok ((Nested.ofList items).items.map .item) := shown.elements_eq
    rw [Word.wrap_of_inRange (Word.inRange_length fit), Nested.words, List.length_map]
    change onArray heap .count .int operand = _
    rw [onArray, elements]
    change Except.ok (Nested.item (Copy.new (.int (List.length (List.map _ _))))) = _
    rw [List.length_map]
  number heap {copy} isNumber fit := by
    obtain ⟨n, isWord⟩ := (isNumber.fitsInto id).word
    rw [Word.wrap_of_inRange (Word.inRange_length fit), Nested.words_item isWord]
    exact ⟨_, rfl, rfl⟩

/-- A reduction turns laying out two operands into a diadic operator on words: it gives for both laid
out what the operator gives for what it gives for each of them. -/
def TurnsLayingOutInto (heap : Heap) (reduction : MonadicOp) (op : DiadicOp)
    (leftType rightType : NumericType) (left right : Operand) : Prop :=
  ∃ both first second whole,
    diadic heap .concat leftType.static rightType.static left right = .ok both ∧
    monadic heap reduction leftType.static left = .ok first ∧
    monadic heap reduction rightType.static right = .ok second ∧
    monadic heap reduction (.array .int) both = .ok whole ∧
    diadic heap op .int .int first second = .ok whole

section

variable {heap : Heap} {leftIsArray rightIsArray : Bool} {left right : Operand}
  {leftContent rightContent : Nested Copy}

/-- A reduction turns laying out into an operator that puts together the reductions of any two rows
to that of one after the other. -/
theorem Reduces.turnsLayingOutInto {reduction : MonadicOp} {fits : List Int → Prop}
    {worth : List Int → Int} (reduces : Reduces reduction fits worth) {op : DiadicOp}
    {kernel : Int → Int → Int} (isKernel : Domain.kernel? false op = some kernel)
    (joins : ∀ ms ns, Domain.step kernel op (worth ms) (worth ns) = .ok (worth (ms ++ ns)))
    (leftShown : Operand.Shows heap ⟨leftIsArray, false⟩ left leftContent)
    (rightShown : Operand.Shows heap ⟨rightIsArray, false⟩ right rightContent)
    (leftFits : fits leftContent.words) (rightFits : fits rightContent.words)
    (bothFit : fits (leftContent.words ++ rightContent.words)) :
    TurnsLayingOutInto heap reduction op ⟨leftIsArray, false⟩ ⟨rightIsArray, false⟩ left right := by
  have bothWords : (Nested.ofList (leftContent.items ++ rightContent.items)).words =
      leftContent.words ++ rightContent.words := by
    rw [Nested.words_ofList]
    exact List.map_append
  -- Single numbers or not, what is laid out is an array, and only the parts may be numbers.
  have reduced := reduces.array (shows_laidOut leftShown rightShown) (bothWords ▸ bothFit)
  obtain ⟨first, isFirst, firstWord⟩ := reduces.gives leftShown leftFits
  obtain ⟨second, isSecond, secondWord⟩ := reduces.gives rightShown rightFits
  refine ⟨_, _, _, _, diadic_concat leftShown rightShown, isFirst, isSecond, reduced, ?_⟩
  rw [diadic_words heap isKernel firstWord secondWord, joins, ← bothWords]
  rfl

/-- A reduction that is exact up to wrapping turns laying out into an operator that commutes with
wrapping, if this puts together the exact reductions of any two rows. -/
theorem Reduces.turnsLayingOutInto_of_exact {reduction : MonadicOp} {fits : List Int → Prop}
    {exact : List Int → Int} (reduces : Reduces reduction fits fun ns => Word.wrap (exact ns))
    {op : Arithmetic} {f : Int → Int → Int} (isExact : op.unwrapped? = some f)
    (joins : ∀ ms ns, exact (ms ++ ns) = f (exact ms) (exact ns))
    (leftShown : Operand.Shows heap ⟨leftIsArray, false⟩ left leftContent)
    (rightShown : Operand.Shows heap ⟨rightIsArray, false⟩ right rightContent)
    (leftFits : fits leftContent.words) (rightFits : fits rightContent.words)
    (bothFit : fits (leftContent.words ++ rightContent.words)) :
    TurnsLayingOutInto heap reduction (.arithmetic op) ⟨leftIsArray, false⟩ ⟨rightIsArray, false⟩
      left right := by
  refine reduces.turnsLayingOutInto rfl (fun ms ns => ?_) leftShown rightShown leftFits rightFits
    bothFit
  rw [joins]
  exact Domain.step_exact isExact (exact ms) (exact ns)

/-- Copies in range have words in range. -/
theorem words_inRange {content : Nested Copy} (inRange : ∀ copy ∈ content.items, copy.value.InRange) :
    ∀ n ∈ content.words, Word.InRange n := by
  intro n isIn
  obtain ⟨copy, isCopy, rfl⟩ := List.mem_map.mp isIn
  exact Value.InRange.number (inRange copy isCopy)

/-- **Reductions turn laying out into operators.** Let each operand show a word or an array of
words, perhaps an empty one. Then `reduction (left , right) = reduction left op reduction right`,
where the comma lays out, for the sum and `+`, the product and `*`, the test of all elements and
`&&`, the test of any and `||`, and, if there are fewer than `2 ^ 63` elements, for their number and
`+`. A single word counts as one element on either side, and all sums and products wrap. -/
theorem reductions_turn_layingOut (heap : Heap) (leftIsArray rightIsArray : Bool)
    {left right : Operand} {leftContent rightContent : Nested Copy}
    (leftShown : Operand.Shows heap ⟨leftIsArray, false⟩ left leftContent)
    (rightShown : Operand.Shows heap ⟨rightIsArray, false⟩ right rightContent)
    (leftInRange : ∀ copy ∈ leftContent.items, copy.value.InRange)
    (rightInRange : ∀ copy ∈ rightContent.items, copy.value.InRange) :
    let turns (reduction : MonadicOp) (op : DiadicOp) : Prop :=
      TurnsLayingOutInto heap reduction op ⟨leftIsArray, false⟩ ⟨rightIsArray, false⟩ left right
    turns (.fold .sum) (.arithmetic .add) ∧
    turns (.fold .product) (.arithmetic .multiply) ∧
    turns (.quantifier .all) (.connective .and) ∧
    turns (.quantifier .any) (.connective .or) ∧
    (leftContent.length + rightContent.length < 9223372036854775808 →
      turns .count (.arithmetic .add)) := by
  intro turns
  have leftFits := words_inRange leftInRange
  have rightFits := words_inRange rightInRange
  have bothFit : ∀ n ∈ leftContent.words ++ rightContent.words, Word.InRange n := by
    intro n isIn
    exact (List.mem_append.mp isIn).elim (leftFits n) (rightFits n)
  refine ⟨?_, ?_, ?_, ?_, fun short => ?_⟩
  -- Sums, products and lengths are exact up to wrapping; the truth values are wrapped already.
  · have sums : Reduces (.fold .sum) _ fun ns => Word.wrap ns.sum :=
      reduces_fold (fun _ => rfl) fun _ => List.sum_singleton
    exact sums.turnsLayingOutInto_of_exact rfl (fun _ _ => List.sum_append) leftShown rightShown
      leftFits rightFits bothFit
  · have products : Reduces (.fold .product) _ fun ns => Word.wrap ns.prod :=
      reduces_fold (fun _ => rfl) fun _ => List.prod_singleton
    exact products.turnsLayingOutInto_of_exact rfl (fun _ _ => List.prod_append) leftShown rightShown
      leftFits rightFits bothFit
  · exact (reduces_quantifier .all).turnsLayingOutInto rfl (Domain.step_test .all) leftShown
      rightShown trivial trivial trivial
  · exact (reduces_quantifier .any).turnsLayingOutInto rfl (Domain.step_test .any) leftShown
      rightShown trivial trivial trivial
  · have lengths (ms ns : List Int) : ((ms ++ ns).length : Int) = ms.length + ns.length := by
      rw [List.length_append, Nat.cast_add]
    rw [← leftShown.flat.length_words, ← rightShown.flat.length_words] at short
    refine reduces_count.turnsLayingOutInto_of_exact rfl lengths leftShown rightShown ?_ ?_ ?_
    · omega
    · omega
    · rw [List.length_append]
      exact short

end

omit [NumericLibrary] in
/-- The greatest word laid out with an array of words, whose sum is beyond the words, and an empty
array laid out with the least one. -/
theorem reductions_turn_layingOut_overflow :
    letI : NumericLibrary := .standard
    let greatest : Operand := .item (.new (.int 9223372036854775807))
    let least : Operand := .item (.new (.int (-9223372036854775808)))
    let row : Operand := .ofList [.new (.int 1), .new (.int 0)]
    let nothing : Operand := .ofList []
    Operand.Shows .empty ⟨false, false⟩ greatest greatest ∧
      Operand.Shows .empty ⟨false, false⟩ least least ∧
      Operand.Shows .empty ⟨true, false⟩ row row ∧
      Operand.Shows .empty ⟨true, false⟩ nothing nothing ∧
      TurnsLayingOutInto .empty (.fold .sum) (.arithmetic .add) ⟨false, false⟩ ⟨true, false⟩ greatest
        row ∧
      TurnsLayingOutInto .empty .count (.arithmetic .add) ⟨false, false⟩ ⟨true, false⟩ greatest row ∧
      TurnsLayingOutInto .empty (.fold .product) (.arithmetic .multiply) ⟨true, false⟩
        ⟨false, false⟩ nothing least := by
  let : NumericLibrary := .standard
  intro greatest least row nothing
  have greatestShown : Operand.Shows .empty ⟨false, false⟩ greatest greatest := .number rfl rfl
  have leastShown : Operand.Shows .empty ⟨false, false⟩ least least := .number rfl rfl
  have rowShown : Operand.Shows .empty ⟨true, false⟩ row row :=
    .row rfl (by simp [Value.IsNumber])
  have nothingShown : Operand.Shows .empty ⟨true, false⟩ nothing nothing :=
    .row rfl (by simp)
  have greatestInRange : ∀ copy ∈ greatest.items, copy.value.InRange := by
    simp [greatest, Value.InRange, Word.InRange]
  have leastInRange : ∀ copy ∈ least.items, copy.value.InRange := by
    simp [least, Value.InRange, Word.InRange]
  have rowInRange : ∀ copy ∈ row.items, copy.value.InRange := by
    simp [row, Value.InRange, Word.InRange]
  have nothingInRange : ∀ copy ∈ nothing.items, copy.value.InRange := by
    simp [nothing]
  obtain ⟨sums, -, -, -, counts⟩ := reductions_turn_layingOut .empty false true greatestShown
    rowShown greatestInRange rowInRange
  obtain ⟨-, products, -⟩ := reductions_turn_layingOut .empty true false nothingShown leastShown
    nothingInRange leastInRange
  exact ⟨greatestShown, leastShown, rowShown, nothingShown, sums, counts (by decide), products⟩

end Operation

end ArrayForks
