import Mathlib.Data.List.Basic
import ArrayForks.Machine
import ArrayForks.Operation.Diadic

/-! # Texts that tell data apart

The text of a datum made of words, `null`, arrays and structures can be read back: a reader who goes
through a text from its beginning knows by the first character what kind of datum is written there,
and finds out where it ends, whatever follows. For a word this takes a character after it that is no
digit, and in a structure a name that keeps clear of the sign after it. So no two such data have the
same text, whether it is printed or joined to another text.

* **`ReadsOff write among thing`**: `thing` is read back from its text with whatever text follows.
* **`closed_inj`** reads off rows, for arrays and structures alike, from what reads off their
  parts.
* **`IsLegible.readsOff`** is the induction over data, and **`IsLegible.text_inj`** what comes of
  it. -/

namespace ArrayForks

/-! ### Reading off -/

/-- A text before which a word ends: it does not begin with a digit. -/
def EndsWord (rest : List Char) : Prop :=
  ∀ c ∈ rest.head?, c.isDigit = false

/-- A word ends at the end of a text. -/
theorem endsWord_nil : EndsWord [] := by
  simp [EndsWord]

/-- A word ends before whatever is not a digit. -/
theorem endsWord_cons {c : Char} (noDigit : c.isDigit = false) (rest : List Char) :
    EndsWord (c :: rest) := by
  simpa [EndsWord] using noDigit

/-- A thing is read off from the text that it begins: no other of some things begins the same text,
and what follows is clear as well. -/
def ReadsOff {α : Type} (write : α → List Char) (among : α → Prop) (thing : α) : Prop :=
  ∀ other, among other → ∀ rest rest', EndsWord rest → EndsWord rest' →
    write thing ++ rest = write other ++ rest' → thing = other ∧ rest = rest'

/-- Where two texts are the same, so are their beginnings, if both consist of characters of a kind and
characters of another kind follow. -/
theorem append_inj_of_kind {isKind : Char → Bool} {front front' rest rest' : List Char}
    (alike : ∀ c ∈ front, isKind c = true) (alike' : ∀ c ∈ front', isKind c = true)
    (ends : ∀ c ∈ rest.head?, isKind c = false) (ends' : ∀ c ∈ rest'.head?, isKind c = false)
    (same : front ++ rest = front' ++ rest') : front = front' ∧ rest = rest' := by
  have stops {text : List Char} (ends : ∀ c ∈ text.head?, isKind c = false) :
      text.takeWhile isKind = [] := by
    cases text with
    | nil => rfl
    | cons c text => exact List.takeWhile_cons_of_neg (by simpa using ends)
  have fronts := congrArg (List.takeWhile isKind) same
  rw [List.takeWhile_append_of_pos alike, List.takeWhile_append_of_pos alike', stops ends,
    stops ends', List.append_nil, List.append_nil] at fronts
  subst fronts
  exact ⟨rfl, List.append_cancel_left same⟩

/-- Numbers are read off up to their last digit. -/
theorem toDigits_append_inj {m n : Nat} {rest rest' : List Char} (ends : EndsWord rest)
    (ends' : EndsWord rest') (same : Nat.toDigits 10 m ++ rest = Nat.toDigits 10 n ++ rest') :
    m = n ∧ rest = rest' := by
  have digits (k : Nat) : ∀ c ∈ Nat.toDigits 10 k, c.isDigit = true :=
    fun c isIn => Nat.isDigit_of_mem_toDigits (by decide) (by decide) isIn
  obtain ⟨numerals, restSame⟩ := append_inj_of_kind (digits m) (digits n) ends ends' same
  refine ⟨?_, restSame⟩
  rw [← Nat.ofDigitChars_ten_toDigits (n := m), numerals, Nat.ofDigitChars_ten_toDigits]

/-- A number begins with a digit. -/
theorem exists_digit (n : Nat) :
    ∃ c tail, Nat.toDigits 10 n = c :: tail ∧ c.isDigit = true := by
  obtain ⟨c, tail, isText⟩ := List.exists_cons_of_ne_nil (Nat.toDigits_ne_nil (n := n) (b := 10))
  have isIn : c ∈ Nat.toDigits 10 n := isText ▸ List.mem_cons_self
  exact ⟨c, tail, isText, Nat.isDigit_of_mem_toDigits (by decide) (by decide) isIn⟩

/-- The text of a word that is not negative consists of its digits. -/
theorem toList_ofNat (n : Nat) : (toString (Int.ofNat n)).toList = Nat.toDigits 10 n :=
  Nat.toList_repr

/-- The text of a negative word is a sign and its digits. -/
theorem toList_negSucc (n : Nat) :
    (toString (Int.negSucc n)).toList = '-' :: Nat.toDigits 10 (n + 1) := by
  change ("-" ++ (n + 1).repr).toList = _
  rw [String.toList_append, Nat.toList_repr]
  rfl

/-- No number begins with a minus sign. -/
theorem toDigits_append_ne_minus (n : Nat) (rest tail : List Char) :
    Nat.toDigits 10 n ++ rest ≠ '-' :: tail := by
  obtain ⟨c, digits, isText, isDigit⟩ := exists_digit n
  rw [isText]
  intro same
  rw [(List.cons.inj same).1] at isDigit
  exact absurd isDigit (by decide)

/-- Integers are read off. -/
theorem readsOff_int (m : Int) : ReadsOff (fun n : Int => (toString n).toList) (fun _ => True) m := by
  rintro n - rest rest' ends ends' same
  dsimp only at same
  cases m with
  | ofNat m =>
      cases n with
      | ofNat n =>
          rw [toList_ofNat, toList_ofNat] at same
          obtain ⟨rfl, restSame⟩ := toDigits_append_inj ends ends' same
          exact ⟨rfl, restSame⟩
      | negSucc n =>
          rw [toList_ofNat, toList_negSucc] at same
          exact absurd same (toDigits_append_ne_minus m rest _)
  | negSucc m =>
      cases n with
      | ofNat n =>
          rw [toList_ofNat, toList_negSucc] at same
          exact absurd same.symm (toDigits_append_ne_minus n rest' _)
      | negSucc n =>
          rw [toList_negSucc, toList_negSucc] at same
          obtain ⟨equal, restSame⟩ := toDigits_append_inj ends ends' (List.cons.inj same).2
          obtain rfl := Nat.succ.inj equal
          exact ⟨rfl, restSame⟩

/-! ### Rows of things -/

section

variable {α : Type} (write : α → List Char) (close : Char)

/-- The rest of a row: a comma before each thing, and a closing sign after the last one. -/
def continued : List α → List Char → List Char
  | [], rest => close :: rest
  | thing :: things, rest => ',' :: ' ' :: (write thing ++ continued things rest)

/-- A row of things with commas between them, up to its closing sign. -/
def closed : List α → List Char → List Char
  | [], rest => close :: rest
  | thing :: things, rest => write thing ++ continued write close things rest

variable {write close}

/-- The texts of things with commas between them make a row. -/
theorem intercalate_append_close (things : List α) (rest : List Char) :
    [',', ' '].intercalate (things.map write) ++ close :: rest = closed write close things rest := by
  have goesOn : ∀ (thing : α) (things : List α),
      [',', ' '].intercalate ((thing :: things).map write) ++ close :: rest =
        write thing ++ continued write close things rest := by
    intro thing things
    induction things generalizing thing with
    | nil => simp [continued]
    | cons next things inductionHypothesis =>
        have later := inductionHypothesis next
        rw [List.map_cons] at later
        rw [List.map_cons, List.map_cons, List.intercalate_cons_cons, List.append_assoc,
          List.append_assoc, later, continued]
        rfl
  cases things with
  | nil => rfl
  | cons thing things => exact goesOn thing things

variable {among : α → Prop} {things others : List α} {rest rest' : List Char}

/-- After a thing in a row there is no digit. -/
theorem endsWord_continued (noDigit : close.isDigit = false) (things : List α) (rest : List Char) :
    EndsWord (continued write close things rest) := by
  cases things with
  | nil => exact endsWord_cons noDigit rest
  | cons thing things => exact endsWord_cons (by decide) _

/-- The rest of a row is read off if each thing is. -/
theorem continued_inj (noDigit : close.isDigit = false) (noComma : close ≠ ',')
    (readsOff : ∀ thing ∈ things, ReadsOff write among thing) (areAmong : ∀ other ∈ others, among other)
    (same : continued write close things rest = continued write close others rest') :
    things = others ∧ rest = rest' := by
  induction things generalizing others with
  | nil =>
      cases others with
      | nil => exact ⟨rfl, (List.cons.inj same).2⟩
      | cons other others => exact absurd (List.cons.inj same).1 noComma
  | cons thing things inductionHypothesis =>
      cases others with
      | nil => exact absurd (List.cons.inj same).1.symm noComma
      | cons other others =>
          have after := (List.cons.inj (List.cons.inj same).2).2
          obtain ⟨rfl, later⟩ := readsOff thing List.mem_cons_self other
            (areAmong other List.mem_cons_self) _ _ (endsWord_continued noDigit things rest)
            (endsWord_continued noDigit others rest') after
          obtain ⟨rfl, restSame⟩ := inductionHypothesis
            (fun thing isIn => readsOff thing (List.mem_cons_of_mem _ isIn))
            (fun other isIn => areAmong other (List.mem_cons_of_mem _ isIn)) later
          exact ⟨rfl, restSame⟩

/-- A row is read off if each thing is, and if none of them begins with the closing sign. -/
theorem closed_inj (noDigit : close.isDigit = false) (noComma : close ≠ ',')
    (opens : ∀ thing, among thing → ∀ text tail, write thing ++ text ≠ close :: tail)
    (areThings : ∀ thing ∈ things, among thing)
    (readsOff : ∀ thing ∈ things, ReadsOff write among thing) (areAmong : ∀ other ∈ others, among other)
    (same : closed write close things rest = closed write close others rest') :
    things = others ∧ rest = rest' := by
  cases things with
  | nil =>
      cases others with
      | nil => exact ⟨rfl, (List.cons.inj same).2⟩
      | cons other others =>
          exact absurd same.symm (opens other (areAmong other List.mem_cons_self) _ _)
  | cons thing things =>
      cases others with
      | nil => exact absurd same (opens thing (areThings thing List.mem_cons_self) _ _)
      | cons other others =>
          -- From the first comma on, both rows go on in the same way.
          exact continued_inj noDigit noComma readsOff areAmong
            (congrArg (fun text => ',' :: ' ' :: text) same)

end

/-! ### Legible data -/

/-- A name that keeps clear of the signs after it and at the end of a structure. -/
def IsLegibleName (name : String) : Prop :=
  ∀ c ∈ name.toList, c ≠ '=' ∧ c ≠ '\x7d'

/-- Names of letters, digits and underscores are legible. -/
theorem isLegibleName_of_letters {name : String}
    (letters : ∀ c ∈ name.toList, c.isAlphanum = true ∨ c = '_') : IsLegibleName name := by
  intro c isIn
  rcases letters c isIn with isLetter | rfl
  · exact ⟨by rintro rfl; revert isLetter; decide, by rintro rfl; revert isLetter; decide⟩
  · decide

namespace Datum

/-- The data that are made of words, `null`, arrays of such data, and structures of such data under
legible names. -/
inductive IsLegible : Datum → Prop where
  /-- A word. -/
  | int (n : Int) : IsLegible (.atom (.int n))
  /-- `null`. -/
  | null : IsLegible (.atom .null)
  /-- An array. -/
  | array {items : List Datum} (legible : ∀ item ∈ items, IsLegible item) : IsLegible (.array items)
  /-- A structure. -/
  | record {entries : List (Key × Datum)}
      (named : ∀ entry ∈ entries, ∃ name, entry.1 = .name name ∧ IsLegibleName name)
      (legible : ∀ entry ∈ entries, IsLegible entry.2) : IsLegible (.record entries)

/-- The characters of a datum. -/
def characters (datum : Datum) : List Char :=
  datum.text.toList

/-- The characters of an entry of a structure. -/
def entryCharacters (entry : Key × Datum) : List Char :=
  entry.1.text.toList ++ '=' :: entry.2.characters

/-- An entry of a legible structure. -/
def IsLegibleEntry (entry : Key × Datum) : Prop :=
  (∃ name, entry.1 = .name name ∧ IsLegibleName name) ∧ entry.2.IsLegible

/-- The texts of data are those of the data one by one. -/
theorem textAll_eq_map (items : List Datum) : textAll items = items.map text := by
  induction items with
  | nil => rfl
  | cons item items inductionHypothesis => rw [textAll, inductionHypothesis, List.map_cons]

/-- The texts of entries are those of the entries one by one. -/
theorem textEntries_eq_map (entries : List (Key × Datum)) :
    textEntries entries = entries.map fun entry => entry.1.text ++ "=" ++ entry.2.text := by
  induction entries with
  | nil => rfl
  | cons entry entries inductionHypothesis => rw [textEntries, inductionHypothesis, List.map_cons]

/-- An array is a row of its elements. -/
theorem characters_array (items : List Datum) (rest : List Char) :
    (array items).characters ++ rest = '[' :: closed characters ']' items rest := by
  rw [← intercalate_append_close, characters, text, textAll_eq_map]
  simp only [String.toList_append, String.toList_intercalate, List.map_map, List.append_assoc]
  rfl

/-- A structure is a row of its entries. -/
theorem characters_record (entries : List (Key × Datum)) (rest : List Char) :
    (record entries).characters ++ rest = '\x7b' :: closed entryCharacters '\x7d' entries rest := by
  have written : String.toList ∘ (fun entry : Key × Datum => entry.1.text ++ "=" ++ entry.2.text) =
      entryCharacters := by
    funext entry
    simp [entryCharacters, characters]
  rw [← intercalate_append_close, characters, text, textEntries_eq_map]
  simp only [String.toList_append, String.toList_intercalate, List.map_map, List.append_assoc,
    written]
  rfl

/-- The kind of the datum that a character opens. -/
def kindOpenedBy (c : Char) : String :=
  if c = '[' then "list" else if c = '\x7b' then "dict" else if c = 'n' then "NoneType" else "int"

/-- A legible datum shows its kind by its first character, which closes no array. -/
theorem IsLegible.exists_opening {datum : Datum} (legible : datum.IsLegible) :
    ∃ c tail, datum.characters = c :: tail ∧ kindOpenedBy c = datum.kind ∧ c ≠ ']' := by
  cases legible with
  | int n =>
      cases n with
      | ofNat n =>
          obtain ⟨c, tail, isText, isDigit⟩ := exists_digit n
          refine ⟨c, tail, (toList_ofNat n).trans isText, ?_, ?_⟩
          -- No other kind of datum begins with a digit.
          · have other (sign : Char) (noDigit : sign.isDigit = false) : c ≠ sign := by
              rintro rfl
              rw [isDigit] at noDigit
              cases noDigit
            rw [kindOpenedBy, if_neg (other _ (by decide)), if_neg (other _ (by decide)),
              if_neg (other _ (by decide))]
            rfl
          · rintro rfl
            exact absurd isDigit (by decide)
      | negSucc n => exact ⟨'-', _, toList_negSucc n, rfl, by decide⟩
  | null => exact ⟨'n', ['u', 'l', 'l'], by decide, by decide, by decide⟩
  | @array items =>
      have isText := characters_array items []
      rw [List.append_nil] at isText
      exact ⟨'[', _, isText, rfl, by decide⟩
  | @record entries =>
      have isText := characters_record entries []
      rw [List.append_nil] at isText
      exact ⟨'\x7b', _, isText, rfl, by decide⟩

/-- An entry does not begin with the end of a structure. -/
theorem IsLegibleEntry.opens {entry : Key × Datum} (legible : IsLegibleEntry entry)
    (rest tail : List Char) : entryCharacters entry ++ rest ≠ '\x7d' :: tail := by
  obtain ⟨⟨name, isName, isLegible⟩, -⟩ := legible
  intro same
  rw [entryCharacters, isName] at same
  change name.toList ++ _ ++ rest = _ at same
  cases characters : name.toList with
  | nil =>
      rw [characters] at same
      exact absurd (List.cons.inj same).1 (by decide)
  | cons c others =>
      rw [characters] at same
      exact (isLegible c (characters ▸ List.mem_cons_self)).2 (List.cons.inj same).1

/-- An entry is read off if its value is. -/
theorem readsOff_entry {entry : Key × Datum} (legible : IsLegibleEntry entry)
    (readsOff : ReadsOff characters IsLegible entry.2) :
    ReadsOff entryCharacters IsLegibleEntry entry := by
  obtain ⟨key, value⟩ := entry
  rintro ⟨key', value'⟩ legible' rest rest' ends ends' same
  obtain ⟨⟨name, rfl, isLegible⟩, -⟩ := legible
  obtain ⟨⟨name', rfl, isLegible'⟩, valueLegible⟩ := legible'
  have clear {name : String} (isLegible : IsLegibleName name) :
      ∀ c ∈ name.toList, (c != '=') = true :=
    fun c isIn => bne_iff_ne.mpr (isLegible c isIn).1
  rw [entryCharacters, entryCharacters, List.append_assoc, List.append_assoc] at same
  obtain ⟨names, after⟩ := append_inj_of_kind (clear isLegible) (clear isLegible') (by simp)
    (by simp) same
  obtain ⟨rfl, restSame⟩ := readsOff value' valueLegible _ _ ends ends' (List.cons.inj after).2
  rw [String.toList_inj.mp names]
  exact ⟨rfl, restSame⟩

/-- Legible data that begin the same text are of one kind. -/
theorem IsLegible.kind_eq {datum other : Datum} (legible : datum.IsLegible)
    (legible' : other.IsLegible) {rest rest' : List Char}
    (same : datum.characters ++ rest = other.characters ++ rest') : datum.kind = other.kind := by
  obtain ⟨c, tail, isText, isKind, -⟩ := legible.exists_opening
  obtain ⟨c', tail', isText', isKind', -⟩ := legible'.exists_opening
  rw [isText, isText'] at same
  rw [← isKind, ← isKind', (List.cons.inj same).1]

/-- A legible datum is read off. -/
theorem IsLegible.readsOff {datum : Datum} (legible : datum.IsLegible) :
    ReadsOff characters IsLegible datum := by
  -- The elements of an array, and the values of a structure, are read off by induction.
  induction legible with
  | int n =>
      intro other legible rest rest' ends ends' same
      have kinds := kind_eq (.int n) legible same
      cases legible with
      | int m =>
          obtain ⟨rfl, restSame⟩ := readsOff_int n m trivial rest rest' ends ends' same
          exact ⟨rfl, restSame⟩
      | _ => simp [kind] at kinds
  | null =>
      intro other legible rest rest' ends ends' same
      have kinds := kind_eq .null legible same
      cases legible with
      | null => exact ⟨rfl, List.append_cancel_left same⟩
      | _ => simp [kind] at kinds
  | @array items areLegible inductionHypothesis =>
      intro other legible rest rest' ends ends' same
      have kinds := kind_eq (.array areLegible) legible same
      cases legible with
      | array areLegible' =>
          rw [characters_array, characters_array] at same
          have opens : ∀ item : Datum, item.IsLegible → ∀ text tail,
              item.characters ++ text ≠ ']' :: tail := by
            intro item legible text tail same
            obtain ⟨c, others, isText, -, noClose⟩ := legible.exists_opening
            rw [isText] at same
            exact noClose (List.cons.inj same).1
          obtain ⟨rfl, restSame⟩ := closed_inj (by decide) (by decide) opens areLegible
            inductionHypothesis areLegible' (List.cons.inj same).2
          exact ⟨rfl, restSame⟩
      | _ => simp [kind] at kinds
  | @record entries named areLegible inductionHypothesis =>
      intro other legible rest rest' ends ends' same
      have kinds := kind_eq (.record named areLegible) legible same
      cases legible with
      | record named' areLegible' =>
          rw [characters_record, characters_record] at same
          have entry : ∀ entry ∈ entries, IsLegibleEntry entry :=
            fun entry isIn => ⟨named entry isIn, areLegible entry isIn⟩
          obtain ⟨rfl, restSame⟩ := closed_inj (by decide) (by decide)
            (fun _ legible => legible.opens) entry
            (fun member isIn => readsOff_entry (entry member isIn) (inductionHypothesis member isIn))
            (fun member isIn => ⟨named' member isIn, areLegible' member isIn⟩)
            (List.cons.inj same).2
          exact ⟨rfl, restSame⟩
      | _ => simp [kind] at kinds

/-- Legible data have the same text only if they are the same. -/
theorem IsLegible.text_inj {datum other : Datum} (legible : datum.IsLegible)
    (legible' : other.IsLegible) : datum.text = other.text ↔ datum = other := by
  refine ⟨fun same => ?_, congrArg text⟩
  have characters : datum.characters ++ [] = other.characters ++ [] :=
    congrArg (fun text => text.toList ++ []) same
  exact (legible.readsOff other legible' [] [] endsWord_nil endsWord_nil characters).1

end Datum

/-! ### Printing and joining -/

/-- Printing a value adds a line with its text, which is the result as well. -/
theorem Eval.run_print (copy : Copy) (machine : Machine) :
    ∃ result final, (Eval.print copy).run machine = .done result final ∧
      result.value = .string (machine.heap.unfold copy.value).text ∧
      final.output = machine.output ++ (machine.heap.unfold copy.value).text ++ "\n" :=
  ⟨_, _, rfl, by rw [Copy.value_keep, Copy.value_shown], rfl⟩

namespace Operation

/-- A text stands for itself where texts are joined. -/
theorem text_of_string (heap : Heap) {copy : Copy} {text : String} (isText : copy.value = .string text) :
    Operand.text heap (.item copy) = text := by
  change (heap.unfold copy.value).text = text
  rw [isText]
  rfl

variable [NumericLibrary]

/-- Adding an operand to a text joins its text to that one. -/
theorem diadic_text_left (heap : Heap) (type : StaticType) {copy : Copy} {text : String}
    (isText : copy.value = .string text) (operand : Operand) :
    ∃ joined, diadic heap (.arithmetic .add) .string type (.item copy) operand = .ok (.item joined) ∧
      joined.value = .string (text ++ operand.text heap) := by
  have rule : ruleFor (.arithmetic .add) .string type = .join := if_pos ⟨rfl, .inl rfl⟩
  refine ⟨join heap (.item copy) operand, ?_, ?_⟩
  · rw [diadic, rule]
  · rw [value_join, text_of_string heap isText]

/-- Adding a text to an operand joins it to the text of that one. -/
theorem diadic_text_right (heap : Heap) (type : StaticType) {copy : Copy} {text : String}
    (isText : copy.value = .string text) (operand : Operand) :
    ∃ joined, diadic heap (.arithmetic .add) type .string operand (.item copy) = .ok (.item joined) ∧
      joined.value = .string (operand.text heap ++ text) := by
  have rule : ruleFor (.arithmetic .add) type .string = .join := if_pos ⟨rfl, .inr rfl⟩
  refine ⟨join heap operand (.item copy), ?_, ?_⟩
  · rw [diadic, rule]
  · rw [value_join, text_of_string heap isText]

end Operation

/-! ### Telling data apart -/

namespace Datum

/-- **Texts tell data apart.** For legible data (words, `null`, arrays, and structures with legible
names, at any depth) `left.text = right.text ↔ left = right`: the same words, arrays of the same
length with the same elements, and structures with the same fields in the same order. So for values
that unfold to `left` and `right`,

* printing them after the same output leads to the same output only if `left = right`;
* joining them to the same text, from either side, gives the same text only if `left = right`. -/
theorem text_tells_apart [NumericLibrary] {left right : Datum} (leftLegible : left.IsLegible)
    (rightLegible : right.IsLegible) :
    (left.text = right.text ↔ left = right) ∧
    (∀ (machine machine' : Machine) (copy copy' : Copy),
      machine.heap.unfold copy.value = left → machine'.heap.unfold copy'.value = right →
      machine.output = machine'.output →
      ∃ result final result' final',
        (Eval.print copy).run machine = .done result final ∧
        (Eval.print copy').run machine' = .done result' final' ∧
        (result.value = result'.value ↔ left = right) ∧
        (final.output = final'.output ↔ left = right)) ∧
    ∀ (heap heap' : Heap) (operand operand' : Operand) (type type' : StaticType) (copy : Copy)
      (text : String), operand.unfold heap = left → operand'.unfold heap' = right →
      copy.value = .string text →
      (∃ joined joined',
        Operation.diadic heap (.arithmetic .add) .string type (.item copy) operand =
          .ok (.item joined) ∧
        Operation.diadic heap' (.arithmetic .add) .string type' (.item copy) operand' =
          .ok (.item joined') ∧
        (joined.value = joined'.value ↔ left = right)) ∧
      ∃ joined joined',
        Operation.diadic heap (.arithmetic .add) type .string operand (.item copy) =
          .ok (.item joined) ∧
        Operation.diadic heap' (.arithmetic .add) type' .string operand' (.item copy) =
          .ok (.item joined') ∧
        (joined.value = joined'.value ↔ left = right) := by
  have apart := leftLegible.text_inj rightLegible
  refine ⟨apart, ?_, ?_⟩
  · rintro machine machine' copy copy' rfl rfl sameOutput
    obtain ⟨result, final, ran, isText, added⟩ := Eval.run_print copy machine
    obtain ⟨result', final', ran', isText', added'⟩ := Eval.run_print copy' machine'
    refine ⟨result, final, result', final', ran, ran', ?_, ?_⟩
    · rw [isText, isText', Value.string.injEq, apart]
    · rw [added, added', sameOutput, String.append_left_inj, String.append_right_inj, apart]
  · rintro heap heap' operand operand' type type' copy text rfl rfl isText
    constructor
    · obtain ⟨joined, ran, value⟩ := Operation.diadic_text_left heap type isText operand
      obtain ⟨joined', ran', value'⟩ := Operation.diadic_text_left heap' type' isText operand'
      refine ⟨joined, joined', ran, ran', ?_⟩
      rw [value, value', Value.string.injEq, String.append_right_inj, ← apart]
      rfl
    · obtain ⟨joined, ran, value⟩ := Operation.diadic_text_right heap type isText operand
      obtain ⟨joined', ran', value'⟩ := Operation.diadic_text_right heap' type' isText operand'
      refine ⟨joined, joined', ran, ran', ?_⟩
      rw [value, value', Value.string.injEq, String.append_left_inj, ← apart]
      rfl

/-- A structure of an array with the given elements and `null`. -/
def shelf (items : List Datum) : Datum :=
  .record [(.name "row_1", .array items), (.name "top", .atom .null)]

/-- The structure of the example is legible if its items are. -/
theorem shelf_legible {items : List Datum} (legible : ∀ item ∈ items, item.IsLegible) :
    (shelf items).IsLegible := by
  have row : IsLegibleName "row_1" := isLegibleName_of_letters (by simp)
  have top : IsLegibleName "top" := isLegibleName_of_letters (by simp)
  refine .record ?_ ?_
  · exact List.forall_mem_cons.mpr
      ⟨⟨_, rfl, row⟩, List.forall_mem_singleton.mpr ⟨_, rfl, top⟩⟩
  · exact List.forall_mem_cons.mpr ⟨.array legible, List.forall_mem_singleton.mpr .null⟩

/-- The same words in other brackets have another text. -/
theorem text_tells_apart_brackets :
    letI : NumericLibrary := .standard
    let within := shelf [.array [.atom (.int 1), .atom (.int (-2))], .array []]
    let beside := shelf [.array [.atom (.int 1)], .atom (.int (-2)), .array []]
    within.IsLegible ∧ beside.IsLegible ∧
      within.text = "\x7brow_1=[[1, -2], []], top=null\x7d" ∧
      beside.text = "\x7brow_1=[[1], -2, []], top=null\x7d" ∧ within.text ≠ beside.text := by
  let : NumericLibrary := .standard
  intro within beside
  have one := IsLegible.int 1
  have two := IsLegible.int (-2)
  have empty : (Datum.array []).IsLegible := .array (List.forall_mem_nil _)
  have withinLegible : within.IsLegible := by
    refine shelf_legible (List.forall_mem_cons.mpr ⟨.array ?_, List.forall_mem_singleton.mpr empty⟩)
    exact List.forall_mem_cons.mpr ⟨one, List.forall_mem_singleton.mpr two⟩
  have besideLegible : beside.IsLegible := by
    refine shelf_legible (List.forall_mem_cons.mpr ⟨.array (List.forall_mem_singleton.mpr one), ?_⟩)
    exact List.forall_mem_cons.mpr ⟨two, List.forall_mem_singleton.mpr empty⟩
  refine ⟨withinLegible, besideLegible, by decide +kernel, by decide +kernel, fun same => ?_⟩
  have equal := (text_tells_apart withinLegible besideLegible).1.mp same
  simp [within, beside, shelf] at equal

end Datum

end ArrayForks
