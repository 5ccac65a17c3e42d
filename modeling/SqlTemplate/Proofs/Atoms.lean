import Mathlib.Data.Option.Basic
import SqlTemplate.Json.Reader
import SqlTemplate.Proofs.Basic

/-!
# JSON values at the front of a text

The readers of JSON carry proofs that they come to an end. What they read is stated here
without them: a value that holds no others, and an array item by item. A word that is no value
may begin like one, as `nullable` does, and then something of it is left (`left_of_word`).
-/

namespace SqlTemplate.Json
open SqlTemplate.Text SqlTemplate.Identifier

/-! ### Values that hold no others -/

/-- A value and what is left of the text, without the proof that something was read. -/
def read? (depth : Nat) (cs : List Char) : Option (Json × List Char) :=
  (value? depth cs).map fun (value, rest) => (value, rest.1)

theorem read?_eq_atom? {depth : Nat} {cs text : List Char} {c : Char}
    (front : skipSpace cs = c :: text) (noBracket : c ≠ '[') (noBrace : c ≠ '\x7b') :
    read? depth cs = atom? (c :: text) := by
  unfold read?
  rw [value?]
  split
  · next isFront =>
    rw [front] at isFront
    exact (noBracket (List.cons.inj isFront).1).elim
  · next isFront =>
    rw [front] at isFront
    exact (noBrace (List.cons.inj isFront).1).elim
  · next isFront =>
    rw [front] at isFront
    cases isFront
  · next c' text' _ _ isFront =>
    obtain ⟨rfl, rfl⟩ : c = c' ∧ text = text' := by simpa [front] using isFront
    split
    · next found => simp [found]
    · next found => simp [found]

theorem written?_eq_bind (text : String) :
    written? text = (read? maxDepth text.toList).bind fun (value, rest) =>
      if (skipSpace rest).isEmpty then some value else none := by
  unfold written? read? guard
  cases value? maxDepth text.toList with
  | none => rfl
  | some found =>
    obtain ⟨value, rest, _⟩ := found
    by_cases done : skipSpace rest = [] <;> simp [done]

/-- Items and what is left of the text, without the proof that something was read. -/
def readItems? (depth : Nat) (cs : List Char) : Option (List Json × List Char) :=
  (items? depth cs).map fun (items, rest) => (items, rest.1)

theorem read?_array {depth : Nat} {cs inner rest : List Char} {items : List Json}
    (front : skipSpace cs = '[' :: inner) (opens : ∀ rest, skipSpace inner ≠ ']' :: rest)
    (read : readItems? depth inner = some (items, rest)) :
    read? (depth + 1) cs = some (array items, rest) := by
  obtain ⟨⟨items', rest', shorter⟩, isItems, same⟩ := Option.map_eq_some_iff.mp read
  cases same
  unfold read?
  rw [value?]
  split
  · next inner' isFront =>
    obtain rfl : inner = inner' := by simpa [front] using isFront
    simp only [Nat.add_one_ne_zero, if_false, Nat.add_one_sub_one, isItems]
    rfl
  · next isFront =>
    rw [front] at isFront
    cases isFront
  · next isFront =>
    rw [front] at isFront
    cases isFront
  · next noBracket _ isFront =>
    rw [front] at isFront
    cases isFront
    exact (noBracket rfl).elim

theorem value?_of_read? {depth : Nat} {cs after : List Char} {value : Json}
    (read : read? depth cs = some (value, after)) :
    ∃ shorter, value? depth cs = some (value, ⟨after, shorter⟩) := by
  obtain ⟨⟨value, after, shorter⟩, isValue, same⟩ := Option.map_eq_some_iff.mp read
  cases same
  exact ⟨shorter, isValue⟩

theorem readItems?_cons {depth : Nat} {cs after more : List Char} {item : Json}
    (first : read? depth cs = some (item, after)) (comma : skipSpace after = ',' :: more) :
    readItems? depth cs = (readItems? depth more).map (Prod.map (item :: ·) id) := by
  obtain ⟨shorter, isItem⟩ := value?_of_read? first
  unfold readItems?
  rw [items?, isItem]
  simp only [Option.bind_eq_bind, Option.bind_some]
  split
  · next more' isComma =>
    obtain rfl : more = more' := by simpa [comma] using isComma
    cases items? depth more <;> rfl
  · next isClosed => simp [comma] at isClosed
  · next noComma _ => exact (noComma more comma).elim

theorem readItems?_last {depth : Nat} {cs after rest : List Char} {item : Json}
    (last : read? depth cs = some (item, after)) (closed : skipSpace after = ']' :: rest) :
    readItems? depth cs = some ([item], rest) := by
  obtain ⟨shorter, isItem⟩ := value?_of_read? last
  unfold readItems?
  rw [items?, isItem]
  simp only [Option.bind_eq_bind, Option.bind_some]
  split
  · next isComma => simp [closed] at isComma
  · next rest' isClosed =>
    obtain rfl : rest = rest' := by simpa [closed] using isClosed
    rfl
  · next noClose => exact (noClose rest closed).elim

/-! ### Words, integers and strings -/

/-- What stands behind an item of a list. -/
def Follows (rest : List Char) : Prop := ∀ c ∈ rest.head?, c = ' ' ∨ c = ',' ∨ c = ']'

theorem numeral?_integer (negative : Bool) {digits rest : List Char} (nonempty : digits ≠ [])
    (all : ∀ d ∈ digits, d.isDigit) (noZero : digits.head? ≠ some '0' ∨ digits.length = 1)
    (follows : Follows rest) :
    numeral? ((if negative then '-' :: digits else digits) ++ rest) =
      some (⟨negative, digits, none, none⟩, rest) := by
  have sign : minus ((if negative then '-' :: digits else digits) ++ rest) =
      (negative, digits ++ rest) := by
    cases negative with
    | true => rfl
    | false =>
      obtain ⟨d, ds, rfl⟩ := List.exists_cons_of_ne_nil nonempty
      have isDigit := all d List.mem_cons_self
      have noMinus : d ≠ '-' := by
        rintro rfl
        exact absurd isDigit (by decide)
      simp [minus, noMinus]
  have taken : digits? (digits ++ rest) = some (digits, rest) := by
    have stops : ∀ c ∈ rest.head?, c.isDigit = false := by
      intro c first
      rcases follows c first with rfl | rfl | rfl <;> decide
    obtain ⟨run, left⟩ := span_append all stops
    unfold digits?
    rw [run, left]
    cases digits with
    | nil => exact absurd rfl nonempty
    | cons d ds => rfl
  have noFraction : fraction? rest = some (none, rest) := by
    cases rest with
    | nil => rfl
    | cons c cs => rcases follows c rfl with rfl | rfl | rfl <;> rfl
  have noExponent : exponent? rest = some (none, rest) := by
    cases rest with
    | nil => rfl
    | cons c cs => rcases follows c rfl with rfl | rfl | rfl <;> rfl
  unfold numeral? guard
  rw [sign]
  simp [taken, noFraction, noExponent, noZero]

/-- Characters that stand for themselves in a string. -/
def Plain (c : Char) : Prop := c ≠ '"' ∧ c ≠ '\\' ∧ ¬ c.toNat < 0x20

instance (c : Char) : Decidable (Plain c) := inferInstanceAs (Decidable (_ ∧ _))

theorem stringTail?_of_plain {cs : List Char} (plain : ∀ c ∈ cs, Plain c) (rest : List Char) :
    stringTail? (cs ++ '"' :: rest) = some (cs, rest) := by
  induction cs with
  | nil => rw [List.nil_append, stringTail?]
  | cons c cs ih =>
    obtain ⟨⟨noQuote, noSlash, noControl⟩, others⟩ := List.forall_mem_cons.mp plain
    rw [List.cons_append, stringTail?, if_neg noControl, ih others]
    · rfl
    · exact noQuote
    · exact noSlash

theorem plain_of_isTail {c : Char} (tail : isTail c) : Plain c := by
  refine ⟨?_, ?_, ?_⟩
  · rintro rfl
    exact absurd tail (by decide)
  · rintro rfl
    exact absurd tail (by decide)
  · rcases range_of_isTail tail with range | rfl
    · omega
    · decide

/-- A text that does not begin like a string or a word is read as a number. -/
theorem atom?_eq_numeral? {c : Char} {cs : List Char} (other : c ∉ ['"', 'n', 't', 'f']) :
    atom? (c :: cs) = (numeral? (c :: cs)).bind fun (numeral, rest) =>
      numeral.value?.map (·, rest) := by
  simp only [List.mem_cons, List.not_mem_nil, or_false, not_or] at other
  obtain ⟨noQuote, noNull, noTrue, noFalse⟩ := other
  unfold atom?
  split
  · next isQuote => exact (noQuote (List.cons.inj isQuote).1).elim
  split
  · next found =>
    simp [words, behind?, Ne.symm noNull, Ne.symm noTrue, Ne.symm noFalse] at found
  · cases numeral? (c :: cs) with
    | none => rfl
    | some found => cases isValue : found.1.value? <;> simp [isValue]

theorem atom?_of_mem_words {word : String} {value : Json} (known : (word, value) ∈ words)
    (rest : List Char) : atom? (word.toList ++ rest) = some (value, rest) := by
  simp only [words, List.mem_cons, Prod.mk.injEq, List.not_mem_nil, or_false] at known
  rcases known with ⟨rfl, rfl⟩ | ⟨rfl, rfl⟩ | ⟨rfl, rfl⟩
  · simp [atom?, words, behind?]
  · simp [atom?, words, behind?]
  · simp [atom?, words, behind?]

theorem not_isDigit_of_letter {c : Char} (letter : c.isAlpha || c == '_') : c.isDigit = false := by
  rw [Bool.eq_false_iff]
  intro digit
  unfold Char.isAlpha Char.isUpper Char.isLower at letter
  unfold Char.isDigit at digit
  simp only [Bool.or_eq_true, Bool.and_eq_true, decide_eq_true_eq, beq_iff_eq, ge_iff_le,
    UInt32.le_iff_toNat_le] at letter digit
  rcases letter with range | rfl
  · have high : 65 ≤ c.val.toNat := by
      rcases range with upper | lower
      · exact upper.1
      · exact Nat.le_trans (by decide) lower.1
    have low : c.val.toNat ≤ 57 := digit.2
    omega
  · exact absurd digit (by decide)

theorem numeral?_of_head {c : Char} {cs : List Char} (noMinus : c ≠ '-')
    (noDigit : c.isDigit = false) : numeral? (c :: cs) = none := by
  have sign : minus (c :: cs) = (false, c :: cs) := by simp [minus, noMinus]
  have none : digits? (c :: cs) = none := by simp [digits?, noDigit]
  unfold numeral?
  rw [sign]
  simp [none]

/-- Of a word that is no value, something is left even if it begins like one. -/
theorem left_of_word {text rest after : List Char} {value : Json}
    (head : text.head?.any fun c => c.isAlpha || c == '_') (tail : ∀ c ∈ text, isTail c)
    (unknown : words.lookup (String.ofList text) = none) (follows : Follows rest)
    (read : atom? (text ++ rest) = some (value, after)) :
    ∃ c more, after = c :: more ∧ isTail c := by
  have other : ∀ entry ∈ words, entry.1.toList ≠ text := by
    rintro entry member rfl
    simpa using List.lookup_eq_none_iff.mp unknown entry member
  obtain ⟨c, cs, rfl, letter⟩ := exists_cons_of_any_head head
  unfold atom? at read
  split at read
  · next isQuote =>
    obtain rfl : c = '"' := (List.cons.inj isQuote).1
    exact absurd letter (by decide)
  split at read
  · next found =>
    obtain rfl := Option.some.inj read
    obtain ⟨⟨word, v⟩, member, matched⟩ := List.exists_of_findSome?_eq_some found
    obtain ⟨after', front, same⟩ := Option.map_eq_some_iff.mp matched
    obtain ⟨rfl, rfl⟩ : v = value ∧ after' = after := by simpa using same
    -- either the value is longer than the word, or the word is longer than the value
    rcases List.append_eq_append_iff.mp (behind?_eq_some_iff.mp front) with
      ⟨more, isWord, isRest⟩ | ⟨more, isText, isAfter⟩
    · cases more with
      | nil => exact absurd (isWord.trans (List.append_nil _)) (other _ member)
      | cons d more =>
        have letters : ∀ entry ∈ words, entry.1.toList.all isTail := by decide
        have isLetter : isTail d := List.all_eq_true.mp (letters _ member) d (by simp [isWord])
        rcases follows d (by simp [isRest]) with rfl | rfl | rfl
        all_goals exact absurd isLetter (by decide)
    · cases more with
      | nil => exact absurd (isText.trans (List.append_nil _)).symm (other _ member)
      | cons d more => exact ⟨d, more ++ rest, isAfter, tail d (by simp [isText])⟩
  · have noMinus : c ≠ '-' := by
      rintro rfl
      exact absurd letter (by decide)
    rw [List.cons_append, numeral?_of_head noMinus (not_isDigit_of_letter letter)] at read
    cases read

theorem mem_words_of_lookup {word : String} {value : Json}
    (known : words.lookup word = some value) : (word, value) ∈ words := by
  obtain ⟨before, after, split, _⟩ := List.lookup_eq_some_iff.mp known
  simp [split]

/-! ### Texts that are one value -/

theorem parse?_of_written? {text : String} {value : Json} (written : written? text = some value)
    (settled : ∀ read?, settleWith read? value = some value) : parse? text = some value := by
  unfold parse?
  cases text.length <;> simp [parseWithin, written, settled]

theorem parse?_eq_none {text : String} (unwritten : written? text = none) : parse? text = none := by
  unfold parse?
  cases text.length <;> simp [parseWithin, unwritten]

/-- A text is no JSON if more than white space is left behind any value. -/
theorem written?_eq_none {text : String}
    (left : ∀ value after, read? maxDepth text.toList = some (value, after) →
      skipSpace after ≠ []) : written? text = none := by
  rw [written?_eq_bind]
  cases read : read? maxDepth text.toList with
  | none => rfl
  | some found => simpa using left found.1 found.2 read

theorem skipSpace_spaces {n : Nat} {cs : List Char} (shown : ∀ c ∈ cs.head?, isSpace c = false) :
    skipSpace (List.replicate n ' ' ++ cs) = cs := by
  have spaces : ∀ c ∈ List.replicate n ' ', isSpace c := by
    intro c member
    rw [List.eq_of_mem_replicate member]
    rfl
  exact (span_append spaces shown).2

end SqlTemplate.Json
