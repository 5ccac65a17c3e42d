import SqlTemplate.CommandLine.Arguments
import SqlTemplate.Proofs.Atoms
import SqlTemplate.Proofs.Normal

/-!
# Lists on the command line

A list is given as a JSON array, or as its items with commas between them. Items that are
words or integers give the same list both ways (`list_spellings_agree`), although the second
way goes through a value that is no JSON as a whole.
-/

namespace SqlTemplate.CommandLine
open SqlTemplate.Text SqlTemplate.Identifier

/-! ### Items of lists -/

/-- An item of a list: a word, or an integer with its digits. -/
inductive ListItem where
  | word (text : List Char)
  | integer (negative : Bool) (digits : List Char)

namespace ListItem

/-- The number that digits with a sign stand for. -/
def signed (negative : Bool) (digits : List Char) : Int :=
  if negative then -(Json.valueOfDigits digits : Int) else Json.valueOfDigits digits

/-- Words are made of letters, digits and underscores, and do not begin with a digit. Integers
have sixty-four bits, and digits without a leading zero. -/
inductive Fits : ListItem → Prop where
  | word {text : List Char} (head : text.head?.any fun c => c.isAlpha || c == '_')
      (tail : ∀ c ∈ text, isTail c) : Fits (word text)
  | integer {negative : Bool} {digits : List Char} (nonempty : digits ≠ [])
      (all : ∀ d ∈ digits, d.isDigit) (noZero : digits.head? ≠ some '0' ∨ digits.length = 1)
      (least : Int64.minValue.toInt ≤ signed negative digits)
      (greatest : signed negative digits ≤ Int64.maxValue.toInt) : Fits (integer negative digits)

/-- An item as it is written between commas. -/
def bare : ListItem → List Char
  | word text => text
  | integer negative digits => if negative then '-' :: digits else digits

/-- An item as it is written in a JSON array: words are strings, unless they are values. -/
def json : ListItem → List Char
  | word text =>
    if (Json.words.lookup (String.ofList text)).isSome then text else '"' :: (text ++ ['"'])
  | integer negative digits => (integer negative digits).bare

/-- The value of an item. A negative zero is a double. -/
def value : ListItem → Json
  | word text => (Json.words.lookup (String.ofList text)).getD (.string (String.ofList text))
  | integer negative digits =>
    if negative && Json.valueOfDigits digits == 0 then .number (-Float.ofNat 0)
    else .integer (signed negative digits)

variable {item : ListItem} {rest : List Char}

theorem settled (item : ListItem) (read? : String → Option Json) :
    Json.settleWith read? item.value = some item.value := by
  cases item with
  | word text =>
    rw [value]
    cases known : Json.words.lookup (String.ofList text) with
    | none => simp [Json.settleWith]
    | some value =>
      have member := Json.mem_words_of_lookup known
      simp only [Json.words, List.mem_cons, Prod.mk.injEq, List.not_mem_nil, or_false] at member
      rcases member with ⟨_, rfl⟩ | ⟨_, rfl⟩ | ⟨_, rfl⟩
      all_goals simp [Json.settleWith]
  | integer negative digits =>
    simp only [value]
    split_ifs <;> simp [Json.settleWith]

/-- A numeral of an integer has the value of the integer. -/
theorem numeral_value? {negative : Bool} {digits : List Char}
    (least : Int64.minValue.toInt ≤ signed negative digits)
    (greatest : signed negative digits ≤ Int64.maxValue.toInt) :
    Json.Numeral.value? ⟨negative, digits, none, none⟩ =
      some (integer negative digits).value := by
  have minimum : Int64.minValue.toInt = -9223372036854775808 := rfl
  have maximum : Int64.maxValue.toInt = 9223372036854775807 := rfl
  have limit : Json.significandLimit = 18446744073709551615 := rfl
  rw [minimum] at least
  rw [maximum] at greatest
  cases negative with
  | false =>
    simp only [signed, Bool.false_eq_true, if_false] at greatest
    have small : Json.valueOfDigits digits ≤ Json.significandLimit := by omega
    simp [Json.Numeral.value?, value, signed, small]
  | true =>
    simp only [signed, if_true] at least
    have small : Json.valueOfDigits digits ≤ Json.significandLimit := by omega
    by_cases zero : Json.valueOfDigits digits = 0
    · simp [Json.Numeral.value?, value, zero]
    · have positive : 0 < Json.valueOfDigits digits := Nat.pos_of_ne_zero zero
      have above : (Json.valueOfDigits digits : Int) ≤ 9223372036854775808 := by omega
      simp [Json.Numeral.value?, value, signed, small, zero, positive, above]

/-- An integer is read as its value. -/
theorem atom?_integer {negative : Bool} {digits : List Char}
    (fits : (integer negative digits).Fits) (follows : Json.Follows rest) :
    Json.atom? ((integer negative digits).bare ++ rest) =
      some ((integer negative digits).value, rest) := by
  obtain _ | ⟨nonempty, all, noZero, least, greatest⟩ := fits
  have read := Json.numeral?_integer negative nonempty all noZero follows
  have isValue := numeral_value? least greatest
  obtain ⟨d, ds, rfl⟩ := List.exists_cons_of_ne_nil nonempty
  have front : ∃ c cs, (integer negative (d :: ds)).bare ++ rest = c :: cs ∧
      c ∉ ['"', 'n', 't', 'f'] := by
    cases negative with
    | true => exact ⟨'-', _, rfl, by decide⟩
    | false =>
      refine ⟨d, ds ++ rest, rfl, ?_⟩
      have isDigit := all d List.mem_cons_self
      intro member
      simp only [List.mem_cons, List.not_mem_nil, or_false] at member
      rcases member with rfl | rfl | rfl | rfl
      all_goals exact absurd isDigit (by decide)
  obtain ⟨c, cs, whole, other⟩ := front
  rw [whole, Json.atom?_eq_numeral? other, ← whole, bare, read]
  simp [isValue]

/-- What is written in an array is read as the value of the item. -/
theorem atom?_json (fits : item.Fits) (follows : Json.Follows rest) :
    Json.atom? (item.json ++ rest) = some (item.value, rest) := by
  cases item with
  | word text =>
    obtain ⟨head, tail⟩ | _ := fits
    simp only [json, value]
    cases known : Json.words.lookup (String.ofList text) with
    | some value =>
      have read := Json.atom?_of_mem_words (Json.mem_words_of_lookup known) rest
      simpa using read
    | none =>
      have plain := fun c member => Json.plain_of_isTail (tail c member)
      have read := Json.stringTail?_of_plain plain rest
      simp [Json.atom?, read]
  | integer negative digits => exact atom?_integer fits follows

/-- What is written between commas is read as the value of the item, or it is a word that is no
value, and something of it is left if it begins like one. -/
theorem atom?_bare (fits : item.Fits) (follows : Json.Follows rest) :
    Json.atom? (item.bare ++ rest) = some (item.value, rest) ∧ items item.value = [item.value] ∨
      item.value = .string (String.ofList item.bare) ∧
        ∀ value after, Json.atom? (item.bare ++ rest) = some (value, after) →
          ∃ c more, after = c :: more ∧ isTail c := by
  cases item with
  | word text =>
    obtain ⟨head, tail⟩ | _ := fits
    cases known : Json.words.lookup (String.ofList text) with
    | some value =>
      have member := Json.mem_words_of_lookup known
      have read := Json.atom?_of_mem_words member rest
      refine Or.inl ⟨by simpa [ListItem.value, known, bare] using read, ?_⟩
      have one : ∀ entry ∈ Json.words, items entry.2 = [entry.2] := by
        simp [Json.words, items]
      simpa [ListItem.value, known] using one _ member
    | none =>
      refine Or.inr ⟨by simp [ListItem.value, known, bare], ?_⟩
      intro value after read
      exact Json.left_of_word head tail known follows read
  | integer negative digits =>
    refine Or.inl ⟨atom?_integer fits follows, ?_⟩
    simp only [value]
    split_ifs <;> rfl

theorem shown (fits : item.Fits) : ∀ c ∈ item.bare, isTail c ∨ c = '-' := by
  have digit : ∀ c : Char, c.isDigit → isTail c := by
    intro c digit
    simp [isTail, Char.isAlphanum, digit]
  intro c member
  cases fits with
  | word head tail => exact Or.inl (tail c member)
  | @integer negative digits nonempty all noZero least greatest =>
    cases negative with
    | true =>
      rcases List.mem_cons.mp member with rfl | inside
      · exact Or.inr rfl
      · exact Or.inl (digit c (all c inside))
    | false => exact Or.inl (digit c (all c member))

theorem exists_bare (fits : item.Fits) : ∃ c cs, item.bare = c :: cs := by
  apply List.exists_cons_of_ne_nil
  cases fits with
  | word head tail =>
    rintro (rfl : _ = [])
    simp at head
  | @integer negative digits nonempty all noZero least greatest =>
    cases negative with
    | true => exact List.cons_ne_nil _ _
    | false => exact nonempty

/-- What an item may begin with: a word, a sign, a digit, or a quote in an array. -/
def Begins (c : Char) : Prop := isTail c ∨ c = '-' ∨ c = '"'

theorem exists_json (fits : item.Fits) : ∃ c cs, item.json = c :: cs ∧ Begins c := by
  obtain ⟨c, cs, whole⟩ := exists_bare fits
  have begins : Begins c := (shown fits c (by simp [whole])).imp_right Or.inl
  cases item with
  | word text =>
    obtain rfl : text = c :: cs := whole
    by_cases known : (Json.words.lookup (String.ofList (c :: cs))).isSome
    · exact ⟨c, cs, if_pos known, begins⟩
    · exact ⟨'"', c :: cs ++ ['"'], if_neg known, Or.inr (Or.inr rfl)⟩
  | integer negative digits => exact ⟨c, cs, whole, begins⟩

/-- An item begins neither with a space nor with a bracket. -/
theorem Begins.ne {c : Char} (first : Begins c) :
    ∀ d ∈ [' ', '\t', '\n', '\r', '[', ']', '\x7b'], c ≠ d := by
  rintro d member rfl
  unfold Begins at first
  simp only [List.mem_cons, List.not_mem_nil, or_false] at member
  rcases member with rfl | rfl | rfl | rfl | rfl | rfl | rfl
  all_goals exact absurd first (by decide)

theorem Begins.skipSpace_eq {c : Char} (first : Begins c) (before : Nat) (cs : List Char) :
    Json.skipSpace (List.replicate before ' ' ++ c :: cs) = c :: cs := by
  have none := first.ne
  apply Json.skipSpace_spaces
  simp [Json.isSpace, none ' ' (by simp), none '\t' (by simp), none '\n' (by simp),
    none '\r' (by simp)]

/-- An item is read behind spaces. -/
theorem Begins.read?_eq {c : Char} (first : Begins c) (depth before : Nat) (cs : List Char) :
    Json.read? depth (List.replicate before ' ' ++ c :: cs) = Json.atom? (c :: cs) :=
  Json.read?_eq_atom? (first.skipSpace_eq before cs) (first.ne _ (by simp)) (first.ne _ (by simp))

end ListItem

/-- An item with spaces around it. -/
structure SpacedItem where
  before : Nat
  item : ListItem
  after : Nat

/-- How an item with spaces around it is written. -/
def SpacedItem.text (spaced : SpacedItem) : List Char :=
  List.replicate spaced.before ' ' ++ (spaced.item.bare ++ List.replicate spaced.after ' ')

namespace SpacedItem
variable {spaced : SpacedItem} {rest : List Char}

theorem isBlank_of_mem_spaces {n : Nat} {c : Char} (member : c ∈ List.replicate n ' ') :
    isBlank c := by
  rw [List.eq_of_mem_replicate member]
  decide

theorem trim_text (fits : spaced.item.Fits) : trim spaced.text = spaced.item.bare := by
  have shown : ∀ c ∈ spaced.item.bare, isBlank c = false := by
    intro c member
    rcases ListItem.shown fits c member with tail | rfl
    · exact shown_of_isTail tail
    · decide
  obtain ⟨c, cs, whole⟩ := ListItem.exists_bare fits
  have front : spaced.text.dropWhile isBlank =
      spaced.item.bare ++ List.replicate spaced.after ' ' := by
    refine (span_append (fun _ => isBlank_of_mem_spaces) ?_).2
    intro d first
    obtain rfl : c = d := by simpa [whole] using first
    exact shown c (by simp [whole])
  rw [trim, front, Sql.trimEnd_append_blanks (fun _ => isBlank_of_mem_spaces)]
  refine Sql.trimEnd_of_last_shown ?_
  intro d last
  exact shown d (List.mem_of_getLast? last)

/-- Behind an item in spaces there is a comma, if anything. -/
theorem follows_spaces {n : Nat} (comma : ∀ c ∈ rest.head?, c = ',') :
    Json.Follows (List.replicate n ' ' ++ rest) := by
  cases n with
  | zero => exact fun c first => Or.inr (Or.inl (comma c first))
  | succ n => simp [Json.Follows, List.replicate_succ]

theorem read?_text (fits : spaced.item.Fits) (depth : Nat) (rest : List Char) :
    Json.read? depth (spaced.text ++ rest) =
      Json.atom? (spaced.item.bare ++ (List.replicate spaced.after ' ' ++ rest)) := by
  obtain ⟨c, cs, whole⟩ := ListItem.exists_bare fits
  have begins : ListItem.Begins c := (ListItem.shown fits c (by simp [whole])).imp_right Or.inl
  have text : spaced.text ++ rest = List.replicate spaced.before ' ' ++
      c :: (cs ++ (List.replicate spaced.after ' ' ++ rest)) := by
    simp [SpacedItem.text, whole]
  rw [text, begins.read?_eq, whole, List.cons_append]

theorem skipSpace_ne_nil {c : Char} (tail : isTail c) (cs : List Char) :
    Json.skipSpace (c :: cs) ≠ [] := by
  have begins : ListItem.Begins c := Or.inl tail
  have same : Json.skipSpace (c :: cs) = c :: cs := begins.skipSpace_eq 0 cs
  rw [same]
  exact List.cons_ne_nil c cs

/-- A text that begins with an item in spaces and a comma is no JSON. -/
theorem parse?_append_comma (fits : spaced.item.Fits) (more : List Char) :
    Json.parse? (String.ofList (spaced.text ++ ',' :: more)) = none := by
  have follows : Json.Follows (List.replicate spaced.after ' ' ++ ',' :: more) :=
    follows_spaces (by simp)
  refine Json.parse?_eq_none (Json.written?_eq_none ?_)
  intro value after read
  rw [String.toList_ofList, read?_text fits] at read
  rcases ListItem.atom?_bare fits follows with ⟨isValue, _⟩ | ⟨_, left⟩
  · obtain ⟨rfl, rfl⟩ : spaced.item.value = value ∧ _ = after := by simpa [isValue] using read
    rw [Json.skipSpace_spaces (by simp [Json.isSpace])]
    exact List.cons_ne_nil _ _
  · obtain ⟨c, more, rfl, tail⟩ := left value after read
    exact skipSpace_ne_nil tail more

/-- An item in spaces is read as its value, or as text. -/
theorem jsonOrText_text (fits : spaced.item.Fits) :
    jsonOrText (String.ofList spaced.text) = spaced.item.value ∧
        items spaced.item.value = [spaced.item.value] ∨
      jsonOrText (String.ofList spaced.text) = .string (String.ofList spaced.text) ∧
        spaced.item.value = .string (String.ofList spaced.item.bare) := by
  have follows : Json.Follows (List.replicate spaced.after ' ' ++ []) := follows_spaces (by simp)
  have read := read?_text fits Json.maxDepth []
  rw [List.append_nil] at read
  rcases ListItem.atom?_bare fits follows with ⟨isValue, single⟩ | ⟨isText, left⟩
  · refine Or.inl ⟨?_, single⟩
    have written : Json.written? (String.ofList spaced.text) = some spaced.item.value := by
      have done : Json.skipSpace (List.replicate spaced.after ' ' ++ []) = [] :=
        Json.skipSpace_spaces (by simp)
      rw [Json.written?_eq_bind, String.toList_ofList, read, isValue]
      simp only [Option.bind_some, done, List.isEmpty_nil, if_true]
    rw [jsonOrText, Json.parse?_of_written? written spaced.item.settled]
    rfl
  · refine Or.inr ⟨?_, isText⟩
    have unwritten : Json.written? (String.ofList spaced.text) = none := by
      refine Json.written?_eq_none ?_
      intro value after found
      rw [String.toList_ofList, read] at found
      obtain ⟨c, more, rfl, tail⟩ := left value after found
      exact skipSpace_ne_nil tail more
    rw [jsonOrText, Json.parse?_eq_none unwritten]
    rfl

end SpacedItem

theorem ListItem.jsonOrText_bare {item : ListItem} (fits : item.Fits) :
    jsonOrText (String.ofList item.bare) = item.value := by
  have whole : (⟨0, item, 0⟩ : SpacedItem).text = item.bare := by simp [SpacedItem.text]
  have fits' : (⟨0, item, 0⟩ : SpacedItem).item.Fits := fits
  have read := SpacedItem.jsonOrText_text fits'
  rw [whole] at read
  rcases read with ⟨isValue, _⟩ | ⟨isText, same⟩
  · exact isValue
  · exact isText.trans same.symm

theorem ListItem.read?_json {item : ListItem} (fits : item.Fits) (depth : Nat) (rest : List Char)
    (follows : Json.Follows rest) :
    Json.read? depth (item.json ++ rest) = some (item.value, rest) := by
  obtain ⟨c, cs, whole, first⟩ := ListItem.exists_json fits
  rw [← ListItem.atom?_json fits follows, whole]
  exact first.read?_eq depth 0 _

/-! ### Commas -/

theorem splitCommas_of_no_comma {cs : List Char} (none : ',' ∉ cs) : splitCommas cs = [cs] := by
  induction cs with
  | nil => rfl
  | cons c cs ih =>
    obtain ⟨first, rest⟩ := List.ne_and_not_mem_of_not_mem_cons none
    simp [splitCommas, Ne.symm first, ih rest]

theorem splitCommas_append {cs : List Char} (none : ',' ∉ cs) (more : List Char) :
    splitCommas (cs ++ ',' :: more) = cs :: splitCommas more := by
  induction cs with
  | nil => simp [splitCommas]
  | cons c cs ih =>
    obtain ⟨first, rest⟩ := List.ne_and_not_mem_of_not_mem_cons none
    simp [splitCommas, Ne.symm first, ih rest]

theorem splitCommas_intercalate {parts : List (List Char)} (nonempty : parts ≠ [])
    (none : ∀ part ∈ parts, ',' ∉ part) : splitCommas (List.intercalate [','] parts) = parts := by
  induction parts with
  | nil => exact absurd rfl nonempty
  | cons part parts ih =>
    obtain ⟨first, others⟩ := List.forall_mem_cons.mp none
    cases parts with
    | nil => simpa using splitCommas_of_no_comma first
    | cons next parts =>
      rw [List.intercalate_cons_cons, List.append_assoc, List.singleton_append,
        splitCommas_append first, ih (List.cons_ne_nil _ _) others]

theorem SpacedItem.no_comma {spaced : SpacedItem} (fits : spaced.item.Fits) :
    ',' ∉ spaced.text := by
  intro member
  simp only [SpacedItem.text, List.mem_append, List.mem_replicate] at member
  rcases member with ⟨_, isSpace⟩ | inside | ⟨_, isSpace⟩
  · exact absurd isSpace (by decide)
  · rcases ListItem.shown fits _ inside with tail | isMinus
    · exact absurd tail (by decide)
    · exact absurd isMinus (by decide)
  · exact absurd isSpace (by decide)

/-! ### Both ways to give a list -/

section
variable {spaced : List SpacedItem}

/-- Items with spaces around them and commas between them. -/
def commaText (spaced : List SpacedItem) : String :=
  String.ofList (List.intercalate [','] (spaced.map SpacedItem.text))

/-- A JSON array of items. -/
def arrayText (spaced : List SpacedItem) : String :=
  String.ofList ('[' :: (List.intercalate [','] (spaced.map (·.item.json)) ++ [']']))

theorem items_commaText (nonempty : spaced ≠ []) (fit : ∀ one ∈ spaced, one.item.Fits) :
    items (.string (commaText spaced)) = spaced.map (·.item.value) := by
  have none : ∀ part ∈ spaced.map SpacedItem.text, ',' ∉ part := by
    intro part member
    obtain ⟨one, isOne, rfl⟩ := List.mem_map.mp member
    exact SpacedItem.no_comma (fit one isOne)
  rw [items, commaText, String.toList_ofList,
    splitCommas_intercalate (by simpa using nonempty) none, List.map_map]
  refine List.map_congr_left ?_
  intro one isOne
  have fits := fit one isOne
  simp only [Function.comp_apply, SpacedItem.trim_text fits, ListItem.jsonOrText_bare fits]

theorem items_jsonOrText_commaText (nonempty : spaced ≠ [])
    (fit : ∀ one ∈ spaced, one.item.Fits) :
    items (jsonOrText (commaText spaced)) = spaced.map (·.item.value) := by
  have asText := items_commaText nonempty fit
  -- a single item may be JSON by itself; more of them never are, because of the comma
  match spaced, nonempty with
  | [one], _ =>
    have whole : commaText [one] = String.ofList one.text := by simp [commaText]
    have fits := fit one (by simp)
    rcases SpacedItem.jsonOrText_text fits with ⟨isValue, single⟩ | ⟨isText, _⟩
    · rw [whole, isValue, single]
      rfl
    · rw [whole, isText, ← whole, asText]
  | one :: next :: more, _ =>
    have noJson := SpacedItem.parse?_append_comma (fit one (by simp))
      (List.intercalate [','] ((next :: more).map SpacedItem.text))
    have isText : jsonOrText (commaText (one :: next :: more)) =
        .string (commaText (one :: next :: more)) := by
      have whole : commaText (one :: next :: more) = String.ofList (one.text ++
          ',' :: List.intercalate [','] ((next :: more).map SpacedItem.text)) := by
        simp [commaText]
      rw [whole, jsonOrText, noJson]
      rfl
    rw [isText, asText]

theorem readItems?_json (nonempty : spaced ≠ []) (fit : ∀ one ∈ spaced, one.item.Fits)
    (depth : Nat) (rest : List Char) :
    Json.readItems? depth (List.intercalate [','] (spaced.map (·.item.json)) ++ ']' :: rest) =
      some (spaced.map (·.item.value), rest) := by
  induction spaced with
  | nil => exact absurd rfl nonempty
  | cons one more ih =>
    obtain ⟨fits, others⟩ := List.forall_mem_cons.mp fit
    cases more with
    | nil =>
      have read := ListItem.read?_json fits depth (']' :: rest) (by simp [Json.Follows])
      simpa using Json.readItems?_last read (by rfl)
    | cons next more =>
      have others := ih (List.cons_ne_nil _ _) others
      have read := ListItem.read?_json fits depth
        (',' :: (List.intercalate [','] ((next :: more).map (·.item.json)) ++ ']' :: rest))
        (by simp [Json.Follows])
      have all := Json.readItems?_cons read (by rfl)
      rw [others] at all
      simpa using all

theorem settleItems_values (spaced : List SpacedItem) (read? : String → Option Json) :
    Json.settleItems read? (spaced.map (·.item.value)) = some (spaced.map (·.item.value)) := by
  induction spaced with
  | nil => simp [Json.settleItems]
  | cons one more ih => simp [Json.settleItems, ListItem.settled, ih]

/-- An array of items does not end where it begins. -/
theorem arrayText_opens (nonempty : spaced ≠ []) (fit : ∀ one ∈ spaced, one.item.Fits)
    (rest : List Char) :
    Json.skipSpace (List.intercalate [','] (spaced.map (·.item.json)) ++ [']']) ≠ ']' :: rest := by
  obtain ⟨one, more, rfl⟩ := List.exists_cons_of_ne_nil nonempty
  obtain ⟨c, cs, whole, first⟩ := ListItem.exists_json (fit one (by simp))
  have begins : ∃ tail, List.intercalate [','] ((one :: more).map (·.item.json)) = c :: tail := by
    cases more with
    | nil => exact ⟨cs, by simp [whole]⟩
    | cons next more =>
      refine ⟨cs ++ ',' :: List.intercalate [','] ((next :: more).map (·.item.json)), ?_⟩
      simp [whole]
  obtain ⟨tail, begins⟩ := begins
  have same : Json.skipSpace (c :: (tail ++ [']'])) = _ := first.skipSpace_eq 0 _
  rw [begins, List.cons_append, same]
  intro closes
  exact first.ne ']' (by simp) (List.cons.inj closes).1

theorem jsonOrText_arrayText (nonempty : spaced ≠ []) (fit : ∀ one ∈ spaced, one.item.Fits) :
    jsonOrText (arrayText spaced) = .array (spaced.map (·.item.value)) := by
  have written : Json.written? (arrayText spaced) = some (.array (spaced.map (·.item.value))) := by
    have front : Json.skipSpace (arrayText spaced).toList =
        '[' :: (List.intercalate [','] (spaced.map (·.item.json)) ++ [']']) := by
      rw [arrayText, String.toList_ofList]
      rfl
    have read : Json.read? Json.maxDepth (arrayText spaced).toList = _ :=
      Json.read?_array front (arrayText_opens nonempty fit) (readItems?_json nonempty fit _ [])
    rw [Json.written?_eq_bind, read]
    rfl
  have settled : ∀ read?, Json.settleWith read? (.array (spaced.map (·.item.value))) =
      some (.array (spaced.map (·.item.value))) := by
    intro read?
    simp [Json.settleWith, settleItems_values]
  rw [jsonOrText, Json.parse?_of_written? written settled]
  rfl

theorem listBinding?_eq {name : String} (noEquals : '=' ∉ name.toList) (text : String) :
    listBinding? (name ++ "=" ++ text) =
      some (String.ofList (trim name.toList), items (jsonOrText text)) := by
  have whole : (name ++ "=" ++ text).toList = name.toList ++ '=' :: text.toList := by simp
  have inside : ∀ c ∈ name.toList, (c != '=') = true := by
    intro c member
    rw [bne_iff_ne]
    rintro rfl
    exact noEquals member
  have stops : ∀ c ∈ ('=' :: text.toList).head?, (c != '=') = false := by simp
  obtain ⟨front, back⟩ := span_append inside stops
  rw [listBinding?, binding?]
  simp only [whole, front, back]
  simp

/-- Items with commas between them give the list that their JSON array gives. -/
theorem list_spellings_agree {name : String} (noEquals : '=' ∉ name.toList)
    (nonempty : spaced ≠ []) (fit : ∀ one ∈ spaced, one.item.Fits) :
    listBinding? (name ++ "=" ++ commaText spaced) =
        some (String.ofList (trim name.toList), spaced.map (·.item.value)) ∧
      listBinding? (name ++ "=" ++ arrayText spaced) =
        some (String.ofList (trim name.toList), spaced.map (·.item.value)) := by
  rw [listBinding?_eq noEquals, listBinding?_eq noEquals, items_jsonOrText_commaText nonempty fit,
    jsonOrText_arrayText nonempty fit]
  exact ⟨rfl, rfl⟩

end

theorem list_of_both_ways :
    listBinding? "ids=a , -12,true" =
        some ("ids", [.string "a", .integer (-12), .bool true]) ∧
      listBinding? "ids=[\"a\",-12,true]" =
        some ("ids", [.string "a", .integer (-12), .bool true]) := by
  have fit : ∀ one ∈ [⟨0, .word ['a'], 1⟩, ⟨1, .integer true ['1', '2'], 0⟩,
      (⟨0, .word ['t', 'r', 'u', 'e'], 0⟩ : SpacedItem)], one.item.Fits := by
    simp only [List.forall_mem_cons]
    refine ⟨.word (by decide) (List.all_eq_true.mp (by decide)),
      .integer (by decide) (List.all_eq_true.mp (by decide)) (by decide) (by decide) (by decide),
      .word (by decide) (List.all_eq_true.mp (by decide)), by simp⟩
  have noEquals : '=' ∉ "ids".toList := by decide
  exact list_spellings_agree noEquals (List.cons_ne_nil _ _) fit

end SqlTemplate.CommandLine
