import SqlTemplate.Proofs.Embedded
import SqlTemplate.Proofs.Placeholders
import SqlTemplate.Scalar

/-!
# Quoted scalars as SQL literals

A literal is a text between quotes in which every quote is doubled, so that nothing in it ends
it early (`Literal.read`). Texts are shown as literals. JSON is shown between quotes as it is,
which makes a literal of it just if no string in it has a quote (`display_literal_iff`): numbers,
words and what stands between values have none (`Json.quotes_compact`).
-/

namespace SqlTemplate

/-! ### Literals -/

/-- A text, and the same text with every quote doubled. -/
inductive Doubled : List Char → List Char → Prop where
  | nil : Doubled [] []
  | quote {said inside : List Char} (more : Doubled said inside) :
      Doubled ('\'' :: said) ('\'' :: '\'' :: inside)
  | plain {c : Char} {said inside : List Char} (notQuote : c ≠ '\'') (more : Doubled said inside) :
      Doubled (c :: said) (c :: inside)

/-- What a text says as a literal. -/
def Literal (said shown : List Char) : Prop :=
  ∃ inside, shown = '\'' :: (inside ++ ['\'']) ∧ Doubled said inside

/-- What a literal says behind its opening quote, up to the quote that ends it, and the rest of
the text. -/
def literalTail? : List Char → Option (List Char × List Char)
  | '\'' :: '\'' :: cs => (literalTail? cs).map (Prod.map ('\'' :: ·) id)
  | '\'' :: cs => some ([], cs)
  | c :: cs => (literalTail? cs).map (Prod.map (c :: ·) id)
  | [] => none

/-- What the literal at the front of a text says, and the rest of the text. -/
def literal? : List Char → Option (List Char × List Char)
  | '\'' :: cs => literalTail? cs
  | _ => none

variable {said inside shown rest : List Char}

theorem Doubled.count (doubled : Doubled said inside) :
    inside.count '\'' = 2 * said.count '\'' := by
  induction doubled with
  | nil => rfl
  | quote _ ih =>
    simp only [List.count_cons_self, ih]
    omega
  | plain notQuote _ ih => simp [notQuote, ih]

theorem doubled_self_iff : Doubled said said ↔ '\'' ∉ said := by
  constructor
  · intro doubled
    have same := doubled.count
    exact List.count_eq_zero.mp (by omega)
  · intro none
    induction said with
    | nil => exact .nil
    | cons c said ih =>
      obtain ⟨first, others⟩ := List.ne_and_not_mem_of_not_mem_cons none
      exact .plain first.symm (ih others)

/-- Doubled quotes are read back up to the quote that ends the literal. -/
theorem Doubled.read (doubled : Doubled said inside) (ends : rest.head? ≠ some '\'') :
    literalTail? (inside ++ '\'' :: rest) = some (said, rest) := by
  induction doubled with
  | nil =>
    cases rest with
    | nil => rfl
    | cons c rest =>
      have notQuote : c ≠ '\'' := by simpa using ends
      simp [literalTail?, notQuote]
  | quote _ ih => simp [literalTail?, ih]
  | plain notQuote _ ih => simp [literalTail?, notQuote, ih]

/-- A literal is read back as a whole, whatever follows, unless that is one more quote. -/
theorem Literal.read (literal : Literal said shown) (ends : rest.head? ≠ some '\'') :
    literal? (shown ++ rest) = some (said, rest) := by
  obtain ⟨inside, rfl, doubled⟩ := literal
  rw [List.cons_append, List.append_assoc]
  exact doubled.read ends

theorem Literal.unique {other : List Char} (literal : Literal said shown)
    (again : Literal other shown) : said = other := by
  have ends : ([] : List Char).head? ≠ some '\'' := by simp
  have same := (literal.read ends).symm.trans (again.read ends)
  exact congrArg Prod.fst (Option.some.inj same)

/-! ### Quotes in JSON -/

/-- A quote is in the text. -/
def Quotes (s : String) : Prop := '\'' ∈ s.toList

instance (s : String) : Decidable (Quotes s) := inferInstanceAs (Decidable (_ ∈ _))

@[simp] theorem quotes_append {s t : String} : Quotes (s ++ t) ↔ Quotes s ∨ Quotes t := by
  simp [Quotes]

@[simp] theorem quotes_ofList {cs : List Char} : Quotes (String.ofList cs) ↔ '\'' ∈ cs := by
  simp [Quotes]

theorem quotes_intercalate {separator : String} {texts : List String}
    (none : ¬ Quotes separator) :
    Quotes (separator.intercalate texts) ↔ ∃ text ∈ texts, Quotes text := by
  induction texts with
  | nil => simp [Quotes]
  | cons text texts ih =>
    cases texts with
    | nil => simp
    | cons next texts =>
      rw [String.intercalate_cons_cons, quotes_append, quotes_append, ih, or_iff_left none]
      simp

theorem not_quotes_natural (n : Nat) : ¬ Quotes (toString n) := by
  intro quote
  exact absurd (Sql.isDigit_of_mem_toString quote) (by decide)

theorem not_quotes_integer (n : Int) : ¬ Quotes (toString n) := by
  cases n with
  | ofNat n => exact not_quotes_natural n
  | negSucc n =>
    have sign : ¬ Quotes "-" := by decide
    exact fun quote => (quotes_append.mp quote).elim sign (not_quotes_natural (n + 1))

namespace Decimal

variable {digits suffix : String}

theorem quote_not_mem_take (noDigit : ¬ Quotes digits) (n : Nat) : '\'' ∉ digits.toList.take n :=
  fun quote => noDigit (List.mem_of_mem_take quote)

theorem quote_not_mem_drop (noDigit : ¬ Quotes digits) (n : Nat) : '\'' ∉ digits.toList.drop n :=
  fun quote => noDigit (List.mem_of_mem_drop quote)

/-- No quote is among the zeros, the digits and what follows them. -/
theorem not_quotes_positional (before : Int) (noDigit : ¬ Quotes digits)
    (noSuffix : ¬ Quotes suffix) : ¬ Quotes (positional digits before suffix) := by
  have zeros : ∀ n, '\'' ∉ List.replicate n '0' := by simp [List.mem_replicate]
  have point : ¬ Quotes "." ∧ ¬ Quotes "0." := by decide
  unfold positional
  dsimp only
  split_ifs
  · simp [zeros, point, noDigit]
  · simp [zeros, noDigit, noSuffix]
  · simp [quote_not_mem_take noDigit, quote_not_mem_drop noDigit, point]

theorem not_quotes_scientific (power : Int) (noDigit : ¬ Quotes digits) :
    ¬ Quotes (scientific digits power) := by
  have point : ∀ isLast : Bool, ¬ Quotes (if isLast then "" else ".") := by decide
  have sign : ¬ Quotes (if power < 0 then "-" else "+") := by split_ifs <;> decide
  have mark : ¬ Quotes "e" := by decide
  unfold scientific
  simp only [quotes_append, quotes_ofList, quote_not_mem_take noDigit, quote_not_mem_drop noDigit,
    point, sign, mark, not_quotes_natural, or_false, not_false_eq_true]

theorem Layout.not_quotes_text {layout : Layout}
    (noName : ¬ Quotes layout.nan ∧ ¬ Quotes layout.infinity ∧ ¬ Quotes layout.negativeInfinity)
    (noSuffix : ¬ Quotes layout.wholeSuffix) (x : Float) : ¬ Quotes (layout.text x) := by
  have sign : ∀ negative : Bool, ¬ Quotes (if negative then "-" else "") := by decide
  have zero : ¬ Quotes "0" := by decide
  unfold Layout.text
  dsimp only
  split
  · exact noName.1
  · exact noName.2.1
  · exact noName.2.2
  · simp [sign, zero, noSuffix]
  · next negative n _ =>
    have noDigit := not_quotes_natural (n.shortest layout.tie).coefficient
    simp only [quotes_append, sign, false_or]
    unfold Layout.magnitude
    dsimp only
    split_ifs
    · exact not_quotes_positional _ noDigit noSuffix
    · exact not_quotes_scientific _ noDigit

end Decimal

namespace Json

theorem quotes_escape {c : Char} : Quotes (escape c) ↔ c = '\'' := by
  unfold escape
  split
  case h_8 =>
    split_ifs with control
    · have noDigit : ∀ n, '\'' ≠ Nat.digitChar n := fun n => (Nat.digitChar_ne '\'' rfl).symm
      refine iff_of_false (by simp [Quotes, noDigit]) ?_
      rintro rfl
      exact absurd control (by decide)
    · simp [Quotes, eq_comm]
  all_goals decide

theorem quotes_quote {s : String} : Quotes (quote s) ↔ Quotes s := by
  have written : ∀ (cs : List Char) (text : String),
      Quotes (cs.foldl (fun text c => text ++ escape c) text) ↔ Quotes text ∨ '\'' ∈ cs := by
    intro cs
    induction cs with
    | nil => simp
    | cons c cs ih =>
      intro text
      rw [List.foldl_cons, ih, quotes_append, quotes_escape, List.mem_cons, or_assoc, eq_comm]
  unfold quote
  rw [quotes_append, quotes_append, written]
  simp [Quotes]

theorem quotes_bracket {left right : String} (noLeft : ¬ Quotes left) (noRight : ¬ Quotes right)
    (texts : List String) : Quotes (bracket left right texts) ↔ ∃ text ∈ texts, Quotes text := by
  have comma : ¬ Quotes "," := by decide
  rw [bracket, quotes_append, quotes_append, quotes_intercalate comma, or_iff_right noLeft,
    or_iff_left noRight]

theorem not_quotes_number (x : Float) : ¬ Quotes (layout.text x) :=
  Decimal.Layout.not_quotes_text (by decide) (by decide) x

mutual

/-- A quote is in the text of a value just if one is in a string of the value. -/
theorem quotes_compact {value : Json} : Quotes value.compact ↔ ∃ s ∈ value.strings, Quotes s := by
  match value with
  | null => simp [compact, atom, strings, Quotes]
  | bool b => cases b <;> simp [compact, atom, strings, Quotes, toString]
  | integer n => simpa [compact, atom, strings] using not_quotes_integer n
  | number x => simpa [compact, atom, strings] using not_quotes_number x
  | string s => simp [compact, atom, strings, quotes_quote]
  | array items =>
    rw [compact, quotes_bracket (by decide) (by decide), quotes_compactItems, strings]
  | object fields =>
    rw [compact, quotes_bracket (by decide) (by decide), quotes_compactFields, strings]

theorem quotes_compactItems {items : List Json} :
    (∃ text ∈ compactItems items, Quotes text) ↔ ∃ s ∈ itemStrings items, Quotes s := by
  match items with
  | [] => simp [compactItems, itemStrings]
  | item :: items =>
    simp only [compactItems, itemStrings, List.mem_cons, List.mem_append, or_and_right, exists_or,
      exists_eq_left]
    rw [quotes_compact, quotes_compactItems]

theorem quotes_compactFields {fields : List (String × Json)} :
    (∃ text ∈ compactFields fields, Quotes text) ↔ ∃ s ∈ fieldStrings fields, Quotes s := by
  match fields with
  | [] => simp [compactFields, fieldStrings]
  | (name, value) :: fields =>
    have colon : ¬ Quotes ":" := by decide
    simp only [compactFields, fieldStrings, List.mem_cons, List.mem_append, or_and_right, exists_or,
      exists_eq_left, quotes_append, quotes_quote, colon, or_false]
    rw [quotes_compact, quotes_compactFields]

end

end Json

/-! ### What scalars are shown as -/

namespace Scalar

/-- The text that a scalar shows between quotes, if it shows one. -/
def quoted? : Scalar → Option String
  | text value => some value
  | json value => some value.compact
  | _ => none

theorem literal_quote (value : String) : Literal value.toList (quote value).toList := by
  refine ⟨value.toList.flatMap fun c => if c == '\'' then ['\'', '\''] else [c], ?_, ?_⟩
  · simp [quote]
  · induction value.toList with
    | nil => exact .nil
    | cons c cs ih =>
      rw [List.flatMap_cons]
      split
      · next isQuote =>
        obtain rfl : c = '\'' := by simpa using isQuote
        exact .quote ih
      · next other => exact .plain (by simpa using other) ih

theorem literal_json_iff {value : Json} :
    Literal value.compact.toList (display (json value)).toList ↔
      ∀ s ∈ value.strings, ¬ Quotes s := by
  have asItIs : (display (json value)).toList = '\'' :: (value.compact.toList ++ ['\'']) := by
    simp [display]
  calc Literal value.compact.toList (display (json value)).toList
    _ ↔ Doubled value.compact.toList value.compact.toList := by simp [Literal, asItIs]
    _ ↔ ¬ Quotes value.compact := doubled_self_iff
    _ ↔ ∀ s ∈ value.strings, ¬ Quotes s := by
      rw [Json.quotes_compact]
      simp only [not_exists, not_and]

/-- A literal is shown for a text, and for JSON just if no string in it has a quote. A literal that
is shown does not end early, and no two of them are alike for different texts. -/
theorem display_literal_iff {value : Scalar} {said : String} (quoted : value.quoted? = some said) :
    (Literal said.toList value.display.toList ↔
      ∀ held, value = json held → ∀ s ∈ held.strings, ¬ Quotes s) ∧
    (Literal said.toList value.display.toList →
      (∀ rest, rest.head? ≠ some '\'' →
        literal? (value.display.toList ++ rest) = some (said.toList, rest)) ∧
      ∀ other also, quoted? other = some also → Literal also.toList other.display.toList →
        other.display = value.display → also = said) := by
  refine ⟨?_, fun literal => ⟨fun rest ends => literal.read ends, ?_⟩⟩
  · cases value with
    | text value =>
      obtain rfl : value = said := by simpa [quoted?] using quoted
      exact iff_of_true (literal_quote value) nofun
    | json value =>
      obtain rfl : value.compact = said := by simpa [quoted?] using quoted
      simp [literal_json_iff]
    | null => cases quoted
    | bool value => cases quoted
    | int value => cases quoted
    | float value => cases quoted
  · intro other also _ alsoLiteral same
    rw [same] at alsoLiteral
    exact String.toList_inj.mp (alsoLiteral.unique literal)

/-- A text with quotes at its ends is shown as a literal. JSON with one is shown as a literal that
ends early. -/
theorem display_quotes :
    Literal "'it's'".toList (display (text "'it's'")).toList ∧
      literal? ((display (text "'it's'")).toList ++ " OR 1".toList) =
        some ("'it's'".toList, " OR 1".toList) ∧
      ¬ Literal "[\"it's\"]".toList (display (json (.array [.string "it's"]))).toList ∧
      literal? (display (json (.array [.string "it's"]))).toList =
        some ("[\"it".toList, "s\"]'".toList) := by
  have isText : quoted? (text "'it's'") = some "'it's'" := rfl
  have isJson : quoted? (json (.array [.string "it's"])) = some "[\"it's\"]" := rfl
  obtain ⟨isLiteral, reads⟩ := display_literal_iff isText
  obtain ⟨other, _⟩ := display_literal_iff isJson
  have literal := isLiteral.mpr nofun
  refine ⟨literal, (reads literal).1 _ (by decide), ?_, by decide⟩
  intro alike
  exact other.mp alike _ rfl "it's" (by simp [Json.strings, Json.itemStrings]) (by decide)

end Scalar
end SqlTemplate
