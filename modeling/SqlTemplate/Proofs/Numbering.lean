import SqlTemplate.Proofs.Placeholders
import SqlTemplate.Proofs.Written

/-!
# Placeholders and arguments

The placeholders of a statement are numbered without gaps from the first number on, one
for each argument (`numbers_expand`), as long as the numbers do not run out. Literals and
separators must not get in the way: outside strings they have no dollar signs, and they do
not begin with digits, which would go on with the number of a placeholder in front of
them. That is so across parts, since white space between them may be taken away.
-/

namespace SqlTemplate
open SqlTemplate.Sql

theorem Draft.exists_marker (error : BindingError) : ∃ rest, (marker error).toList = '<' :: rest := by
  obtain ⟨name, fault⟩ := error
  cases fault with
  | notFound => exact ⟨"missing ".toList ++ name.toList ++ ['>'], by simp [marker]⟩
  | recursionLimit => exact ⟨"recursive ".toList ++ name.toList ++ ['>'], by simp [marker]⟩

/-- Texts that neither are nor go on with a placeholder. -/
def Wording.unnumbered : Wording where
  literal text := '$' ∉ outside text.toList ∧ ¬ DigitFirst text.toList
  separator text := '$' ∉ outside text.toList ∧ ¬ DigitFirst text.toList ∧ '\'' ∉ text.toList

/-- The placeholders of a part count on from a number, one for each argument. -/
structure Part.Numbered (index : UInt32) (part : Part) : Prop where
  balanced : Balanced part.statement.toList
  first : ¬ DigitFirst (visible .outside part.statement.toList)
  numbers : index.toNat + part.arguments.length ≤ lastIndex + 1 →
    numbers (visible .outside part.statement.toList) =
      (List.range' index.toNat part.arguments.length).map toString

namespace Part.Numbered
variable {index : UInt32} {a b : Part}

theorem of_plain {text : String} {errors : List BindingError} (noQuote : '\'' ∉ text.toList)
    (noDollar : '$' ∉ text.toList) (first : ¬ DigitFirst text.toList) :
    Numbered index { statement := text, errors } := by
  obtain ⟨same, balanced⟩ := visible_of_no_quote noQuote
  refine ⟨balanced, by rwa [same], ?_⟩
  intro _
  rw [same, numbers_of_no_dollar noDollar]
  rfl

theorem literal {text : String} (balanced : Balanced text.toList)
    (allowed : Wording.unnumbered.literal text) : Numbered index { statement := text } := by
  obtain ⟨noDollar, first⟩ := allowed
  refine ⟨balanced, by rwa [digitFirst_visible], ?_⟩
  intro _
  have none : '$' ∉ visible .outside text.toList := by
    rwa [← (outside_visible text.toList).mem_iff (by decide)]
  rw [numbers_of_no_dollar none]
  rfl

theorem placeholder (index : UInt32) (value : Scalar) :
    Numbered index { statement := placeholder index, arguments := [value] } := by
  obtain ⟨same, balanced⟩ := visible_placeholder index
  refine ⟨balanced, ?_, ?_⟩
  · rw [same, toList_placeholder]
    exact not_digitFirst_cons (by decide) (by decide) _
  · intro _
    rw [same, numbers_placeholder]
    rfl

theorem marker {error : BindingError} (identifier : Identifier.isIdentifier error.name.toList) :
    Numbered index { statement := Draft.marker error, errors := [error] } := by
  refine of_plain ?_ ?_ ?_
  · exact Draft.not_mem_marker identifier (by decide) (by decide)
  · exact Draft.not_mem_marker identifier (by decide) (by decide)
  · obtain ⟨rest, whole⟩ := Draft.exists_marker error
    rw [whole]
    exact not_digitFirst_cons (by decide) (by decide) rest

/-- The second part goes on where the first one stops. -/
theorem append (left : Numbered index a) (right : Numbered (advance index a.arguments.length) b) :
    Numbered index (a ++ b) := by
  have split := Part.visible_append left.balanced b
  refine ⟨Part.balanced_append left.balanced right.balanced, ?_, ?_⟩
  · intro first
    rw [split] at first
    rcases first.of_append with first | first
    · exact left.first first
    · exact right.first first
  · intro fits
    rw [Part.arguments_append, List.length_append] at fits
    have inLeft := left.numbers (by omega)
    have inRight : Sql.numbers (visible .outside b.statement.toList) =
        (List.range' (index.toNat + a.arguments.length) b.arguments.length).map toString := by
      have start := toNat_advance index a.arguments.length
      -- the number that a part without arguments begins with may have run out
      by_cases none : b.arguments.length = 0
      · have := index.toNat_lt
        have := right.numbers (by rw [start, none]; omega)
        rw [this, none]
        rfl
      · have start : (advance index a.arguments.length).toNat = index.toNat + a.arguments.length := by
          omega
        have := right.numbers (by omega)
        rw [this, start]
    rw [split, numbers_append _ (digits_of_not_digitFirst right.first), inLeft, inRight,
      Part.arguments_append, List.length_append, ← List.map_append, List.range'_append_1]

theorem normal (inside : Numbered index a) : Numbered index a.normal := by
  refine ⟨?_, ?_, ?_⟩
  · rw [a.toList_normal]
    exact inside.balanced.normalize
  · rw [a.toList_normal]
    exact fun first => inside.first (digitFirst_normalize first)
  · intro fits
    rw [a.toList_normal, numbers_normalize]
    exact inside.numbers fits

end Part.Numbered

theorem Written.numbered {index : UInt32} {part : Part} (written : Written .unnumbered index part) :
    part.Numbered index := by
  induction written with
  | empty index => exact .of_plain (by simp) (by simp) (by simp [DigitFirst])
  | append _ _ left right => exact left.append right
  | literal index balanced allowed => exact .literal balanced allowed
  | separator index allowed =>
    obtain ⟨noDollar, first, noQuote⟩ := allowed
    exact .literal (visible_of_no_quote noQuote).2 ⟨noDollar, first⟩
  | placeholder index value => exact .placeholder index value
  | comma index => exact .of_plain (by decide) (by decide) (by decide)
  | marker index identifier => exact .marker identifier
  | normal _ inside => exact inside.normal

/-- The placeholders of a statement are numbered without gaps from the first number on, one
for each argument. -/
theorem numbers_expand {set : QuerySet} (sourced : set.Sourced .unnumbered) {name : String}
    (known : name ∈ set.names) {params : Params} (values : params.Sourced .unnumbered)
    {options : Options} {part : Part} (expanded : (set.expand name params options).part = part)
    {start : Nat} (isStart : start = max options.index.toNat 1)
    (fits : start + part.arguments.length - 1 ≤ lastIndex) :
    numbers (outside part.statement.toList) =
      (List.range' start part.arguments.length).map toString := by
  have numbered := (QuerySet.expand_written sourced known values options).numbered
  rw [expanded] at numbered
  have first : (max options.index 1).toNat = start := by rw [toNat_max_one, isStart]
  rw [(outside_visible part.statement.toList).numbers, ← first]
  apply numbered.numbers
  omega

theorem numbers_people :
    numbers (outside (peopleSet.expand "search" peopleParams { index := 4 }).part.statement.toList) =
      (List.range' 4 3).map toString := by
  have plain : ∀ text ∈ ["age > ", " ", " AND note <> '$1?'", " OR "],
      '$' ∉ visible .outside text.toList ∧ ¬ DigitFirst text.toList := by
    decide
  have literals : ∀ text ∈ ["age > ", " ", " AND note <> '$1?'"],
      Wording.unnumbered.literal text := by
    intro text member
    obtain ⟨noDollar, first⟩ := plain text (List.mem_append_left [" OR "] member)
    exact ⟨by rwa [(outside_visible _).mem_iff (by decide)], first⟩
  have separator : Wording.unnumbered.separator " OR " := by
    obtain ⟨noDollar, first⟩ := plain " OR " (by simp)
    exact ⟨by rwa [(outside_visible _).mem_iff (by decide)], first, by decide⟩
  have set := peopleSet_sourced literals
  rw [expand_people]
  exact numbers_expand set (by decide) (peopleParams_sourced set separator) expand_people rfl
    (by decide)

end SqlTemplate
