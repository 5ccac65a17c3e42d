import SqlTemplate.Proofs.Placeholders
import SqlTemplate.Proofs.Written

/-!
# Question marks in place of placeholders

A statement in the style of question marks has one mark for each argument, no dollar sign
outside strings, and the strings that it had before (`question_expand`). Nothing is said
about numbers, so this also holds where they have run out. Literals and separators must
have neither dollar signs nor question marks of their own, except inside the strings of
literals.
-/

namespace SqlTemplate.Sql

/-! ### What the rewriting does to a text -/

theorem digit_of_spelled {cs : List Char} (spelled : Spelled (visible .outside ('$' :: cs))) :
    cs.head?.any Char.isDigit := by
  rw [visible_cons (by decide)] at spelled
  rw [← head?_visible]
  exact digits_ne_nil_iff.mp (spelled.1 rfl)

/-- Outside strings, every dollar sign becomes a question mark. -/
theorem questionMarks_visible {place : Place} {number : Bool}
    (skips : number = true → place = .outside) {cs : List Char}
    (spelled : Spelled (visible place cs)) :
    (visible place (questionMarks place number cs)).count '?' =
        (visible place cs).count '?' + (visible place cs).count '$' ∧
      '$' ∉ visible place (questionMarks place number cs) := by
  fun_induction questionMarks place number cs with
  | case1 => simp [visible]
  | case2 place number c cs skipped ih =>
    -- a digit of a placeholder that was replaced
    obtain ⟨isNumber, digit⟩ := Bool.and_eq_true_iff.mp skipped
    obtain rfl := skips isNumber
    have other {d : Char} (plain : d.isDigit = false) : c ≠ d := by
      rintro rfl
      rw [digit] at plain
      cases plain
    have seen := visible_cons (other (d := '\'') rfl) cs
    rw [seen] at spelled
    rw [seen, List.count_cons_of_ne (other rfl), List.count_cons_of_ne (other rfl)]
    exact ih (fun _ => rfl) spelled.2
  | case3 place number c cs _ begins ih =>
    -- the dollar sign of a placeholder
    simp only [Bool.and_eq_true, beq_iff_eq] at begins
    obtain ⟨⟨rfl, rfl⟩, _⟩ := begins
    rw [visible_cons (by decide)] at spelled
    obtain ⟨counts, none⟩ := ih (fun _ => rfl) spelled.2
    rw [visible_cons (by decide), visible_cons (by decide)]
    constructor
    · rw [List.count_cons_self, List.count_cons_self, List.count_cons_of_ne (by decide), counts]
      omega
    · simpa using none
  | case4 place number c cs _ plain ih =>
    -- any other character, which is no dollar sign outside strings
    by_cases out : place = .outside
    · subst out
      have notDollar : c ≠ '$' := by
        rintro rfl
        simp [digit_of_spelled spelled] at plain
      have rest : Spelled (visible (Place.outside.next c) cs) := by
        have : Spelled (c :: visible (Place.outside.next c) cs) := spelled
        exact this.2
      obtain ⟨counts, none⟩ := ih (by simp) rest
      constructor
      · simp only [visible, if_true, List.count_cons, counts]
        simp only [beq_iff_eq, notDollar, if_false]
        omega
      · simpa [visible, Ne.symm notDollar] using none
    · have rest : Spelled (visible (place.next c) cs) := by simpa [visible, out] using spelled
      simpa [visible, out] using ih (by simp) rest

/-- The rewriting goes through a string and leaves it as it is. -/
theorem StringBody.questionMarks {body : List Char} (h : StringBody body) (rest : List Char) :
    Sql.questionMarks .quoted false (body ++ rest) =
      body ++ Sql.questionMarks .outside false rest := by
  induction h with
  | close => simp [Sql.questionMarks, Place.next]
  | quotes _ ih => simp [Sql.questionMarks, Place.next, ih]
  | escaped c _ ih => simp [Sql.questionMarks, Place.next, ih]
  | plain notQuote notSlash _ ih => simp [Sql.questionMarks, Place.next, notQuote, notSlash, ih]

theorem Unclosed.questionMarks {cs : List Char} (h : Unclosed cs) :
    Sql.questionMarks .quoted false cs = cs := by
  induction h with
  | nil => rfl
  | slash => rfl
  | quotes _ ih => simp [Sql.questionMarks, Place.next, ih]
  | escaped c _ ih => simp [Sql.questionMarks, Place.next, ih]
  | plain notQuote notSlash _ ih => simp [Sql.questionMarks, Place.next, notQuote, notSlash, ih]

theorem head?_questionMarks {cs : List Char} (other : cs.head? ≠ some '\'') :
    (questionMarks .outside false cs).head? ≠ some '\'' := by
  cases cs with
  | nil => exact other
  | cons c cs =>
    unfold questionMarks
    rw [if_neg (by simp)]
    split
    · simp
    · exact other

theorem strings_questionMarks (number : Bool) (cs : List Char) :
    strings (questionMarks .outside number cs) = strings cs := by
  fun_induction strings cs generalizing number with
  | case1 => simp [questionMarks, strings]
  | case2 cs body rest found _ ih =>
    obtain ⟨string, follows⟩ := StringBody.of_stringBody found
    have through : questionMarks .outside number ('\'' :: cs) =
        '\'' :: (body ++ questionMarks .outside false rest) := by
      rw [← string.questionMarks, stringBody_append found]
      simp [questionMarks, Place.next]
    rw [through, strings_quote (string.read (head?_questionMarks follows)), ih]
  | case3 cs unclosed =>
    have through : questionMarks .outside number ('\'' :: cs) = '\'' :: cs := by
      simp [questionMarks, Place.next, (Unclosed.of_stringBody unclosed).questionMarks]
    rw [through, strings_unclosed unclosed]
  | case4 c cs other ih =>
    unfold questionMarks
    split
    · exact ih true
    · split
      · rw [strings_cons (by decide)]
        exact ih true
      · rw [strings_cons other, Place.next_of_ne other]
        exact ih false

end SqlTemplate.Sql

namespace SqlTemplate
open SqlTemplate.Sql

/-- Texts that have no dollar sign and no question mark outside strings. -/
def Wording.unmarked : Wording where
  literal text := '$' ∉ outside text.toList ∧ '?' ∉ outside text.toList
  separator text := '\'' ∉ text.toList ∧ '$' ∉ text.toList ∧ '?' ∉ text.toList

/-- Outside strings, a part has a placeholder for each argument, and no other dollar signs
or question marks. -/
structure Part.Marked (part : Part) : Prop where
  balanced : Balanced part.statement.toList
  spelled : Spelled (visible .outside part.statement.toList)
  dollars : (visible .outside part.statement.toList).count '$' = part.arguments.length
  questions : (visible .outside part.statement.toList).count '?' = 0

namespace Part.Marked
variable {a b : Part}

theorem of_visible {text : String} {errors : List BindingError} (balanced : Balanced text.toList)
    (noDollar : '$' ∉ visible .outside text.toList) (noQuestion : '?' ∉ visible .outside text.toList) :
    Marked { statement := text, errors } :=
  ⟨balanced, spelled_of_no_dollar noDollar, List.count_eq_zero.mpr noDollar,
    List.count_eq_zero.mpr noQuestion⟩

theorem of_plain {text : String} {errors : List BindingError} (noQuote : '\'' ∉ text.toList)
    (noDollar : '$' ∉ text.toList) (noQuestion : '?' ∉ text.toList) :
    Marked { statement := text, errors } := by
  obtain ⟨same, balanced⟩ := visible_of_no_quote noQuote
  exact .of_visible balanced (by rwa [same]) (by rwa [same])

theorem literal {text : String} (balanced : Balanced text.toList)
    (allowed : Wording.unmarked.literal text) : Marked { statement := text } := by
  have same := outside_visible text.toList
  refine .of_visible balanced ?_ ?_
  · rw [← same.mem_iff (by decide)]
    exact allowed.1
  · rw [← same.mem_iff (by decide)]
    exact allowed.2

theorem marker {error : BindingError} (identifier : Identifier.isIdentifier error.name.toList) :
    Marked { statement := Draft.marker error, errors := [error] } := by
  apply of_plain
  · exact Draft.not_mem_marker identifier (by decide) (by decide)
  · exact Draft.not_mem_marker identifier (by decide) (by decide)
  · exact Draft.not_mem_marker identifier (by decide) (by decide)

theorem placeholder (index : UInt32) (value : Scalar) :
    Marked { statement := placeholder index, arguments := [value] } := by
  obtain ⟨same, balanced⟩ := visible_placeholder index
  have none {c : Char} (other : c.isDigit = false) : c ∉ (toString index.toNat).toList := by
    intro member
    rw [isDigit_of_mem_toString member] at other
    cases other
  refine ⟨balanced, ?_, ?_, ?_⟩
  · rw [same, toList_placeholder]
    refine ⟨?_, spelled_of_no_dollar (none rfl)⟩
    intro _
    rw [digits_toString]
    simp [Nat.toList_repr]
  · rw [same, toList_placeholder, List.count_cons_self, List.count_eq_zero.mpr (none rfl)]
    rfl
  · rw [same, toList_placeholder, List.count_cons_of_ne (by decide)]
    exact List.count_eq_zero.mpr (none rfl)

theorem append (left : Marked a) (right : Marked b) : Marked (a ++ b) := by
  have split := Part.visible_append left.balanced b
  refine ⟨Part.balanced_append left.balanced right.balanced, ?_, ?_, ?_⟩
  · rw [split]
    exact left.spelled.append right.spelled
  · rw [split, List.count_append, left.dollars, right.dollars, Part.arguments_append,
      List.length_append]
  · rw [split, List.count_append, left.questions, right.questions]

theorem normal (inside : Marked a) : Marked a.normal := by
  have text := a.toList_normal
  refine ⟨?_, ?_, ?_, ?_⟩
  · rw [text]
    exact inside.balanced.normalize
  · rw [text]
    exact inside.spelled.normalize
  · rw [text, count_normalize (by decide) (by decide)]
    exact inside.dollars
  · rw [text, count_normalize (by decide) (by decide)]
    exact inside.questions

end Part.Marked

theorem Written.marked {index : UInt32} {part : Part} (written : Written .unmarked index part) :
    part.Marked := by
  induction written with
  | empty index => exact .of_plain (by simp) (by simp) (by simp)
  | append _ _ left right => exact left.append right
  | literal index balanced allowed => exact .literal balanced allowed
  | separator index allowed => exact .of_plain allowed.1 allowed.2.1 allowed.2.2
  | placeholder index value => exact .placeholder index value
  | comma index => exact .of_plain (by decide) (by decide) (by decide)
  | marker index identifier => exact .marker identifier
  | normal _ inside => exact inside.normal

/-- A statement in the style of question marks has one mark for each argument, and the
strings that it had before. -/
theorem question_expand {set : QuerySet} (sourced : set.Sourced .unmarked) {name : String}
    (known : name ∈ set.names) {params : Params} (values : params.Sourced .unmarked)
    {options : Options} {part : Part} (expanded : (set.expand name params options).part = part)
    {rewritten : String} (isRewritten : PlaceholderStyle.question.rewrite part.statement = rewritten) :
    (outside rewritten.toList).count '?' = part.arguments.length ∧
      '$' ∉ outside rewritten.toList ∧ strings rewritten.toList = strings part.statement.toList := by
  have marked := (QuerySet.expand_written sourced known values options).marked
  rw [expanded] at marked
  have text : rewritten.toList = questionMarks .outside false part.statement.toList := by
    rw [← isRewritten]
    exact String.toList_ofList ..
  obtain ⟨counts, none⟩ := questionMarks_visible (by simp) marked.spelled
  have same := outside_visible rewritten.toList
  rw [← text] at counts none
  refine ⟨?_, ?_, ?_⟩
  · rw [same.count (by decide), counts, marked.questions, marked.dollars, Nat.zero_add]
  · rw [same.mem_iff (by decide)]
    exact none
  · rw [text]
    exact strings_questionMarks false _

theorem question_people :
    ∃ rewritten, PlaceholderStyle.question.rewrite
        (peopleSet.expand "search" peopleParams { index := 4 }).part.statement = rewritten ∧
      (outside rewritten.toList).count '?' = 3 ∧ '$' ∉ outside rewritten.toList ∧
      strings rewritten.toList = ["'$1?'".toList] := by
  have plain : ∀ text ∈ ["age > ", " ", " AND note <> '$1?'"],
      '$' ∉ visible .outside text.toList ∧ '?' ∉ visible .outside text.toList := by
    decide
  have literals : ∀ text ∈ ["age > ", " ", " AND note <> '$1?'"],
      Wording.unmarked.literal text := by
    intro text member
    have same := outside_visible text.toList
    obtain ⟨noDollar, noQuestion⟩ := plain text member
    exact ⟨by rwa [same.mem_iff (by decide)], by rwa [same.mem_iff (by decide)]⟩
  have set := peopleSet_sourced literals
  have separator : Wording.unmarked.separator " OR " := ⟨by decide, by decide, by decide⟩
  have whole :=
    question_expand set (by decide) (peopleParams_sourced set separator) expand_people rfl
  have old : strings "age > $4 OR age > $5,$6 AND note <> '$1?'".toList = ["'$1?'".toList] := by
    cbv
  rw [old] at whole
  rw [expand_people]
  exact ⟨_, rfl, whole⟩

end SqlTemplate
