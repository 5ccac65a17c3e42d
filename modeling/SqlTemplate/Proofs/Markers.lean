import SqlTemplate.Proofs.Merging
import SqlTemplate.Proofs.Placeholders
import SqlTemplate.Proofs.Written

/-!
# Markers and errors

A statement has a marker in place of whatever was not bound. Read from left to right outside
strings, its markers say the same as its errors, one marker for each error and in the same
order, and a statement without markers is bound (`markers_expand`). Literals and separators
must not open angle brackets of their own, since these could pass for markers.
-/

namespace SqlTemplate
open SqlTemplate.Text SqlTemplate.Identifier SqlTemplate.Sql

/-! ### Reading markers -/

/-- The word for a fault in markers. -/
def BindingFault.word : BindingFault → String
  | notFound => "missing"
  | recursionLimit => "recursive"

/-- The error that a text tells if it begins with a marker of this fault. The name is all that
stands in front of the closing bracket. -/
def BindingFault.told? (fault : BindingFault) (cs : List Char) : Option BindingError :=
  (behind? ('<' :: fault.word.toList ++ [' ']) cs).bind fun rest =>
    if '>' ∈ rest then some ⟨String.ofList (rest.takeWhile (· != '>')), fault⟩ else none

/-- The markers of a text from left to right, as the errors that they tell. -/
def markers : List Char → List BindingError
  | [] => []
  | c :: cs =>
    ((BindingFault.notFound.told? (c :: cs)).or
      (BindingFault.recursionLimit.told? (c :: cs))).toList ++ markers cs

example : markers "a = <missing a> AND b < 3 AND <recursive c>".toList =
    [⟨"a", .notFound⟩, ⟨"c", .recursionLimit⟩] := by decide +kernel

theorem Draft.toList_marker (error : BindingError) :
    (marker error).toList =
      '<' :: error.fault.word.toList ++ ' ' :: error.name.toList ++ ['>'] := by
  obtain ⟨name, fault⟩ := error
  cases fault <;> simp [marker, BindingFault.word]

theorem markers_cons_of_ne {c : Char} (other : c ≠ '<') (cs : List Char) :
    markers (c :: cs) = markers cs := by
  simp [markers, BindingFault.told?, behind?, Ne.symm other]

theorem markers_append_of_no_bracket {front : List Char} (plain : '<' ∉ front) (cs : List Char) :
    markers (front ++ cs) = markers cs := by
  induction front with
  | nil => rfl
  | cons c front ih =>
    obtain ⟨first, rest⟩ := List.ne_and_not_mem_of_not_mem_cons plain
    rw [List.cons_append, markers_cons_of_ne first.symm, ih rest]

/-- A text that begins with the marker of an error tells this error. -/
theorem BindingFault.told?_marker {error : BindingError}
    (identifier : isIdentifier error.name.toList)
    (cs : List Char) : error.fault.told? ((Draft.marker error).toList ++ cs) = some error := by
  have closing : (error.name.toList ++ '>' :: cs).takeWhile (· != '>') = error.name.toList := by
    refine (span_append ?_ (by simp)).1
    intro c member
    have tail := isTail_of_mem identifier member
    rw [bne_iff_ne]
    rintro rfl
    cases tail
  have split : (Draft.marker error).toList ++ cs =
      ('<' :: error.fault.word.toList ++ [' ']) ++ (error.name.toList ++ '>' :: cs) := by
    simp [Draft.toList_marker]
  rw [told?, behind?_eq_some_iff.mpr split]
  simp [closing]

theorem markers_marker {error : BindingError} (identifier : isIdentifier error.name.toList)
    (cs : List Char) : markers ((Draft.marker error).toList ++ cs) = error :: markers cs := by
  have told := BindingFault.told?_marker identifier cs
  have begins : (Draft.marker error).toList = '<' :: (Draft.marker error).toList.tail := by
    rw [Draft.toList_marker]
    rfl
  have plain : '<' ∉ (Draft.marker error).toList.tail := by
    have inWord : '<' ∉ error.fault.word.toList := by cases error.fault <;> decide
    have inName : '<' ∉ error.name.toList :=
      fun member => absurd (isTail_of_mem identifier member) (by decide)
    simp [Draft.toList_marker, inWord, inName]
  rw [begins, List.cons_append] at told ⊢
  rw [markers, markers_append_of_no_bracket plain]
  cases fault : error.fault with
  | notFound => simp [fault ▸ told]
  | recursionLimit =>
    have other :
        BindingFault.notFound.told? ('<' :: ((Draft.marker error).toList.tail ++ cs)) = none := by
      simp [BindingFault.told?, BindingFault.word, behind?, Draft.toList_marker, fault]
    simp [other, fault ▸ told]

/-! ### Texts with markers -/

/-- A text with the markers of these errors in this order, and with no other opening angle
bracket. -/
inductive Tells : List Char → List BindingError → Prop where
  | nil : Tells [] []
  | char {c : Char} {cs : List Char} {errors : List BindingError} (other : c ≠ '<')
      (rest : Tells cs errors) : Tells (c :: cs) errors
  | marker {error : BindingError} {cs : List Char} {errors : List BindingError}
      (identifier : isIdentifier error.name.toList) (rest : Tells cs errors) :
      Tells ((Draft.marker error).toList ++ cs) (error :: errors)

theorem Sql.collapse_append_shown {word : List Char} (shown : ∀ c ∈ word, isBlank c = false)
    (cs : List Char) : collapse true false (word ++ cs) = word ++ collapse true false cs := by
  induction word with
  | nil => rfl
  | cons c word ih =>
    obtain ⟨first, rest⟩ := List.forall_mem_cons.mp shown
    simp [collapse, first, ih rest]

/-- The one space of a marker is all the white space that it has. -/
theorem collapse_marker {error : BindingError} (identifier : isIdentifier error.name.toList)
    (kept gap : Bool) (cs : List Char) :
    collapse kept gap ((Draft.marker error).toList ++ cs) =
      (if kept && gap then [' '] else []) ++
        ((Draft.marker error).toList ++ collapse true false cs) := by
  have word : ∀ c ∈ error.fault.word.toList, isBlank c = false := by
    cases error.fault <;> simp [BindingFault.word, isBlank]
  have name : ∀ c ∈ error.name.toList, isBlank c = false :=
    fun c member => shown_of_isTail (isTail_of_mem identifier member)
  have behind : collapse true true (error.name.toList ++ '>' :: cs) =
      ' ' :: (error.name.toList ++ '>' :: collapse true false cs) := by
    cases letters : error.name.toList with
    | nil => simp [letters, isIdentifier] at identifier
    | cons c rest =>
      rw [letters] at name
      obtain ⟨first, others⟩ := List.forall_mem_cons.mp name
      have bracket : isBlank '>' = false := by decide
      simp [collapse, first, bracket, collapse_append_shown others]
  have bracket : isBlank '<' = false := by decide
  have space : isBlank ' ' = true := by decide
  by_cases both : kept && gap
  · simp [Draft.toList_marker, collapse, bracket, both, collapse_append_shown word, space, behind]
  · simp [Draft.toList_marker, collapse, bracket, both, collapse_append_shown word, space, behind]

/-- Text without quotes has nothing that could be repeated. -/
theorem Sql.SameButQuotes.of_append {a front b : List Char} (plain : '\'' ∉ front)
    (same : SameButQuotes a (front ++ b)) : ∃ rest, a = front ++ rest ∧ SameButQuotes rest b := by
  induction front generalizing a with
  | nil => exact ⟨a, rfl, same⟩
  | cons c front ih =>
    obtain ⟨first, others⟩ := List.ne_and_not_mem_of_not_mem_cons plain
    rw [List.cons_append] at same
    generalize whole : front ++ b = text at same
    cases same with
    | char _ behind =>
      obtain ⟨rest, rfl, same⟩ := ih others (whole ▸ behind)
      exact ⟨rest, rfl, same⟩
    | quotes => exact absurd rfl first

namespace Tells
variable {a b cs : List Char} {errors more : List BindingError}

theorem markers (tells : Tells cs errors) : SqlTemplate.markers cs = errors := by
  induction tells with
  | nil => rfl
  | char other _ ih => rw [markers_cons_of_ne other, ih]
  | marker identifier _ ih => rw [markers_marker identifier, ih]

theorem of_no_bracket (plain : '<' ∉ cs) : Tells cs [] := by
  induction cs with
  | nil => exact .nil
  | cons c cs ih =>
    obtain ⟨first, rest⟩ := List.ne_and_not_mem_of_not_mem_cons plain
    exact .char first.symm (ih rest)

theorem append (left : Tells a errors) (right : Tells b more) :
    Tells (a ++ b) (errors ++ more) := by
  induction left with
  | nil => exact right
  | char other _ ih => exact .char other ih
  | marker identifier _ ih =>
    rw [List.append_assoc]
    exact .marker identifier ih

/-- Collapsing white space leaves the one space of a marker. -/
theorem collapse (tells : Tells cs errors) (kept gap : Bool) :
    Tells (Sql.collapse kept gap cs) errors := by
  induction tells generalizing kept gap with
  | nil => exact .nil
  | @char c cs errors other _ ih =>
    by_cases blank : isBlank c
    · simpa [Sql.collapse, blank] using ih kept true
    · by_cases both : kept && gap
      · simpa [Sql.collapse, blank, both] using (ih true false).char other |>.char (by decide)
      · simpa [Sql.collapse, blank, both] using (ih true false).char other
  | marker identifier _ ih =>
    rw [collapse_marker identifier]
    split
    · exact .char (by decide) (.marker identifier (ih true false))
    · exact .marker identifier (ih true false)

/-- A marker ends with a bracket. -/
theorem of_concat {c : Char} (other : c ≠ '>') (tells : Tells (cs ++ [c]) errors) :
    Tells cs errors := by
  generalize whole : cs ++ [c] = text at tells
  induction tells generalizing cs with
  | nil => simp at whole
  | @char d rest errors isPlain tells ih =>
    cases cs with
    | nil =>
      obtain ⟨rfl, rfl⟩ : c = d ∧ [] = rest := by simpa using whole
      exact tells
    | cons first cs =>
      obtain ⟨rfl, same⟩ : first = d ∧ cs ++ [c] = rest := by simpa using whole
      exact .char isPlain (ih same)
  | @marker error rest errors identifier tells ih =>
    rcases List.eq_nil_or_concat rest with rfl | ⟨front, d, rfl⟩
    · have last := congrArg List.getLast? whole
      simp [Draft.toList_marker, List.getLast?_cons] at last
      exact absurd last other
    · rw [List.concat_eq_append] at whole ih
      rw [← List.append_assoc] at whole
      obtain ⟨rfl, isLast⟩ := List.append_inj' whole rfl
      exact .marker identifier (ih (by rw [isLast]))

/-- White space and semicolons at the end belong to no marker. -/
theorem of_append_ending {ending : List Char} (isEnding : Ending ending)
    (tells : Tells (cs ++ ending) errors) : Tells cs errors := by
  induction ending using List.reverseRecOn with
  | nil => simpa using tells
  | append_singleton ending c ih =>
    obtain ⟨front, last⟩ := List.forall_mem_append.mp isEnding
    refine ih front (of_concat ?_ (by simpa using tells))
    rintro rfl
    exact absurd (last '>' List.mem_cons_self) (by decide)

/-- What is told outside strings does not depend on how often a quote is repeated. -/
theorem of_sameButQuotes (same : SameButQuotes a b) (tells : Tells b errors) : Tells a errors := by
  induction tells generalizing a with
  | nil =>
    cases same
    exact .nil
  | char other _ ih =>
    cases same with
    | char c same => exact .char other (ih same)
    | @quotes more a b quotes same =>
      cases more with
      | nil => exact .char other (ih same)
      | cons c more =>
        obtain ⟨rfl, rest⟩ := List.forall_mem_cons.mp quotes
        exact ih (.quotes rest same)
  | @marker error cs errors identifier _ ih =>
    obtain ⟨rest, rfl, behind⟩ :=
      same.of_append (Draft.not_mem_marker identifier (by decide) (by decide))
    exact .marker identifier (ih behind)

end Tells

/-! ### Parts that tell their errors -/

/-- Texts that open no angle bracket outside strings. -/
def Wording.unbracketed : Wording where
  literal text := '<' ∉ outside text.toList
  separator text := '<' ∉ text.toList ∧ '\'' ∉ text.toList

/-- The statement of a part tells the errors of the part. -/
structure Part.Telling (part : Part) : Prop where
  balanced : Balanced part.statement.toList
  tells : Tells (visible .outside part.statement.toList) part.errors

namespace Part.Telling
variable {a b : Part}

theorem of_plain {text : String} {arguments : List Scalar} (noQuote : '\'' ∉ text.toList)
    (noBracket : '<' ∉ text.toList) : Telling { statement := text, arguments } := by
  obtain ⟨same, balanced⟩ := visible_of_no_quote noQuote
  exact ⟨balanced, .of_no_bracket (by rwa [same])⟩

theorem literal {text : String} (balanced : Balanced text.toList)
    (allowed : Wording.unbracketed.literal text) : Telling { statement := text } := by
  refine ⟨balanced, .of_no_bracket ?_⟩
  rw [← (outside_visible text.toList).mem_iff (by decide)]
  exact allowed

theorem placeholder (index : UInt32) (value : Scalar) :
    Telling { statement := placeholder index, arguments := [value] } := by
  obtain ⟨same, balanced⟩ := visible_placeholder index
  refine ⟨balanced, .of_no_bracket ?_⟩
  rw [same, toList_placeholder]
  intro member
  rcases List.mem_cons.mp member with dollar | digit
  · exact absurd dollar (by decide)
  · exact absurd (isDigit_of_mem_toString digit) (by decide)

theorem marker {error : BindingError} (identifier : isIdentifier error.name.toList) :
    Telling { statement := Draft.marker error, errors := [error] } := by
  obtain ⟨same, balanced⟩ := visible_of_no_quote (Draft.not_mem_marker identifier
    (c := '\'') (by decide) (by decide))
  refine ⟨balanced, ?_⟩
  rw [same, ← List.append_nil (Draft.marker error).toList]
  exact .marker identifier .nil

theorem append (left : Telling a) (right : Telling b) : Telling (a ++ b) := by
  refine ⟨Part.balanced_append left.balanced right.balanced, ?_⟩
  rw [Part.visible_append left.balanced]
  exact left.tells.append right.tells

theorem normal (inside : Telling a) : Telling a.normal := by
  obtain ⟨ending, isEnding, whole⟩ := visible_normalize a.statement.toList
  have collapsed := inside.tells.collapse false false
  rw [← whole] at collapsed
  have text := a.toList_normal
  refine ⟨?_, ?_⟩
  · rw [text]
    exact inside.balanced.normalize
  · rw [text]
    exact collapsed.of_append_ending isEnding

end Part.Telling

theorem Written.telling {index : UInt32} {part : Part} (written : Written .unbracketed index part) :
    part.Telling := by
  induction written with
  | empty index => exact .of_plain (by simp) (by simp)
  | append _ _ left right => exact left.append right
  | literal index balanced allowed => exact .literal balanced allowed
  | separator index allowed => exact .of_plain allowed.2 allowed.1
  | placeholder index value => exact .placeholder index value
  | comma index => exact .of_plain (by decide) (by decide)
  | marker index identifier => exact .marker identifier
  | normal _ inside => exact inside.normal

/-- An expansion is bound exactly if it has no errors. -/
theorem QuerySet.isOk_expand (set : QuerySet) (name : String) (params : Params)
    (options : Options) : (set.expand name params options).isOk =
      (set.expand name params options).part.errors.isEmpty := by
  unfold expand
  split
  · rw [evaluate_eq, Draft.finish_isOk, Draft.part_finish]
    rfl
  · rfl

/-- Read from left to right, the markers outside the strings of a statement tell the errors of
the expansion, and a statement without markers is bound. -/
theorem markers_expand {set : QuerySet} (sourced : set.Sourced .unbracketed) {name : String}
    (identifier : isIdentifier name.toList) {params : Params} (values : params.Sourced .unbracketed)
    {options : Options} {expansion : Expansion}
    (expanded : set.expand name params options = expansion) :
    markers (outside expansion.part.statement.toList) = expansion.part.errors ∧
      (expansion.isOk ↔ markers (outside expansion.part.statement.toList) = []) := by
  have telling : (set.expand name params options).part.Telling := by
    by_cases known : name ∈ set.names
    · exact (QuerySet.expand_written sourced known values options).telling
    · have missing : set.get? name = none := QuerySet.get?_eq_none_iff.mpr known
      have answer : (set.expand name params options).part =
          { statement := Draft.marker ⟨name, .notFound⟩, errors := [⟨name, .notFound⟩] } := by
        simp [QuerySet.expand, missing, Expansion.part]
      rw [answer]
      exact .marker identifier
  have isOk := set.isOk_expand name params options
  rw [expanded] at telling isOk
  have told : markers (outside expansion.part.statement.toList) = expansion.part.errors :=
    (telling.tells.of_sameButQuotes (outside_visible _)).markers
  refine ⟨told, ?_⟩
  rw [told, isOk, List.isEmpty_iff]

/-- Queries on two levels, and a string that looks like a marker. -/
def layered : String :=
  "-- name: leaf\nx = :x\n-- name: mid\n(:leaf)\n-- name: top\n" ++
    ":leaf OR :mid OR :more OR t = '<missing t>'"

def layeredSet : QuerySet where
  queries :=
    [ ⟨"leaf", none, [.literal "x = ", .parameter "x", .literal " "], ⟨1, 1⟩⟩
    , ⟨"mid", none, [.literal "(", .parameter "leaf", .literal ") "], ⟨3, 1⟩⟩
    , ⟨"top", none, [.parameter "leaf", .literal " OR ", .parameter "mid", .literal " OR ",
        .parameter "more", .literal " OR t = '<missing t>'"], ⟨5, 1⟩⟩ ]

/-- A composition of a query that is not there and of one that has its own parameters. -/
def layeredParams : Params where
  entries :=
    [ ("more", .inner
        [ ⟨.name "nobody", none⟩
        , ⟨.reference ⟨"leaf", .pieces [.literal "x = ", .parameter "x", .literal " "] layeredSet⟩,
            some ⟨[("x", .list [.int 1, .int 2])]⟩⟩ ] " AND ") ]

theorem parse_layered : QuerySet.parse layered = .ok layeredSet := by
  have parsed : Document.parse layered = .ok (.named
      [ ⟨some "leaf", none, [.literal "x", .literal " ", .literal "=", .literal " ",
          .parameter "x", .literal " "], ⟨1, 1⟩⟩
      , ⟨some "mid", none, [.literal "(", .parameter "leaf", .literal ")", .literal " "], ⟨3, 1⟩⟩
      , ⟨some "top", none, [.parameter "leaf", .literal " ", .literal "OR", .literal " ",
          .parameter "mid", .literal " ", .literal "OR", .literal " ", .parameter "more",
          .literal " ", .literal "OR", .literal " ", .literal "t", .literal " ", .literal "=",
          .literal " ", .literal "'<missing t>'"], ⟨5, 1⟩⟩ ]) := by
    decide +kernel
  exact QuerySet.parse_eq_ok_iff.mpr ⟨_, parsed, by cbv⟩

theorem layeredSet_sourced : layeredSet.Sourced .unbracketed := by
  refine ⟨⟨layered, parse_layered⟩, ?_⟩
  have plain : ∀ query ∈ layeredSet.queries, ∀ piece ∈ query.pieces, ∀ text ∈ piece.text?,
      '<' ∉ visible .outside text.toList := by decide
  intro query member text isPiece
  have inText : '<' ∉ visible .outside text.toList := plain query member _ isPiece text rfl
  rwa [← (outside_visible text.toList).mem_iff (by decide)] at inText

theorem layeredParams_sourced : layeredParams.Sourced .unbracketed := by
  apply Params.Sourced.of_entries
  simp only [layeredParams, List.forall_mem_cons]
  refine ⟨.inner ⟨by decide, by decide⟩ ?_, by simp⟩
  simp only [List.forall_mem_cons]
  refine ⟨.mk (by rfl) (by simp), .mk ⟨layeredSet, "leaf", layeredSet_sourced, rfl⟩ ?_, by simp⟩
  rintro _ ⟨⟩
  apply Params.Sourced.of_entries
  simp only [List.forall_mem_cons]
  exact ⟨.list _, by simp⟩

/-- What is missing, what is nested too deeply and what is unknown is marked in its place. -/
theorem layered_markers :
    ∃ expansion, layeredSet.expand "top" layeredParams { index := 3, maxDepth := 1 } = expansion ∧
      expansion.part.statement = "x = <missing x> OR (<recursive leaf>) OR " ++
        "<missing nobody> AND x = $3,$4 OR t = '<missing t>'" ∧
      markers (outside expansion.part.statement.toList) =
        [⟨"x", .notFound⟩, ⟨"leaf", .recursionLimit⟩, ⟨"nobody", .notFound⟩] ∧
      expansion.isOk = false := by
  refine ⟨_, rfl, by decide +kernel, ?_, by rfl⟩
  exact (markers_expand layeredSet_sourced (by decide) layeredParams_sourced rfl).1.trans (by rfl)

end SqlTemplate
