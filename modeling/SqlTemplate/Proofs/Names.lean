import SqlTemplate.Proofs.Colons
import SqlTemplate.Proofs.Scans
import SqlTemplate.Proofs.Stacking

/-!
# Names of queries and of parameters

The name of a query is checked as a whole, and the name of a parameter is taken from the front
of a text. Both are identifiers, and the second is the longest one that there is
(`Lexeme.read_parameter_iff`). So a query with any name that a directive may give it can be
referred to (`named_referable`).
-/

namespace SqlTemplate
open SqlTemplate.Text SqlTemplate.Identifier SqlTemplate.Source

/-! ### The longest identifier -/

/-- What follows the longest identifier does not go on with it. -/
theorem LongestIdentifier.ends {name rest : List Char}
    (isLongest : LongestIdentifier name (name ++ rest)) : ∀ c ∈ rest.head?, isTail c = false := by
  intro c isFirst
  obtain ⟨more, rfl⟩ := List.head?_eq_some_iff.mp isFirst
  by_contra tail
  obtain ⟨identifier, _, longest⟩ := isLongest
  have front : name ++ [c] <+: name ++ c :: more := ⟨more, by simp⟩
  have longer : isIdentifier (name ++ [c]) := by
    cases name with
    | nil => cases identifier
    | cons first name => simp_all [isIdentifier]
  exact absurd (longest _ front longer) (by simp)

/-- There is a longest identifier at the front of a text if there is any. -/
theorem LongestIdentifier.exists_of_front {other text : List Char} (front : other <+: text)
    (identifier : isIdentifier other) :
    ∃ name rest, name ++ rest = text ∧ LongestIdentifier name text := by
  have head : text.head?.any isHead := by
    obtain ⟨rest, rfl⟩ := front
    cases other with
    | nil => cases identifier
    | cons c other => simpa using (Bool.and_eq_true_iff.mp identifier).1
  have whole : text.takeWhile isTail ++ text.dropWhile isTail = text :=
    List.takeWhile_append_dropWhile
  have isLongest := LongestIdentifier.of_append (isIdentifier_takeWhile head) (span_spec text).2
  rw [whole] at isLongest
  exact ⟨_, _, whole, isLongest⟩

/-- Behind a colon, the lexer reads the longest identifier. -/
theorem Lexeme.read_parameter_iff {leading : Bool} {text name raw rest : List Char} :
    Lexeme.read leading ':' text = .ok (.token .parameter name raw, rest) ↔
      raw = ':' :: name ∧ name ++ rest = text ∧ LongestIdentifier name text := by
  rw [Lexeme.read_eq_ok_iff]
  constructor
  · rintro ⟨whole, fits⟩
    cases fits with
    | parameter identifier ends =>
      obtain ⟨_, rfl⟩ := List.cons.inj whole
      exact ⟨rfl, rfl, .of_append identifier ends⟩
  · rintro ⟨rfl, rfl, isLongest⟩
    exact ⟨rfl, .parameter isLongest.identifier isLongest.ends⟩

/-- The lexer reads no parameter behind a colon just if no identifier is there. -/
theorem Lexeme.read_ne_parameter_iff {leading : Bool} {text : List Char} :
    (∀ name raw rest, Lexeme.read leading ':' text ≠ .ok (.token .parameter name raw, rest)) ↔
      ∀ other, other <+: text → other ≠ [] → isIdentifier other = false := by
  constructor
  · intro none other front _
    by_contra identifier
    obtain ⟨name, rest, whole, isLongest⟩ :=
      LongestIdentifier.exists_of_front front (by simpa using identifier)
    exact none name _ rest (read_parameter_iff.mpr ⟨rfl, whole, isLongest⟩)
  · intro none name raw rest read
    obtain ⟨_, _, identifier, front, _⟩ := read_parameter_iff.mp read
    have nonempty : name ≠ [] := by
      rintro rfl
      cases identifier
    rw [none name front nonempty] at identifier
    cases identifier

/-! ### Directives -/

theorem trim_cons_space (cs : List Char) : trim (' ' :: cs) = trim cs := by
  have blank : isBlank ' ' := by decide
  simp [trim, blank]

theorem Directive.of_space (said : List Char) :
    Directive "name:" (" name: ".toList ++ said) (' ' :: said) :=
  ⟨[' '], by simp, by simp⟩

/-- A line that names a query is read if what it says is an identifier, and only then. -/
theorem lexemes_name {said line rest : List Char} {cursor : Cursor}
    (isLine : line = "-- name: ".toList ++ said) (oneLine : ∀ c ∈ said, isLineBreak c = false)
    (ends : ∀ c ∈ rest.head?, isLineBreak c) (first : cursor.leading) :
    lexemes cursor (line ++ rest) =
      if isIdentifier (trim said) then
        (lexemes (cursor.advance line rest) rest).map
          (⟨cursor.position, .token .name (trim said) line⟩ :: ·)
      else .error ⟨cursor.position, .invalidQueryName (String.ofList (trim said))⟩ := by
  subst isLine
  have inLine : Line (" name: ".toList ++ said) rest := by
    refine ⟨?_, ends⟩
    intro c member
    rcases List.mem_append.mp member with keyword | behind
    · have none : ∀ c ∈ " name: ".toList, isLineBreak c = false := by simp [isLineBreak]
      exact none c keyword
    · exact oneLine c behind
  rw [← trim_cons_space said]
  split
  · next identifier => exact lexemes_of_fits (.name inLine first (.of_space said) identifier)
  · next other =>
    have blocked := Blocked.name inLine first (.of_space said) (by simpa using other)
    exact lexemes_of_error blocked.read

/-- Every query that can be named can be referred to. A line names a query just if it says an
identifier, and the same identifier behind a colon is read as one parameter, wherever that
stands and whatever follows that does not go on with it. The identifier that is read behind a
colon is the longest one, and none is read just if there is none. -/
theorem named_referable {said line rest : List Char} {cursor : Cursor}
    (isLine : line = "-- name: ".toList ++ said) (oneLine : ∀ c ∈ said, isLineBreak c = false)
    (ends : ∀ c ∈ rest.head?, isLineBreak c) (first : cursor.leading) :
    (lexemes cursor (line ++ rest) =
      if isIdentifier (trim said) then
        (lexemes (cursor.advance line rest) rest).map
          (⟨cursor.position, .token .name (trim said) line⟩ :: ·)
      else .error ⟨cursor.position, .invalidQueryName (String.ofList (trim said))⟩) ∧
    (isIdentifier (trim said) →
      ∀ (place : Cursor) (after : List Char), (∀ c ∈ after.head?, isTail c = false) →
        lexemes place (':' :: (trim said ++ after)) =
          (lexemes (place.advance (':' :: trim said) after) after).map
            (⟨place.position, .token .parameter (trim said) (':' :: trim said)⟩ :: ·)) ∧
    ∀ leading text,
      (∀ name raw left,
        Lexeme.read leading ':' text = .ok (.token .parameter name raw, left) ↔
          raw = ':' :: name ∧ name ++ left = text ∧ LongestIdentifier name text) ∧
      ((∀ name raw left,
          Lexeme.read leading ':' text ≠ .ok (.token .parameter name raw, left)) ↔
        ∀ other, other <+: text → other ≠ [] → isIdentifier other = false) := by
  refine ⟨lexemes_name isLine oneLine ends first, ?_, fun leading text => ?_⟩
  · intro identifier place after stops
    exact lexemes_of_fits (.parameter identifier stops)
  · exact ⟨fun name raw left => Lexeme.read_parameter_iff, Lexeme.read_ne_parameter_iff⟩

def oldPeople : List Char := "old_people2".toList

/-- A name with white space around it is read, and so is a parameter of this name in front of a
cast. -/
theorem old_people_referable :
    lexemes {} "-- name:   old_people2\t".toList =
        .ok [⟨⟨1, 1⟩, .token .name oldPeople "-- name:   old_people2\t".toList⟩] ∧
      lexemes ⟨⟨3, 8⟩, false⟩ ":old_people2::int".toList =
        .ok [ ⟨⟨3, 8⟩, .token .parameter oldPeople ":old_people2".toList⟩
            , ⟨⟨3, 20⟩, .token .fragment "::int".toList "::int".toList⟩ ] ∧
      LongestIdentifier oldPeople "old_people2::int".toList := by
  have oneLine : ∀ c ∈ "  old_people2\t".toList, isLineBreak c = false := by simp [isLineBreak]
  have noRest : ∀ c ∈ ([] : List Char).head?, isLineBreak c := by simp
  have nothing : ∀ cursor, lexemes cursor [] = .ok [] :=
    fun cursor => lexemes_eq_ok_iff.mpr ⟨rfl, .nil cursor⟩
  have stops : ∀ c ∈ "::int".toList.head?, isTail c = false := by
    rintro _ ⟨⟩
    decide
  have first : (⟨⟨1, 1⟩, true⟩ : Cursor).leading := rfl
  obtain ⟨named, referred, behindColon⟩ := named_referable rfl oneLine noRest first
  have isName : trim "  old_people2\t".toList = oldPeople := by decide
  rw [isName] at named referred
  have identifier : isIdentifier oldPeople := by decide
  have cast : lexemes ⟨⟨3, 20⟩, false⟩ "::int".toList =
      .ok [⟨⟨3, 20⟩, .token .fragment "::int".toList "::int".toList⟩] := by decide +kernel
  have read : Lexeme.read false ':' "old_people2::int".toList =
      .ok (.token .parameter oldPeople ":old_people2".toList, "::int".toList) := by decide
  refine ⟨?_, ?_, (((behindColon false _).1 _ _ _).mp read).2.2⟩
  · exact named.trans ((if_pos identifier).trans (congrArg (Except.map _) (nothing _)))
  · exact (referred identifier ⟨⟨3, 8⟩, false⟩ _ stops).trans (congrArg (Except.map _) cast)

end SqlTemplate
