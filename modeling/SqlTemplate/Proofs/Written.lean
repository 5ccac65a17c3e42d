import SqlTemplate.Proofs.Part
import SqlTemplate.Proofs.Source

/-!
# How statements come about

Whatever its parameters are bound to, an expansion is put together from a few things:
literals, separators, placeholders in a row, commas, markers, and other expansions
(`Written`). So what holds of each of these, and of one after the other, holds of every
statement that a set expands to (`expand_written`).
-/

namespace SqlTemplate
open SqlTemplate.Sql SqlTemplate.Identifier

/-! ### What takes part in an expansion -/

/-- Which texts the literals of a source and the separators of values may be. -/
structure Wording where
  literal : String → Prop
  separator : String → Prop

/-- A set that was read from a source text, with literals as the wording has them. -/
structure QuerySet.Sourced (wording : Wording) (set : QuerySet) : Prop where
  parsed : ∃ text, QuerySet.parse text = .ok set
  literals : ∀ query ∈ set.queries, ∀ text, .literal text ∈ query.pieces → wording.literal text

/-- A reference to a query of such a set. -/
def Reference.Sourced (wording : Wording) (reference : Reference) : Prop :=
  ∃ set name, QuerySet.Sourced wording set ∧ set.reference? name = some reference

/-- A name that a query can have, or a reference. -/
def Target.Sourced (wording : Wording) : Target → Prop
  | name word => isIdentifier word.toList
  | reference query => query.Sourced wording

mutual

/-- A value in which every reference is sourced, every separator is as the wording has it,
and every call is to an identifier or a reference. -/
inductive Value.Sourced (wording : Wording) : Value → Prop where
  | scalar (value : Scalar) : Value.Sourced wording (.scalar value)
  | list (values : List Scalar) : Value.Sourced wording (.list values)
  | query {reference : Reference} (sourced : reference.Sourced wording) :
      Value.Sourced wording (.query reference)
  | inner {calls : List Call} {separator : String} (allowed : wording.separator separator)
      (each : ∀ call ∈ calls, Call.Sourced wording call) :
      Value.Sourced wording (.inner calls separator)

/-- A call of that kind, whose own parameters are of that kind. -/
inductive Call.Sourced (wording : Wording) : Call → Prop where
  | mk {target : Target} {own : Option Params} (sourced : target.Sourced wording)
      (values : ∀ params, own = some params → ∀ name value, params.get? name = some value →
        Value.Sourced wording value) :
      Call.Sourced wording ⟨target, own⟩

end

/-- All values are of that kind. -/
def Params.Sourced (wording : Wording) (params : Params) : Prop :=
  ∀ name value, params.get? name = some value → value.Sourced wording

/-- The body of a query of a sourced set. -/
def Callee.Sourced (wording : Wording) (callee : Callee) : Prop :=
  ∃ set name query, QuerySet.Sourced wording set ∧ set.get? name = some query ∧
    callee = .pieces query.pieces set

/-- A literal as the wording has it, or a parameter with an identifier. -/
def Piece.Allowed (wording : Wording) : Piece → Prop
  | literal text => Balanced text.toList ∧ wording.literal text
  | parameter name => isIdentifier name.toList

variable {wording : Wording}

theorem QuerySet.Sourced.query {set : QuerySet} (sourced : set.Sourced wording) {name : String}
    {query : NamedQuery} (found : set.get? name = some query) :
    isIdentifier name.toList ∧ ∀ piece ∈ query.pieces, piece.Allowed wording := by
  obtain ⟨identifier, sound⟩ := QuerySet.Parsed.query sourced.parsed found
  have member := List.mem_of_find?_eq_some found
  refine ⟨identifier, ?_⟩
  intro piece isPiece
  cases piece with
  | literal text => exact ⟨sound _ isPiece, sourced.literals query member text isPiece⟩
  | parameter name => exact sound _ isPiece

theorem Reference.Sourced.callee {reference : Reference} (sourced : reference.Sourced wording) :
    isIdentifier reference.name.toList ∧ reference.callee.Sourced wording := by
  obtain ⟨set, name, inSet, found⟩ := sourced
  obtain ⟨query, isQuery, rfl⟩ := Option.map_eq_some_iff.mp found
  exact ⟨(inSet.query isQuery).1, set, name, query, inSet, isQuery, rfl⟩

/-! ### What statements are made of -/

/-- A part that is made of literals, separators, placeholders, commas and markers, where
the placeholders count on from a number. Any stretch of it may be in normal form. -/
inductive Written (wording : Wording) : UInt32 → Part → Prop where
  | empty (index : UInt32) : Written wording index {}
  | append {index : UInt32} {a b : Part} (first : Written wording index a)
      (second : Written wording (advance index a.arguments.length) b) :
      Written wording index (a ++ b)
  | literal (index : UInt32) {text : String} (balanced : Balanced text.toList)
      (allowed : wording.literal text) : Written wording index { statement := text }
  | separator (index : UInt32) {text : String} (allowed : wording.separator text) :
      Written wording index { statement := text }
  | placeholder (index : UInt32) (value : Scalar) :
      Written wording index { statement := placeholder index, arguments := [value] }
  | comma (index : UInt32) : Written wording index { statement := "," }
  | marker (index : UInt32) {error : BindingError} (identifier : isIdentifier error.name.toList) :
      Written wording index { statement := Draft.marker error, errors := [error] }
  | normal {index : UInt32} {a : Part} (inside : Written wording index a) :
      Written wording index a.normal

theorem Written.list (index : UInt32) (values : List Scalar) :
    Written wording index (.list index values) := by
  induction values generalizing index with
  | nil => exact .empty index
  | cons value values ih =>
    cases values with
    | nil => exact .placeholder index value
    | cons next values =>
      rw [Part.list_cons_cons]
      exact (Written.append (.placeholder index value) (.comma _)).append (ih (advance index 1))

/-- The marker of an identifier has no other characters than its own and those of words. -/
theorem Draft.not_mem_marker {error : BindingError} (identifier : isIdentifier error.name.toList)
    {c : Char} (other : isTail c = false) (unused : c ∉ "<missing recursive>".toList) :
    c ∉ (marker error).toList := by
  have notInName : c ∉ error.name.toList := by
    intro member
    rw [isTail_of_mem identifier member] at other
    cases other
  obtain ⟨name, fault⟩ := error
  cases fault <;> simp_all [marker]

/-! ### What is added to drafts -/

/-- A draft grew by a part that is written from the number the draft had come to. -/
def Draft.Writes (wording : Wording) (draft after : Draft) : Prop :=
  0 < draft.index.toNat → ∃ part, after = draft.extend part ∧ Written wording draft.index part

/-- Pieces of a sourced set expand with values and answers that are sourced. -/
structure Scope.Sourced (wording : Wording) (scope : Scope) : Prop where
  set : scope.set.Sourced wording
  params : scope.params.Sourced wording
  answers : ∀ call, scope.caller? = some call → ∀ callee : Callee, callee.Sourced wording →
    ∀ params : Params, params.Sourced wording → ∀ options : Options,
      Written wording (max options.index 1) (call callee params options).part

namespace Draft
variable {draft after last : Draft} {scope : Scope}

namespace Writes

theorem refl (draft : Draft) : draft.Writes wording draft :=
  fun _ => ⟨{}, draft.extend_empty.symm, .empty _⟩

theorem trans (first : draft.Writes wording after) (second : after.Writes wording last) :
    draft.Writes wording last := by
  intro positive
  obtain ⟨a, rfl, written⟩ := first positive
  obtain ⟨b, rfl, written'⟩ := second (advance_pos positive _)
  exact ⟨a ++ b, extend_extend .., written.append written'⟩

theorem of_part {part : Part} (written : Written wording draft.index part) :
    draft.Writes wording (draft.extend part) :=
  fun _ => ⟨part, rfl, written⟩

end Writes

theorem list_writes (values : List Scalar) : draft.Writes wording (draft.list values) := by
  rw [list_eq_extend]
  exact .of_part (.list _ _)

theorem fail_writes {error : BindingError} (identifier : isIdentifier error.name.toList) :
    draft.Writes wording (draft.fail error) := by
  rw [fail_eq_extend]
  exact .of_part (.marker _ identifier)

theorem separator_writes {text : String} (allowed : wording.separator text) :
    draft.Writes wording (draft.literal text) := by
  rw [literal_eq_extend]
  exact .of_part (.separator _ allowed)

theorem compose_writes (ready : scope.Sourced wording) {name : String}
    (identifier : isIdentifier name.toList) {callee : Callee} (sourced : callee.Sourced wording)
    {params : Params} (values : params.Sourced wording) :
    draft.Writes wording (draft.compose scope name callee params) := by
  unfold compose
  split
  · next call found =>
    intro positive
    have answer := ready.answers call found callee sourced params values
      (scope.options.nested draft.index)
    have first : max (scope.options.nested draft.index).index 1 = draft.index := max_one_eq positive
    rw [first] at answer
    exact ⟨_, splice_eq_extend .., answer⟩
  · exact fail_writes identifier

theorem call_writes (ready : scope.Sourced wording) {call : Call} (sourced : call.Sourced wording) :
    draft.Writes wording (draft.call scope call) := by
  cases sourced with
  | @mk target own isTarget values =>
    have known : (own.getD scope.params).Sourced wording := by
      cases own with
      | none => exact ready.params
      | some params => exact values params rfl
    cases target with
    | reference reference =>
      have isReference : reference.Sourced wording := isTarget
      exact compose_writes ready isReference.callee.1 isReference.callee.2 known
    | name name =>
      have identifier : isIdentifier name.toList := isTarget
      simp only [Draft.call]
      split
      · next query found =>
        exact compose_writes ready identifier ⟨scope.set, name, query, ready.set, found, rfl⟩ known
      · exact fail_writes identifier

theorem inner_writes (ready : scope.Sourced wording) {calls : List Call} {separator : String}
    (allowed : wording.separator separator) (each : ∀ call ∈ calls, call.Sourced wording) :
    draft.Writes wording (draft.inner scope separator calls) := by
  cases calls with
  | nil => exact .refl draft
  | cons first more =>
    obtain ⟨isFirst, isMore⟩ := List.forall_mem_cons.mp each
    have further (draft : Draft) : draft.Writes wording
        (more.foldl (fun draft call => (draft.literal separator).call scope call) draft) := by
      clear each
      induction more generalizing draft with
      | nil => exact .refl draft
      | cons next more ih =>
        obtain ⟨isNext, rest⟩ := List.forall_mem_cons.mp isMore
        exact (separator_writes allowed).trans ((call_writes ready isNext).trans (ih rest _))
    exact (call_writes ready isFirst).trans (further _)

theorem value_writes (ready : scope.Sourced wording) {value : Value} (sourced : value.Sourced wording) :
    draft.Writes wording (draft.value scope value) := by
  cases sourced with
  | scalar value => exact list_writes [value]
  | list values => exact list_writes values
  | query sourced =>
    obtain ⟨identifier, callee⟩ := sourced.callee
    exact compose_writes ready identifier callee ready.params
  | inner allowed each => exact inner_writes ready allowed each

theorem add_writes (ready : scope.Sourced wording) {piece : Piece} (allowed : piece.Allowed wording) :
    draft.Writes wording (draft.add scope piece) := by
  cases piece with
  | literal text =>
    simp only [add, literal_eq_extend]
    exact .of_part (.literal _ allowed.1 allowed.2)
  | parameter name =>
    simp only [add]
    split
    · next query found =>
      exact compose_writes ready allowed ⟨scope.set, name, query, ready.set, found, rfl⟩ ready.params
    · split
      · next value bound => exact value_writes ready (ready.params name value bound)
      · split
        · exact .refl draft
        · exact fail_writes allowed

theorem foldl_writes (ready : scope.Sourced wording) {pieces : List Piece}
    (allowed : ∀ piece ∈ pieces, piece.Allowed wording) :
    draft.Writes wording (pieces.foldl (add scope) draft) := by
  induction pieces generalizing draft with
  | nil => exact .refl draft
  | cons piece pieces ih =>
    obtain ⟨first, rest⟩ := List.forall_mem_cons.mp allowed
    exact (add_writes ready first).trans (ih rest)

end Draft

/-- What allowed pieces expand to is written from the first number on. -/
theorem Scope.Sourced.written {scope : Scope} (ready : scope.Sourced wording) {pieces : List Piece}
    (allowed : ∀ piece ∈ pieces, piece.Allowed wording) :
    Written wording (max scope.options.index 1) (Draft.ofPieces scope pieces).finish.part := by
  have grows : (Draft.start scope.options.index).Writes wording (Draft.ofPieces scope pieces) :=
    Draft.foldl_writes ready allowed
  obtain ⟨part, whole, written⟩ := grows (max_one_pos _)
  rw [whole, Draft.finish_part]
  exact written.normal

/-- Answers of sourced queries are written, however deeply compositions may be nested. -/
theorem Callee.answer_written {room : Nat} {callee : Callee} (sourced : callee.Sourced wording)
    {params : Params} (values : params.Sourced wording) (options : Options) :
    Written wording (max options.index 1) (callee.answer room params options).part := by
  induction room generalizing callee params options with
  | zero =>
    obtain ⟨set, name, query, isSet, found, rfl⟩ := sourced
    have ready : (Scope.withRoom set params options 0).Sourced wording :=
      ⟨isSet, values, by rintro _ ⟨⟩⟩
    exact ready.written (isSet.query found).2
  | succ room ih =>
    obtain ⟨set, name, query, isSet, found, rfl⟩ := sourced
    have ready : (Scope.withRoom set params options (room + 1)).Sourced wording := by
      refine ⟨isSet, values, ?_⟩
      rintro _ ⟨⟩ callee sourced params values options
      exact ih sourced values options
    exact ready.written (isSet.query found).2

/-- Whatever a sourced set expands a query to is written from the first number on. -/
theorem QuerySet.expand_written {set : QuerySet} (sourced : set.Sourced wording) {name : String}
    (known : name ∈ set.names) {params : Params} (values : params.Sourced wording)
    (options : Options) :
    Written wording (max options.index 1) (set.expand name params options).part := by
  obtain ⟨query, found⟩ := QuerySet.exists_get? known
  unfold QuerySet.expand
  rw [found]
  exact Callee.answer_written ⟨set, name, query, sourced, found, rfl⟩ values options

/-! ### A set and parameters -/

theorem Params.Sourced.of_entries {params : Params}
    (each : ∀ entry ∈ params.entries, entry.2.Sourced wording) : params.Sourced wording := by
  intro name value found
  exact each _ (Params.mem_entries_of_get? found)

/-- Two queries of people. -/
def people : String :=
  "-- name: old\nage > :limit\n-- name: search\n:filter AND note <> '$1?'"

def peopleSet : QuerySet where
  queries :=
    [ ⟨"old", none, [.literal "age > ", .parameter "limit", .literal " "], ⟨1, 1⟩⟩
    , ⟨"search", none, [.parameter "filter", .literal " AND note <> '$1?'"], ⟨3, 1⟩⟩ ]

/-- A filter that composes a query by its name, and by a reference with parameters of its own. -/
def peopleParams : Params where
  entries :=
    [ ("limit", .scalar (.int 18))
    , ("filter", .inner
        [ ⟨.name "old", none⟩
        , ⟨.reference ⟨"old", .pieces [.literal "age > ", .parameter "limit", .literal " "] peopleSet⟩,
            some ⟨[("limit", .list [.int 60, .int 70])]⟩⟩ ] " OR ") ]

theorem parse_people : QuerySet.parse people = .ok peopleSet := by
  have parsed : Document.parse people = .ok (.named
      [ ⟨some "old", none, [.literal "age", .literal " ", .literal ">", .literal " ",
          .parameter "limit", .literal " "], ⟨1, 1⟩⟩
      , ⟨some "search", none, [.parameter "filter", .literal " ", .literal "AND", .literal " ",
          .literal "note", .literal " ", .literal "<>", .literal " ", .literal "'$1?'"], ⟨3, 1⟩⟩ ]) := by
    decide +kernel
  exact QuerySet.parse_eq_ok_iff.mpr ⟨_, parsed, by cbv⟩

theorem expand_people : (peopleSet.expand "search" peopleParams { index := 4 }).part =
    { statement := "age > $4 OR age > $5,$6 AND note <> '$1?'"
      arguments := [.int 18, .int 60, .int 70] } := by
  rfl

theorem peopleSet_sourced
    (literals : ∀ text ∈ ["age > ", " ", " AND note <> '$1?'"], wording.literal text) :
    peopleSet.Sourced wording := by
  refine ⟨⟨people, parse_people⟩, ?_⟩
  intro query member text isPiece
  apply literals
  simp only [peopleSet, List.mem_cons, List.not_mem_nil, or_false] at member
  rcases member with rfl | rfl
  · have : text = "age > " ∨ text = " " := by simpa using isPiece
    rcases this with rfl | rfl <;> simp
  · have : text = " AND note <> '$1?'" := by simpa using isPiece
    simp [this]

theorem peopleParams_sourced (set : peopleSet.Sourced wording) (allowed : wording.separator " OR ") :
    peopleParams.Sourced wording := by
  apply Params.Sourced.of_entries
  simp only [peopleParams, List.forall_mem_cons]
  refine ⟨.scalar _, .inner allowed ?_, by simp⟩
  simp only [List.forall_mem_cons]
  refine ⟨.mk (by rfl) (by simp), .mk ⟨peopleSet, "old", set, rfl⟩ ?_, by simp⟩
  rintro _ ⟨⟩
  apply Params.Sourced.of_entries
  simp only [List.forall_mem_cons]
  exact ⟨.list _, by simp⟩

end SqlTemplate
