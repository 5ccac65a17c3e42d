import SqlTemplate.Proofs.Placeholders
import SqlTemplate.Proofs.Reports
import SqlTemplate.Proofs.Written

/-!
# The spaces between words

How much white space stands between the words of a query does not show once its statement
is in normal form. Texts that are squeezed to the same wherever they stand take each
other's place in a body (`Respaced`), and two sets whose bodies differ in such texts alone
expand to the same (`expand_respaced`).
-/

namespace SqlTemplate
open SqlTemplate.Text SqlTemplate.Sql SqlTemplate.Identifier

/-! ### Texts -/

namespace Sql

/-- Texts that close their strings and that are squeezed to the same outside strings,
whatever comes before and after. -/
structure Respaced (a b : List Char) : Prop where
  left : Balanced a
  right : Balanced b
  squeezed : ∀ kept gap rest,
    squeeze .outside kept gap (a ++ rest) = squeeze .outside kept gap (b ++ rest)

/-- What a text is squeezed to does not depend on what follows, and what follows is
squeezed as if it stood in its place alone. -/
theorem squeeze_append (place : Place) (kept gap : Bool) (cs : List Char) :
    ∃ squeezed kept' gap', ∀ rest, squeeze place kept gap (cs ++ rest) =
      squeezed ++ squeeze (place.after cs) kept' gap' rest := by
  induction cs generalizing place kept gap with
  | nil => exact ⟨[], kept, gap, fun _ => rfl⟩
  | cons c cs ih =>
    by_cases skipped : (place == .outside && isBlank c) = true
    · obtain ⟨squeezed, kept', gap', whole⟩ := ih place kept true
      have stays : place.next c = place := by
        obtain ⟨out, blank⟩ := Bool.and_eq_true_iff.mp skipped
        obtain rfl : place = .outside := by simpa using out
        exact Place.next_of_ne (ne_of_isBlank blank (by decide))
      refine ⟨squeezed, kept', gap', fun rest => ?_⟩
      rw [List.cons_append, squeeze, if_pos skipped, whole, Place.after_cons, stays]
    · obtain ⟨squeezed, kept', gap', whole⟩ := ih (place.next c) true false
      by_cases both : (kept && gap) = true
      · refine ⟨' ' :: c :: squeezed, kept', gap', fun rest => ?_⟩
        rw [List.cons_append, squeeze, if_neg skipped, if_pos both, whole]
        rfl
      · refine ⟨c :: squeezed, kept', gap', fun rest => ?_⟩
        rw [List.cons_append, squeeze, if_neg skipped, if_neg both, whole]
        rfl

namespace Respaced
variable {a b c d : List Char}

theorem refl (balanced : Balanced a) : Respaced a a := ⟨balanced, balanced, fun _ _ _ => rfl⟩

theorem append (first : Respaced a b) (second : Respaced c d) : Respaced (a ++ c) (b ++ d) := by
  refine ⟨first.left.append second.left, first.right.append second.right, ?_⟩
  intro kept gap rest
  obtain ⟨squeezed, kept', gap', whole⟩ := squeeze_append .outside kept gap b
  calc squeeze .outside kept gap (a ++ c ++ rest)
      = squeeze .outside kept gap (b ++ (c ++ rest)) := by rw [List.append_assoc, first.squeezed]
    _ = squeezed ++ squeeze .outside kept' gap' (c ++ rest) := by rw [whole, first.right]
    _ = squeezed ++ squeeze .outside kept' gap' (d ++ rest) := by rw [second.squeezed]
    _ = squeeze .outside kept gap (b ++ (d ++ rest)) := by rw [whole, first.right]
    _ = squeeze .outside kept gap (b ++ d ++ rest) := by rw [List.append_assoc]

/-- A space in front of a space is one too many. -/
theorem space (spaced : Respaced a (' ' :: b)) : Respaced (' ' :: a) (' ' :: b) := by
  have blank : isBlank ' ' = true := by decide
  refine ⟨spaced.left, spaced.right, ?_⟩
  intro kept gap rest
  have skips (gap : Bool) (cs : List Char) :
      squeeze .outside kept gap (' ' :: cs) = squeeze .outside kept true cs := by
    simp [squeeze, blank]
  have same := spaced.squeezed kept true rest
  rw [List.cons_append, skips] at same
  rw [List.cons_append, List.cons_append, skips, skips, same]

theorem normalize_eq (spaced : Respaced a b) : normalize a = normalize b := by
  have same := spaced.squeezed false false []
  simp only [List.append_nil] at same
  rw [normalize, same, normalize]

end Respaced
end Sql

/-! ### Sets -/

/-- Literals that are respaced, or one parameter. -/
inductive Piece.Respaced : Piece → Piece → Prop where
  | literal {a b : String} (spaced : Sql.Respaced a.toList b.toList) :
      Respaced (.literal a) (.literal b)
  | parameter {name : String} (identifier : isIdentifier name.toList) :
      Respaced (.parameter name) (.parameter name)

/-- Queries that differ in the spaces of their bodies, and in their positions. -/
structure NamedQuery.Respaced (query other : NamedQuery) : Prop where
  name : query.name = other.name
  docs : query.docs = other.docs
  pieces : List.Forall₂ Piece.Respaced query.pieces other.pieces

/-- Sets of such queries, in the same order. -/
def QuerySet.Respaced (set other : QuerySet) : Prop :=
  List.Forall₂ NamedQuery.Respaced set.queries other.queries

theorem QuerySet.Respaced.get? {set other : QuerySet} (spaced : set.Respaced other)
    (name : String) : (set.get? name = none ∧ other.get? name = none) ∨
      ∃ query query', set.get? name = some query ∧ other.get? name = some query' ∧
        query.Respaced query' := by
  obtain ⟨queries⟩ := set
  obtain ⟨queries'⟩ := other
  change List.Forall₂ NamedQuery.Respaced queries queries' at spaced
  unfold QuerySet.get?
  induction spaced with
  | nil => exact Or.inl ⟨rfl, rfl⟩
  | @cons query query' _ _ first _ ih =>
    dsimp only at ih ⊢
    rw [List.find?_cons, List.find?_cons, ← first.name]
    split
    · exact Or.inr ⟨query, query', rfl, rfl, first⟩
    · exact ih

/-! ### Drafts -/

/-- Apart from what is composed, what a part is made of closes its strings. -/
theorem Written.balanced {wording : Wording} {index : UInt32} {part : Part}
    (separators : ∀ text, wording.separator text → Balanced text.toList)
    (written : Written wording index part) : Balanced part.statement.toList := by
  induction written with
  | empty => rfl
  | append _ _ left right => exact Part.balanced_append left right
  | literal _ balanced => exact balanced
  | separator _ allowed => exact separators _ allowed
  | placeholder index => exact (visible_placeholder index).2
  | comma => rfl
  | marker _ identifier =>
    exact (visible_of_no_quote (Draft.not_mem_marker identifier (by decide) (by decide))).2
  | normal _ inside =>
    rw [Part.toList_normal]
    exact inside.normalize

/-- Two callees answer every call with these parameters in the same way, and close the
strings of their statements. -/
def Callee.AnswersAs (callee other : Callee) (room : Nat) (params : Params) : Prop :=
  ∀ options, callee.answer room params options = other.answer room params options ∧
    Balanced (callee.answer room params options).part.statement.toList

/-- Drafts that differ in the spaces of their statements. -/
structure Draft.Respaced (draft other : Draft) : Prop where
  index : draft.index = other.index
  statement : Sql.Respaced draft.statement.toList other.statement.toList
  arguments : draft.arguments = other.arguments
  errors : draft.errors = other.errors

namespace Draft
variable {draft other : Draft}

theorem Respaced.extend (spaced : draft.Respaced other) {a b : Part}
    (statement : Sql.Respaced a.statement.toList b.statement.toList)
    (arguments : a.arguments = b.arguments) (errors : a.errors = b.errors) :
    (draft.extend a).Respaced (other.extend b) := by
  constructor
  · simp only [Draft.extend, spaced.index, arguments]
  · simp only [Draft.extend, String.toList_append]
    exact spaced.statement.append statement
  · simp only [Draft.extend, spaced.arguments, arguments]
  · simp only [Draft.extend, spaced.errors, errors]

theorem Respaced.extend_same (spaced : draft.Respaced other) {part : Part}
    (balanced : Balanced part.statement.toList) :
    (draft.extend part).Respaced (other.extend part) :=
  spaced.extend (.refl balanced) rfl rfl

theorem Respaced.finish_eq (spaced : draft.Respaced other) : draft.finish = other.finish := by
  unfold finish normalizeText
  rw [spaced.statement.normalize_eq, spaced.arguments, spaced.errors]

theorem finish_balanced (balanced : Balanced draft.statement.toList) :
    Balanced draft.finish.part.statement.toList := by
  have normal : draft.finish.part.statement = normalizeText draft.statement := by
    unfold finish
    split <;> rfl
  rw [normal, normalizeText, String.toList_ofList]
  exact balanced.normalize

variable {set set' : QuerySet} {params : Params} {options : Options} {room : Nat}

theorem Respaced.fail (spaced : draft.Respaced other) {error : BindingError}
    (identifier : isIdentifier error.name.toList) :
    (draft.fail error).Respaced (other.fail error) := by
  rw [fail_eq_extend, fail_eq_extend]
  refine spaced.extend_same (visible_of_no_quote ?_).2
  exact not_mem_marker identifier (by decide) (by decide)

theorem Respaced.list (spaced : draft.Respaced other) (values : List Scalar) :
    (draft.list values).Respaced (other.list values) := by
  rw [list_eq_extend, list_eq_extend, spaced.index]
  -- no literal and no separator is in a list of placeholders
  have written : Written ⟨fun _ => False, fun _ => False⟩ other.index (.list other.index values) :=
    .list other.index values
  exact spaced.extend_same (written.balanced (by simp))

theorem Respaced.compose (spaced : draft.Respaced other) {name : String}
    (identifier : isIdentifier name.toList) {callee callee' : Callee}
    (below : ∀ lower, room = lower + 1 → callee.AnswersAs callee' lower params) :
    (draft.compose (.withRoom set params options room) name callee params).Respaced
      (other.compose (.withRoom set' params options room) name callee' params) := by
  cases room with
  | zero => exact spaced.fail identifier
  | succ lower =>
    obtain ⟨same, balanced⟩ := below lower rfl (options.nested other.index)
    simp only [Draft.compose, Scope.withRoom, Callee.caller?, splice_eq_extend, spaced.index, same]
    rw [same] at balanced
    exact spaced.extend_same balanced

theorem Respaced.add (spaced : draft.Respaced other) (plain : params.Plain)
    (sets : set.Respaced set')
    (below : ∀ lower, room = lower + 1 → ∀ name query query', set.get? name = some query →
      set'.get? name = some query' →
      (Callee.pieces query.pieces set).AnswersAs (.pieces query'.pieces set') lower params)
    {piece piece' : Piece} (pieces : piece.Respaced piece') :
    (draft.add (.withRoom set params options room) piece).Respaced
      (other.add (.withRoom set' params options room) piece') := by
  cases pieces with
  | literal texts =>
    simp only [Draft.add, literal_eq_extend]
    exact spaced.extend texts rfl rfl
  | @parameter name identifier =>
    rcases sets.get? name with ⟨unknown, unknown'⟩ | ⟨query, query', found, found', _⟩
    · cases bound : params.get? name with
      | none =>
        simp only [Draft.add, Scope.withRoom, unknown, unknown', bound]
        split
        · exact spaced
        · exact spaced.fail identifier
      | some value =>
        have isPlain := plain name value bound
        simp only [Draft.add, Scope.withRoom, unknown, unknown', bound]
        cases value with
        | scalar value => exact spaced.list [value]
        | list values => exact spaced.list values
        | query reference => exact isPlain.elim
        | inner calls separator => exact isPlain.elim
    · have composed : (draft.compose (.withRoom set params options room) name
            (.pieces query.pieces set) params).Respaced
          (other.compose (.withRoom set' params options room) name
            (.pieces query'.pieces set') params) :=
        spaced.compose identifier fun lower deeper =>
          below lower deeper name query query' found found'
      simpa only [Draft.add, Scope.withRoom, found, found'] using composed

theorem Respaced.foldl {scope scope' : Scope} {pieces pieces' : List Piece}
    (step : ∀ {draft other : Draft}, draft.Respaced other →
      ∀ {piece piece' : Piece}, piece.Respaced piece' →
        (draft.add scope piece).Respaced (other.add scope' piece'))
    (same : List.Forall₂ Piece.Respaced pieces pieces') (spaced : draft.Respaced other) :
    (pieces.foldl (Draft.add scope) draft).Respaced (pieces'.foldl (Draft.add scope') other) := by
  induction same generalizing draft other with
  | nil => exact spaced
  | cons first _ ih => exact ih (step spaced first)

end Draft

/-! ### Answers -/

/-- Queries that differ in their spaces answer every call in the same way. -/
theorem QuerySet.Respaced.answer {set other : QuerySet} (sets : set.Respaced other)
    {params : Params} (plain : params.Plain) (room : Nat) {name : String}
    {query query' : NamedQuery} (found : set.get? name = some query)
    (found' : other.get? name = some query') :
    (Callee.pieces query.pieces set).AnswersAs (.pieces query'.pieces other) room params := by
  intro options
  have pieces : query.Respaced query' := by
    rcases sets.get? name with ⟨unknown, _⟩ | ⟨_, _, known, known', spaced⟩
    · simp [unknown] at found
    · rw [known] at found
      rw [known'] at found'
      cases found
      cases found'
      exact spaced
  have start : (Draft.start options.index).Respaced (Draft.start options.index) :=
    ⟨rfl, .refl rfl, rfl, rfl⟩
  have spaced : (Draft.ofPieces (.withRoom set params options room) query.pieces).Respaced
      (Draft.ofPieces (.withRoom other params options room) query'.pieces) := by
    refine Draft.Respaced.foldl (fun spaced _ _ piece => spaced.add plain sets ?_ piece)
      pieces.pieces start
    rintro lower rfl name query query' found found'
    exact answer sets plain lower found found'
  rw [Callee.answer_pieces, Callee.answer_pieces]
  exact ⟨spaced.finish_eq, Draft.finish_balanced spaced.statement.left⟩
termination_by room

/-- Sets whose queries differ in their spaces expand to the same. -/
theorem QuerySet.Respaced.expand {set other : QuerySet} (sets : set.Respaced other) (name : String)
    {params : Params} (plain : params.Plain) (options : Options) :
    set.expand name params options = other.expand name params options := by
  rcases sets.get? name with ⟨unknown, unknown'⟩ | ⟨query, query', found, found', _⟩
  · simp only [QuerySet.expand, unknown, unknown']
  · rw [expand_eq_answer found, expand_eq_answer found']
    exact (sets.answer plain options.room found found' options).1

end SqlTemplate
