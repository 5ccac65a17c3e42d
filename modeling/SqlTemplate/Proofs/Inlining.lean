import Mathlib.Data.List.Perm.Subperm
import SqlTemplate.Proofs.Acceptance
import SqlTemplate.Proofs.Part

/-!
# Composition as inlining

To compose a query by its name is to write its body in place of the name. Every query of a
set has one body in which no name of the set is left (`Inlines`), and expanding the query
gives what that body gives with nothing but parameters, up to white space and semicolons.
-/

namespace SqlTemplate
open SqlTemplate.Sql SqlTemplate.Identifier

/-- A value that holds no query. -/
def Value.Plain : Value → Prop
  | scalar _ => True
  | list _ => True
  | query _ => False
  | inner _ _ => False

/-- No parameter is bound to a query. -/
def Params.Plain (params : Params) : Prop :=
  ∀ name value, params.get? name = some value → value.Plain

theorem Params.plain_empty : Params.empty.Plain := by
  intro name value found
  cases found

theorem Params.Plain.of_entries {params : Params}
    (each : ∀ entry ∈ params.entries, entry.2.Plain) : params.Plain := by
  intro name value found
  exact each _ (Params.mem_entries_of_get? found)

/-- Parts with the same arguments and errors, whose statements differ in white space and
semicolons only. -/
structure Part.SameButLayout (a b : Part) : Prop where
  statement : bare a.statement.toList = bare b.statement.toList
  arguments : a.arguments = b.arguments
  errors : a.errors = b.errors

namespace Part.SameButLayout

theorem refl (part : Part) : part.SameButLayout part := ⟨rfl, rfl, rfl⟩

theorem append {a b c d : Part} (first : a.SameButLayout b) (second : c.SameButLayout d) :
    (a ++ c).SameButLayout (b ++ d) := by
  refine ⟨?_, ?_, ?_⟩
  · simp [bare_append, first.statement, second.statement]
  · simp [first.arguments, second.arguments]
  · simp [first.errors, second.errors]

theorem normal {a b : Part} (same : a.SameButLayout b) : a.normal.SameButLayout b := by
  refine ⟨?_, same.arguments, same.errors⟩
  rw [bare_normal]
  exact same.statement

end Part.SameButLayout

namespace QuerySet

/-- Pieces, and the same pieces with the body of each query of the set in place of its
name, all the way down. -/
inductive Inlines (set : QuerySet) : List Piece → List Piece → Prop where
  | nil : Inlines set [] []
  | literal (text : String) {pieces flat : List Piece} (rest : Inlines set pieces flat) :
      Inlines set (.literal text :: pieces) (.literal text :: flat)
  | parameter {name : String} {pieces flat : List Piece} (unknown : set.get? name = none)
      (rest : Inlines set pieces flat) :
      Inlines set (.parameter name :: pieces) (.parameter name :: flat)
  | query {name : String} {query : NamedQuery} {pieces body flat : List Piece}
      (found : set.get? name = some query) (inside : Inlines set query.pieces body)
      (rest : Inlines set pieces flat) :
      Inlines set (.parameter name :: pieces) (body ++ flat)

theorem Inlines.unique {set : QuerySet} {pieces flat other : List Piece}
    (left : set.Inlines pieces flat) (right : set.Inlines pieces other) : other = flat := by
  induction left generalizing other with
  | nil =>
    cases right
    rfl
  | literal text _ ih =>
    cases right with
    | literal _ rest => rw [ih rest]
  | parameter unknown _ ih =>
    cases right with
    | parameter _ rest => rw [ih rest]
    | query found _ _ => simp [unknown] at found
  | query found _ _ ihInside ihRest =>
    cases right with
    | parameter unknown _ => simp [unknown] at found
    | query found' inside rest =>
      obtain rfl := Option.some.inj (found.symm.trans found')
      rw [ihInside inside, ihRest rest]

/-- The names in pieces that are queries of the set are among those of an order. -/
def Covers (set : QuerySet) (order : List String) (pieces : List Piece) : Prop :=
  ∀ name ∈ Piece.references pieces, name ∈ set.names → name ∈ order

theorem Covers.rest {set : QuerySet} {order : List String} {piece : Piece} {pieces : List Piece}
    (covers : set.Covers order (piece :: pieces)) : set.Covers order pieces := by
  intro name refers
  apply covers
  cases piece with
  | literal text => exact refers
  | parameter other => exact List.mem_cons_of_mem _ refers

/-- What a query composes is finished before it. -/
theorem Ordered.older {set : QuerySet} {front older : List String} {name : String}
    (ordered : set.Ordered (front ++ name :: older)) :
    set.Ordered older ∧ ∀ next, set.Composes name next → next ∈ older := by
  induction front with
  | nil => exact ⟨ordered.2, ordered.1⟩
  | cons first front ih => exact ih ordered.2

/-- The body of a query is covered by what is finished before it. -/
theorem Ordered.covers {set : QuerySet} {front older : List String} {name : String}
    {query : NamedQuery} (ordered : set.Ordered (front ++ name :: older))
    (found : set.get? name = some query) : set.Ordered older ∧ set.Covers older query.pieces := by
  obtain ⟨rest, inOlder⟩ := ordered.older
  refine ⟨rest, ?_⟩
  intro next refers known
  refine inOlder next ((composes_iff found).mpr ⟨?_, known⟩)
  simpa [NamedQuery.references, Piece.uses] using refers

theorem length_le_of_nodup (set : QuerySet) {order : List String} (once : order.Nodup)
    (known : order ⊆ set.names) : order.length ≤ set.queries.length := by
  have size : set.names.length = set.queries.length := List.length_map ..
  rw [← size]
  exact (once.subperm known).length_le

/-- Queries that come in an order can be inlined. -/
theorem exists_inlines {set : QuerySet} {order : List String} (ordered : set.Ordered order)
    {pieces : List Piece} (covers : set.Covers order pieces) : ∃ flat, set.Inlines pieces flat := by
  induction pieces with
  | nil => exact ⟨[], .nil⟩
  | cons piece pieces ih =>
    obtain ⟨flat, rest⟩ := ih covers.rest
    cases piece with
    | literal text => exact ⟨_, .literal text rest⟩
    | parameter name =>
      cases found : set.get? name with
      | none => exact ⟨_, .parameter found rest⟩
      | some query =>
        have listed : name ∈ order := covers name List.mem_cons_self (mem_names_of_get? found)
        obtain ⟨front, older, split⟩ := List.append_of_mem listed
        obtain ⟨orderedOlder, coversBody⟩ := (split ▸ ordered).covers found
        have : older.length < order.length := by
          rw [split]
          simp
          omega
        obtain ⟨body, inside⟩ := exists_inlines orderedOlder coversBody
        exact ⟨_, .query found inside rest⟩
termination_by order.length

end QuerySet

/-! ### Drafts that grow alike -/

/-- One draft has grown by a part, and another by the same but for the layout. -/
def GrowAlike (draft after other otherAfter : Draft) : Prop :=
  ∃ a b : Part, after = draft.extend a ∧ otherAfter = other.extend b ∧ a.SameButLayout b

namespace GrowAlike
variable {draft after last other otherAfter otherLast : Draft}

theorem refl (draft other : Draft) : GrowAlike draft draft other other :=
  ⟨{}, {}, draft.extend_empty.symm, other.extend_empty.symm, .refl _⟩

theorem same (draft other : Draft) (part : Part) :
    GrowAlike draft (draft.extend part) other (other.extend part) :=
  ⟨part, part, rfl, rfl, .refl _⟩

theorem trans (first : GrowAlike draft after other otherAfter)
    (second : GrowAlike after last otherAfter otherLast) : GrowAlike draft last other otherLast := by
  obtain ⟨a, b, rfl, rfl, alike⟩ := first
  obtain ⟨c, d, rfl, rfl, alike'⟩ := second
  exact ⟨a ++ c, b ++ d, Draft.extend_extend .., Draft.extend_extend .., alike.append alike'⟩

theorem index (grow : GrowAlike draft after other otherAfter) (same : draft.index = other.index) :
    after.index = otherAfter.index := by
  obtain ⟨a, b, rfl, rfl, alike⟩ := grow
  simp only [Draft.extend, same, alike.arguments]

theorem pos (grow : GrowAlike draft after other otherAfter) (positive : 0 < draft.index.toNat) :
    0 < after.index.toNat := by
  obtain ⟨a, b, rfl, -, -⟩ := grow
  exact advance_pos positive _

end GrowAlike

namespace Draft
variable {scope flatScope : Scope}

/-- What is no query of either set is added to both drafts in the same way. -/
theorem add_alike (plain : scope.params.Plain) (same : flatScope.params = scope.params)
    {piece : Piece} (unknown : ∀ name, piece = .parameter name →
      scope.set.get? name = none ∧ flatScope.set.get? name = none)
    {draft other : Draft} (index : draft.index = other.index) :
    GrowAlike draft (draft.add scope piece) other (other.add flatScope piece) := by
  cases piece with
  | literal text =>
    simp only [add, literal_eq_extend]
    exact .same ..
  | parameter name =>
    obtain ⟨no, flatNo⟩ := unknown name rfl
    simp only [add, no, flatNo, same]
    cases bound : scope.params.get? name with
    | none =>
      dsimp only
      split
      · exact .refl ..
      · simp only [fail_eq_extend]
        exact .same ..
    | some value =>
      have isPlain := plain name value bound
      cases value with
      | scalar value =>
        simp only [Draft.value, scalar, list_eq_extend, index]
        exact .same ..
      | list values =>
        simp only [Draft.value, list_eq_extend, index]
        exact .same ..
      | query reference => exact isPlain.elim
      | inner calls separator => exact isPlain.elim

/-- Drafts of pieces and of the inlined pieces grow alike, if those of every query that
the pieces compose do. -/
theorem foldl_alike (plain : scope.params.Plain) (same : flatScope.params = scope.params)
    (noSet : flatScope.set = .empty) {order : List String}
    (composed : ∀ name query body, name ∈ order → scope.set.get? name = some query →
      scope.set.Inlines query.pieces body → ∀ draft other : Draft, 0 < draft.index.toNat →
      draft.index = other.index →
      GrowAlike draft (draft.add scope (.parameter name)) other (body.foldl (add flatScope) other))
    {pieces flat : List Piece} (inlines : scope.set.Inlines pieces flat)
    (covers : scope.set.Covers order pieces) {draft other : Draft}
    (positive : 0 < draft.index.toNat) (index : draft.index = other.index) :
    GrowAlike draft (pieces.foldl (add scope) draft) other (flat.foldl (add flatScope) other) := by
  have flatUnknown (name : String) : flatScope.set.get? name = none := by
    simp [noSet, QuerySet.empty, QuerySet.get?]
  induction inlines generalizing draft other with
  | nil => exact .refl ..
  | literal text rest ih =>
    have step : GrowAlike draft (draft.add scope (.literal text)) other
        (other.add flatScope (.literal text)) := add_alike plain same (by simp) index
    exact step.trans (ih covers.rest (step.pos positive) (step.index index))
  | @parameter name pieces flat unknown rest ih =>
    have step : GrowAlike draft (draft.add scope (.parameter name)) other
        (other.add flatScope (.parameter name)) :=
      add_alike plain same (by rintro _ ⟨⟩; exact ⟨unknown, flatUnknown name⟩) index
    exact step.trans (ih covers.rest (step.pos positive) (step.index index))
  | @query name query pieces body flat found inside rest _ ih =>
    have listed : name ∈ order :=
      covers name List.mem_cons_self (QuerySet.mem_names_of_get? found)
    have step := composed name query body listed found inside draft other positive index
    rw [List.foldl_append]
    exact step.trans (ih covers.rest (step.pos positive) (step.index index))

/-- A composed query adds what its own draft grows by, in normal form. -/
theorem add_composed {set : QuerySet} {params : Params} {options : Options} {room : Nat}
    {name : String} {query : NamedQuery} (found : set.get? name = some query) {draft : Draft}
    {part : Part} (grown : ofPieces (.withRoom set params (options.nested draft.index) room) query.pieces =
      (start draft.index).extend part) :
    draft.add (.withRoom set params options (room + 1)) (.parameter name) =
      draft.extend part.normal := by
  have answered : Callee.answer room (.pieces query.pieces set) params (options.nested draft.index) =
      ((start draft.index).extend part).finish := by
    rw [← grown, Callee.answer_eq]
    rfl
  simp only [add, Scope.withRoom, found, compose, Callee.caller?]
  rw [answered, splice_eq_extend, finish_part]

/-- With room for all queries that come in an order, drafts grow alike whether the queries
are composed or inlined. -/
theorem inlined_alike {set : QuerySet} {params : Params} (plain : params.Plain)
    (same : flatScope.params = params) (noSet : flatScope.set = .empty) {order : List String}
    (ordered : set.Ordered order) {room : Nat} (fits : order.length ≤ room) (options : Options)
    {pieces flat : List Piece} (inlines : set.Inlines pieces flat) (covers : set.Covers order pieces)
    {draft other : Draft} (positive : 0 < draft.index.toNat) (index : draft.index = other.index) :
    GrowAlike draft (pieces.foldl (add (.withRoom set params options room)) draft)
      other (flat.foldl (add flatScope) other) := by
  -- with each nested composition, the order is cut off behind the query that is composed
  induction room generalizing order options pieces flat draft other with
  | zero =>
    have none : order = [] := List.length_eq_zero_iff.mp (Nat.le_zero.mp fits)
    refine foldl_alike (by exact plain) same noSet ?_ inlines covers positive index
    intro name query body listed
    rw [none] at listed
    cases listed
  | succ room ih =>
    refine foldl_alike (by exact plain) same noSet ?_ inlines covers positive index
    intro name query body listed found inside draft other positive index
    obtain ⟨front, older, split⟩ := List.append_of_mem listed
    obtain ⟨orderedOlder, coversBody⟩ := (split ▸ ordered).covers found
    have shorter : older.length ≤ room := by
      rw [split, List.length_append, List.length_cons] at fits
      omega
    have first : (start draft.index).index = draft.index := max_one_eq positive
    obtain ⟨a, b, grown, otherGrown, alike⟩ := ih orderedOlder shorter (options.nested draft.index)
      inside coversBody (max_one_pos draft.index) (first.trans index)
    exact ⟨a.normal, b, add_composed found grown, otherGrown, alike.normal⟩

end Draft

/-- Expanding a query of a set gives what its body gives once all queries are written out
in it, if there is room for as many compositions as there are queries. -/
theorem expand_eq_inlined {definitions : List Definition} {set : QuerySet}
    (accepted : QuerySet.ofDefinitions definitions = .ok set) {name : String} {query : NamedQuery}
    (found : set.get? name = some query) {params : Params} (plain : params.Plain)
    {options : Options} (room : set.queries.length ≤ options.maxDepth - options.depth) :
    ∃ flat, (∀ other, set.Inlines query.pieces other ↔ other = flat) ∧
      (set.expand name params options).isOk = (evaluate flat .empty params options).isOk ∧
      (set.expand name params options).part.SameButLayout
        (evaluate flat .empty params options).part := by
  obtain ⟨_, _, acyclic⟩ := QuerySet.ofDefinitions_eq_ok_iff.mp accepted
  obtain ⟨order, ordered, once, all⟩ := QuerySet.exists_order (QuerySet.cycle?_eq_none_iff.mpr acyclic)
  have fits : order.length ≤ options.room :=
    Nat.le_trans (set.length_le_of_nodup once fun name listed => (all name).mp listed) room
  have covers : set.Covers order query.pieces := fun next _ known => (all next).mpr known
  obtain ⟨flat, inlines⟩ := QuerySet.exists_inlines ordered covers
  have grow : GrowAlike (.start options.index)
      (query.pieces.foldl (.add (.withRoom set params options options.room)) (.start options.index))
      (.start options.index)
      (flat.foldl (.add (.withRoom .empty params options options.room)) (.start options.index)) :=
    Draft.inlined_alike plain rfl rfl ordered fits options inlines covers
      (max_one_pos options.index) rfl
  obtain ⟨a, b, grown, flatGrown, alike⟩ := grow
  have expanded : set.expand name params options = ((Draft.start options.index).extend a).finish := by
    unfold QuerySet.expand
    rw [found, ← grown]
    exact evaluate_eq ..
  have evaluated : evaluate flat .empty params options = ((Draft.start options.index).extend b).finish := by
    rw [evaluate_eq, ← flatGrown]
    rfl
  refine ⟨flat, fun other => ⟨inlines.unique, fun same => same ▸ inlines⟩, ?_, ?_⟩
  · rw [expanded, evaluated, Draft.finish_isOk, Draft.finish_isOk]
    simp [Draft.extend, alike.errors]
  · rw [expanded, evaluated, Draft.finish_part, Draft.finish_part]
    refine ⟨?_, alike.arguments, alike.errors⟩
    rw [Part.bare_normal, Part.bare_normal]
    exact alike.statement

def diamondParams : Params where
  entries := [("limit", .scalar (.int 18))]

theorem diamond_inlined :
    ∃ flat, (∀ other, diamondSet.Inlines
        [.parameter "voter", .literal " OR ", .parameter "adult"] other ↔ other = flat) ∧
      (diamondSet.expand "person" diamondParams {}).isOk =
        (evaluate flat .empty diamondParams {}).isOk ∧
      (diamondSet.expand "person" diamondParams {}).part.SameButLayout
        (evaluate flat .empty diamondParams {}).part := by
  have plain : diamondParams.Plain := by
    intro name value found
    obtain ⟨before, after, split, _⟩ := List.lookup_eq_some_iff.mp found
    have member : (name, value) ∈ diamondParams.entries := by simp [split]
    obtain ⟨rfl, rfl⟩ : name = "limit" ∧ value = .scalar (.int 18) := by
      simpa [diamondParams] using member
    trivial
  have found : diamondSet.get? "person" = some ⟨"person", some "People.",
      [.parameter "voter", .literal " OR ", .parameter "adult"], ⟨7, 1⟩⟩ := rfl
  exact expand_eq_inlined ofDefinitions_diamond found plain (by decide)

end SqlTemplate
