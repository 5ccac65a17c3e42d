import SqlTemplate.CommandLine.Run
import SqlTemplate.Proofs.Inlining
import SqlTemplate.Proofs.Reports
import SqlTemplate.Proofs.Written

/-!
# Labels of arguments

The arguments of a bound query are shown with labels, which are to be their placeholders. To
say which placeholder an argument has, a statement is taken apart into stretches, and some of
these are placeholders with their arguments (`Callee.answer_stretches`). Placeholders stop at the
largest number and labels do not, so a label is the placeholder of its argument just as long
as the numbers last (`label_iff_fits`).
-/

namespace SqlTemplate
open SqlTemplate.Sql SqlTemplate.Identifier SqlTemplate.CommandLine

/-! ### Stretches of a statement -/

/-- A stretch of a statement. -/
inductive Stretch where
  | text (text : String)
  /-- A placeholder and the argument that is bound to it. -/
  | placeholder (written : String) (value : Scalar)
  | gap (error : BindingError)
  /-- A composed query, which is brought into normal form by itself. -/
  | composed (inside : List Stretch)

namespace Stretch

mutual

/-- What a stretch adds to a statement. -/
def part : Stretch → Part
  | text content => { statement := content }
  | placeholder written value => { statement := written, arguments := [value] }
  | gap error => { statement := Draft.marker error, errors := [error] }
  | composed inside => (joined inside).normal

/-- What stretches add to a statement one after the other. -/
def joined : List Stretch → Part
  | [] => {}
  | stretch :: more => stretch.part ++ joined more

end

mutual

/-- The placeholders of a stretch with their arguments. -/
def bound : Stretch → List (String × Scalar)
  | placeholder written value => [(written, value)]
  | composed inside => allBound inside
  | _ => []

/-- The placeholders of stretches with their arguments, from left to right. -/
def allBound : List Stretch → List (String × Scalar)
  | [] => []
  | stretch :: more => stretch.bound ++ allBound more

end

mutual

theorem arguments_part : (stretch : Stretch) → stretch.part.arguments = stretch.bound.map Prod.snd
  | text _ => rfl
  | placeholder _ _ => rfl
  | gap _ => rfl
  | composed inside => arguments_joined inside

/-- The arguments of stretches are those of their placeholders. -/
theorem arguments_joined :
    (stretches : List Stretch) → (joined stretches).arguments = (allBound stretches).map Prod.snd
  | [] => rfl
  | stretch :: more => by
    rw [joined, allBound, Part.arguments_append, List.map_append, arguments_part stretch,
      arguments_joined more]

end

theorem joined_append (a b : List Stretch) : joined (a ++ b) = joined a ++ joined b := by
  induction a with
  | nil => apply Part.ext <;> simp [joined]
  | cons stretch a ih => apply Part.ext <;> simp [joined, ih, String.append_assoc]

theorem allBound_append (a b : List Stretch) : allBound (a ++ b) = allBound a ++ allBound b := by
  induction a with
  | nil => rfl
  | cons stretch a ih => simp [allBound, ih]

theorem joined_singleton (stretch : Stretch) : joined [stretch] = stretch.part := by
  apply Part.ext <;> simp [joined]

/-- Placeholders for values with commas between them. -/
def list (index : UInt32) : List Scalar → List Stretch
  | [] => []
  | [value] => [placeholder (Sql.placeholder index) value]
  | value :: next :: more =>
    placeholder (Sql.placeholder index) value :: text "," :: list (advance index 1) (next :: more)

theorem joined_list (index : UInt32) (values : List Scalar) :
    joined (list index values) = .list index values := by
  induction values generalizing index with
  | nil => rfl
  | cons value values ih =>
    cases values with
    | nil => exact joined_singleton _
    | cons next values =>
      rw [list, joined, joined, ih, part, part, Part.list_cons_cons]
      apply Part.ext <;> simp [Part.list, placeholders, String.append_assoc]

end Stretch

/-- The stretches of a value that holds no query. -/
def Value.stretches (index : UInt32) : Value → List Stretch
  | scalar value => Stretch.list index [value]
  | list values => Stretch.list index values
  | _ => []

/-- How the pieces of composed queries are taken apart, from a number on. -/
abbrev Below := UInt32 → List Piece → List Stretch

/-- The stretch of a composed query, which is a gap if nothing takes it apart. -/
def Stretch.composition (below? : Option Below) (index : UInt32) (name : String)
    (pieces : List Piece) : Stretch :=
  match below? with
  | some below => .composed (below index pieces)
  | none => .gap ⟨name, .recursionLimit⟩

/-- The stretches of a piece. -/
def Piece.stretches (set : QuerySet) (params : Params) (below? : Option Below) (index : UInt32) :
    Piece → List Stretch
  | literal text => [.text text]
  | parameter name =>
    match set.get? name with
    | some query => [.composition below? index name query.pieces]
    | none =>
      match params.get? name with
      | some value => value.stretches index
      | none => if isOptional name then [] else [.gap ⟨name, .notFound⟩]

/-- The stretches of some pieces. Each goes on with the number behind those in front of it. -/
def Piece.allStretches (set : QuerySet) (params : Params) (below? : Option Below) (index : UInt32) :
    List Piece → List Stretch
  | [] => []
  | piece :: more =>
    let first := piece.stretches set params below? index
    first ++ allStretches set params below? (advance index (Stretch.allBound first).length) more

/-- The stretches that pieces expand to where so many compositions may be nested, if parameters
hold no queries. -/
def QuerySet.stretches (set : QuerySet) (params : Params) : (room : Nat) → Below
  | 0 => Piece.allStretches set params none
  | room + 1 => Piece.allStretches set params (some (stretches set params room))

/-! ### Stretches of an expansion -/

/-- What is taken apart is what nested calls answer. -/
def Scope.TakenApart (scope : Scope) (below? : Option Below) : Prop :=
  match scope.caller?, below? with
  | some call, some below => ∀ pieces options, 0 < options.index.toNat →
      (call (.pieces pieces scope.set) scope.params options).part =
        (Stretch.composed (below options.index pieces)).part
  | none, none => True
  | _, _ => False

namespace Draft

/-- A value that holds no query adds its stretches. -/
theorem value_eq_stretches (draft : Draft) (scope : Scope) {value : Value} (isPlain : value.Plain) :
    draft.value scope value = draft.extend (Stretch.joined (value.stretches draft.index)) := by
  cases value with
  | scalar value =>
    simp only [Value.stretches, Stretch.joined_list]
    exact draft.list_eq_extend [value]
  | list values =>
    simp only [Value.stretches, Stretch.joined_list]
    exact draft.list_eq_extend values
  | query reference => exact isPlain.elim
  | inner calls separator => exact isPlain.elim

/-- A composed query adds its stretches, or the gap in its place. -/
theorem compose_eq_stretches {scope : Scope} {below? : Option Below}
    (apart : scope.TakenApart below?) {draft : Draft} (positive : 0 < draft.index.toNat)
    (name : String) (pieces : List Piece) :
    draft.compose scope name (.pieces pieces scope.set) scope.params = draft.extend
      (Stretch.composition below? draft.index name pieces).part := by
  unfold compose
  unfold Scope.TakenApart at apart
  cases caller : scope.caller? with
  | some call =>
    cases below? with
    | some below =>
      rw [caller] at apart
      have answer := apart pieces (scope.options.nested draft.index) positive
      simp only [Stretch.composition]
      rw [splice_eq_extend, answer]
      rfl
    | none => simp [caller] at apart
  | none =>
    cases below? with
    | some below => simp [caller] at apart
    | none => exact fail_eq_extend ..

/-- A piece adds its stretches. -/
theorem add_eq_stretches {scope : Scope} {below? : Option Below} (apart : scope.TakenApart below?)
    (plain : scope.params.Plain) {draft : Draft} (positive : 0 < draft.index.toNat)
    (piece : Piece) :
    draft.add scope piece = draft.extend
      (Stretch.joined (piece.stretches scope.set scope.params below? draft.index)) := by
  cases piece with
  | literal text =>
    rw [Piece.stretches, Stretch.joined_singleton]
    exact literal_eq_extend ..
  | parameter name =>
    simp only [add, Piece.stretches]
    cases found : scope.set.get? name with
    | some query =>
      simp only [Stretch.joined_singleton]
      exact compose_eq_stretches apart positive name query.pieces
    | none =>
      cases bound : scope.params.get? name with
      | some value => exact draft.value_eq_stretches scope (plain name value bound)
      | none =>
        by_cases optional : isOptional name
        · simp only [optional, if_true]
          exact draft.extend_empty.symm
        · simp only [optional, Bool.false_eq_true, if_false, Stretch.joined_singleton]
          exact fail_eq_extend ..

theorem foldl_eq_stretches {scope : Scope} {below? : Option Below} (apart : scope.TakenApart below?)
    (plain : scope.params.Plain) (draft : Draft) (positive : 0 < draft.index.toNat)
    (pieces : List Piece) :
    pieces.foldl (add scope) draft = draft.extend
      (Stretch.joined (Piece.allStretches scope.set scope.params below? draft.index pieces)) := by
  induction pieces generalizing draft with
  | nil => exact draft.extend_empty.symm
  | cons piece pieces ih =>
    let first := piece.stretches scope.set scope.params below? draft.index
    have next : (draft.extend (Stretch.joined first)).index =
        advance draft.index (Stretch.allBound first).length := by
      simp [extend, Stretch.arguments_joined]
    have further := ih (draft.extend (Stretch.joined first)) (advance_pos positive _)
    rw [next, extend_extend, ← Stretch.joined_append] at further
    rw [List.foldl_cons, add_eq_stretches apart plain positive, further]
    rfl

end Draft

variable {set : QuerySet} {params : Params}

/-- Pieces are taken apart if nested calls are. -/
theorem Scope.TakenApart.ofPieces {options : Options} {room : Nat} {below? : Option Below}
    (apart : (Scope.withRoom set params options room).TakenApart below?) (plain : params.Plain)
    (positive : 0 < options.index.toNat) (pieces : List Piece) :
    ((Callee.pieces pieces set).answer room params options).part =
      (Stretch.composed (Piece.allStretches set params below? options.index pieces)).part := by
  have started : (Draft.start options.index).index = options.index := max_one_eq positive
  have whole := Draft.foldl_eq_stretches apart plain (Draft.start options.index) (max_one_pos _)
    pieces
  rw [started] at whole
  rw [Callee.answer_pieces, Draft.ofPieces, Stretch.part, ← Draft.finish_part options.index]
  exact congrArg (fun draft => draft.finish.part) whole

/-- An expansion consists of the stretches of its pieces. -/
theorem Callee.answer_stretches (plain : params.Plain) (room : Nat) (pieces : List Piece)
    {options : Options} (positive : 0 < options.index.toNat) :
    ((Callee.pieces pieces set).answer room params options).part =
      (Stretch.composed (set.stretches params room options.index pieces)).part := by
  induction room generalizing pieces options with
  | zero =>
    have apart : (Scope.withRoom set params options 0).TakenApart none := trivial
    exact apart.ofPieces plain positive pieces
  | succ room ih =>
    have apart : (Scope.withRoom set params options (room + 1)).TakenApart
        (some (set.stretches params room)) :=
      fun pieces options positive => ih pieces positive
    exact apart.ofPieces plain positive pieces

/-! ### Numbers of the placeholders -/

theorem length_placeholders (index : UInt32) (count : Nat) :
    (placeholders index count).length = count := by
  induction count generalizing index with
  | zero => rfl
  | succ count ih => simp [placeholders, ih]

theorem placeholders_add (index : UInt32) (m n : Nat) :
    placeholders index (m + n) = placeholders index m ++ placeholders (advance index m) n := by
  induction m generalizing index with
  | zero => simp [placeholders, advance_zero]
  | succ m ih =>
    rw [Nat.succ_add, placeholders, placeholders, ih, advance_advance, Nat.add_comm 1 m]
    rfl

theorem getElem?_placeholders {index : UInt32} {count i : Nat} (inside : i < count) :
    (placeholders index count)[i]? = some (placeholder (advance index i)) := by
  obtain ⟨more, rfl⟩ := Nat.exists_eq_add_of_lt inside
  have first := length_placeholders index i
  rw [Nat.add_assoc, placeholders_add, List.getElem?_append_right (by omega), first,
    Nat.sub_self]
  rfl

namespace Stretch

/-- Stretches have the placeholders from a number on, one for each argument. -/
def Counted (index : UInt32) (stretches : List Stretch) : Prop :=
  (allBound stretches).map Prod.fst = placeholders index (allBound stretches).length

theorem Counted.append {index : UInt32} {a b : List Stretch} (first : Counted index a)
    (second : Counted (advance index (allBound a).length) b) : Counted index (a ++ b) := by
  unfold Counted at *
  rw [allBound_append, List.map_append, List.length_append, placeholders_add, first, second]

theorem counted_list (index : UInt32) (values : List Scalar) :
    Counted index (list index values) := by
  induction values generalizing index with
  | nil => rfl
  | cons value values ih =>
    cases values with
    | nil => rfl
    | cons next values =>
      have first : Counted index [placeholder (Sql.placeholder index) value, text ","] := rfl
      exact first.append (ih (advance index 1))

end Stretch

theorem Value.counted_stretches (index : UInt32) (value : Value) :
    Stretch.Counted index (value.stretches index) := by
  cases value with
  | scalar value => exact Stretch.counted_list index [value]
  | list values => exact Stretch.counted_list index values
  | query reference => rfl
  | inner calls separator => rfl

theorem Piece.counted_stretches {below? : Option Below}
    (nested : ∀ below ∈ below?, ∀ index pieces, Stretch.Counted index (below index pieces))
    (index : UInt32) (piece : Piece) :
    Stretch.Counted index (piece.stretches set params below? index) := by
  cases piece with
  | literal text => rfl
  | parameter name =>
    simp only [Piece.stretches]
    split
    · next query found =>
      cases below? with
      | some below =>
        simpa [Stretch.Counted, Stretch.composition, Stretch.allBound, Stretch.bound]
          using nested below rfl index query.pieces
      | none => rfl
    · split
      · next value found => exact value.counted_stretches index
      · split <;> rfl

theorem Piece.counted_allStretches {below? : Option Below}
    (nested : ∀ below ∈ below?, ∀ index pieces, Stretch.Counted index (below index pieces))
    (index : UInt32) (pieces : List Piece) :
    Stretch.Counted index (Piece.allStretches set params below? index pieces) := by
  induction pieces generalizing index with
  | nil => rfl
  | cons piece pieces ih => exact (Piece.counted_stretches nested index piece).append (ih _)

theorem QuerySet.counted_stretches (room : Nat) (index : UInt32) (pieces : List Piece) :
    Stretch.Counted index (set.stretches params room index pieces) := by
  induction room generalizing index pieces with
  | zero => exact Piece.counted_allStretches (by simp) index pieces
  | succ room ih =>
    refine Piece.counted_allStretches ?_ index pieces
    rintro below ⟨⟩
    exact ih

theorem getElem?_argumentLabels {index : UInt32} {count i : Nat} (inside : i < count) :
    (argumentLabels index count)[i]? = some ("$" ++ toString (index.toNat + i)) := by
  simp [argumentLabels, inside]

theorem toString_inj {m n : Nat} : toString m = toString n ↔ m = n := by
  constructor
  · intro same
    have digits : Nat.toDigits 10 m = Nat.toDigits 10 n := by
      simpa [Nat.toList_repr] using congrArg String.toList same
    have read := congrArg (Nat.ofDigitChars 10 · 0) digits
    simpa [Nat.ofDigitChars_toDigits] using read
  · rintro rfl
    rfl

/-- A label is the placeholder of the same place just as long as the numbers last. -/
theorem label_eq_placeholder_iff (index : UInt32) (i : Nat) :
    "$" ++ toString (index.toNat + i) = placeholder (advance index i) ↔
      index.toNat + i ≤ lastIndex := by
  rw [placeholder, toNat_advance]
  constructor
  · intro same
    have := toString_inj.mp ((String.append_right_inj _).mp same)
    omega
  · intro fits
    rw [Nat.min_eq_left fits]

/-- Each argument of a bound query has a placeholder in the statement. The label of the
argument is that placeholder just as long as the numbers last: placeholders stop at the largest
number, and labels go on. -/
theorem label_iff_fits {name : String} {query : NamedQuery} (found : set.get? name = some query)
    (plain : params.Plain) {base options : Options} {start : UInt32}
    (indexed : options = base.withIndex start) {bound : BoundQuery}
    (expanded : set.expand name params options = .ok bound) {stretches : List Stretch}
    (apart : set.stretches params options.room options.index query.pieces = stretches) :
    (Stretch.composed stretches).part =
        { statement := bound.statement, arguments := bound.arguments } ∧
      ∀ i < bound.arguments.length, ∃ label written value,
        (argumentLabels options.index bound.arguments.length)[i]? = some label ∧
        (Stretch.allBound stretches)[i]? = some (written, value) ∧
        bound.arguments[i]? = some value ∧
        written = "$" ++ toString (min (options.index.toNat + i) lastIndex) ∧
        (label = written ↔ options.index.toNat + i ≤ lastIndex) := by
  have positive : 0 < options.index.toNat := by
    rw [indexed]
    exact max_one_pos start
  have whole : (Stretch.composed stretches).part =
      { statement := bound.statement, arguments := bound.arguments } := by
    rw [← apart, ← Callee.answer_stretches plain options.room query.pieces positive,
      ← QuerySet.expand_eq_answer found, expanded]
    rfl
  have arguments : bound.arguments = (Stretch.allBound stretches).map Prod.snd := by
    rw [← Stretch.arguments_joined]
    exact (congrArg Part.arguments whole).symm
  have counted : Stretch.Counted options.index stretches := by
    rw [← apart]
    exact QuerySet.counted_stretches options.room options.index query.pieces
  refine ⟨whole, ?_⟩
  intro i inside
  have within : i < (Stretch.allBound stretches).length := by simpa [arguments] using inside
  obtain ⟨⟨written, value⟩, here⟩ : ∃ pair, (Stretch.allBound stretches)[i]? = some pair :=
    ⟨_, List.getElem?_eq_getElem within⟩
  have isWritten : some written = some (placeholder (advance options.index i)) := by
    rw [← getElem?_placeholders within, ← counted, List.getElem?_map, here]
    rfl
  obtain rfl := Option.some.inj isWritten
  refine ⟨_, _, value, getElem?_argumentLabels inside, here, ?_, ?_, label_eq_placeholder_iff _ i⟩
  · rw [arguments, List.getElem?_map, here]
    rfl
  · rw [placeholder, toNat_advance]

/-- Three values from the last number but one on: the last two share a placeholder. -/
theorem label_past_last_index :
    ∃ bound : BoundQuery, bound.statement = "age > $4294967294,$4294967295,$4294967295" ∧
      peopleSet.expand "old" ⟨[("limit", .list [.int 1, .int 2, .int 3])]⟩
        (Options.withIndex {} 4294967294) = .ok bound ∧
      ∃ label written value,
        (argumentLabels 4294967294 3)[2]? = some label ∧
        (Stretch.allBound (peopleSet.stretches ⟨[("limit", .list [.int 1, .int 2, .int 3])]⟩ 32
          4294967294 [.literal "age > ", .parameter "limit", .literal " "]))[2]? =
            some (written, value) ∧
        bound.arguments[2]? = some value ∧
        written = "$" ++ toString (min 4294967296 lastIndex) ∧
        (label = written ↔ 4294967296 ≤ lastIndex) := by
  have plain : Params.Plain ⟨[("limit", .list [.int 1, .int 2, .int 3])]⟩ := by
    apply Params.Plain.of_entries
    simp [Value.Plain]
  have found : peopleSet.get? "old" =
      some ⟨"old", none, [.literal "age > ", .parameter "limit", .literal " "], ⟨1, 1⟩⟩ := rfl
  have expanded : peopleSet.expand "old" ⟨[("limit", .list [.int 1, .int 2, .int 3])]⟩
      (Options.withIndex {} 4294967294) = .ok
        ⟨"age > $4294967294,$4294967295,$4294967295", [.int 1, .int 2, .int 3]⟩ := by rfl
  exact ⟨_, rfl, expanded, (label_iff_fits found plain rfl expanded rfl).2 2 (by decide)⟩

end SqlTemplate
