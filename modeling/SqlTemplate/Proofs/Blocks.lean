import SqlTemplate.Proofs.Calls

/-!
# Drafts as they grow

After any number of pieces, a draft has come to the number that its arguments lead to
(`Draft.Counts`), whatever the calls were answered with. Further pieces change nothing of what is
written: they add parts behind it, and each answer to a call is one of these parts, so that its
arguments and its errors stay together (`ofPieces_append`).
-/

namespace SqlTemplate

/-! ### Parts one after the other -/

namespace Part

/-- One part of several, one after the other. -/
def concat : List Part → Part
  | [] => {}
  | part :: more => part ++ concat more

theorem statement_concat (parts : List Part) :
    (concat parts).statement = String.join (parts.map (·.statement)) := by
  induction parts with
  | nil => rfl
  | cons part parts ih => rw [concat, statement_append, ih, List.map_cons, String.join_cons]

theorem arguments_concat (parts : List Part) :
    (concat parts).arguments = parts.flatMap (·.arguments) := by
  induction parts with
  | nil => rfl
  | cons part parts ih => rw [concat, arguments_append, ih, List.flatMap_cons]

theorem errors_concat (parts : List Part) : (concat parts).errors = parts.flatMap (·.errors) := by
  induction parts with
  | nil => rfl
  | cons part parts ih => rw [concat, errors_append, ih, List.flatMap_cons]

end Part

/-- The parts that are added one after the other. Each begins with the number that the arguments
of those in front of it lead to. -/
def Addition.parts (scope : Scope) (index : UInt32) : List Addition → List Part
  | [] => []
  | addition :: more =>
    let part := addition.part scope index
    part :: parts scope (advance index part.arguments.length) more

namespace Draft
variable {scope : Scope} {draft : Draft}

theorem putAll_eq_extend (scope : Scope) (draft : Draft) (additions : List Addition) :
    draft.putAll scope additions =
      draft.extend (.concat (Addition.parts scope draft.index additions)) := by
  induction additions generalizing draft with
  | nil => exact draft.extend_empty.symm
  | cons addition more ih =>
    calc draft.putAll scope (addition :: more)
      _ = (draft.put scope addition).putAll scope more := rfl
      _ = (draft.extend (addition.part scope draft.index)).putAll scope more := by
        rw [put_eq_extend]
      _ = _ := by rw [ih, extend_extend]; rfl

/-- The answers to calls are among the parts, in the order of the calls. -/
theorem answers_sublist {ask : Caller} (asks : scope.caller? = some ask) (emitted : Nat)
    (draft : Draft) (additions : List Addition) :
    ((draft.invocations scope emitted additions).map fun call =>
      (ask call.callee call.params call.options).part).Sublist
        (Addition.parts scope draft.index additions) := by
  induction additions generalizing draft with
  | nil => exact .slnil
  | cons addition more ih =>
    have rest := ih (draft.put scope addition)
    rw [put_eq_extend] at rest
    rw [invocations, List.map_append, Addition.parts, put_eq_extend]
    cases addition with
    | text content => exact rest.cons _
    | list values => exact rest.cons _
    | missing name => exact rest.cons _
    | answer name callee params =>
      simp only [invocation?, asks, Option.map_some, Option.toList_some, List.map_singleton,
        List.singleton_append, Addition.part_answer asks] at rest ⊢
      exact rest.cons_cons _

/-! ### The number of the next placeholder -/

/-- The next placeholder of a draft has the number that the arguments lead to. -/
def Counts (first : UInt32) (draft : Draft) : Prop :=
  draft.index = advance first draft.arguments.length

theorem Counts.extend {first : UInt32} (counts : draft.Counts first) (part : Part) :
    (draft.extend part).Counts first := by
  unfold Counts at *
  simp [Draft.extend, counts, advance_advance]

/-- Whatever a piece adds is counted. -/
theorem Counts.add {first : UInt32} (counts : draft.Counts first) (scope : Scope) (piece : Piece) :
    (draft.add scope piece).Counts first := by
  rw [add_eq_putAll, putAll_eq_extend]
  exact counts.extend _

theorem Counts.foldl {first : UInt32} (counts : draft.Counts first) (scope : Scope)
    (pieces : List Piece) : (pieces.foldl (Draft.add scope) draft).Counts first := by
  induction pieces generalizing draft with
  | nil => exact counts
  | cons piece pieces ih => exact ih (counts.add scope piece)

theorem ofPieces_counts (scope : Scope) (pieces : List Piece) :
    (ofPieces scope pieces).Counts (max scope.options.index 1) := by
  have begins : (start scope.options.index).Counts (max scope.options.index 1) :=
    (advance_zero _).symm
  exact begins.foldl scope pieces

theorem Counts.toNat_index {index : UInt32} (counts : draft.Counts (max index 1)) :
    draft.index.toNat = min (max index.toNat 1 + draft.arguments.length) lastIndex := by
  rw [counts, toNat_advance, toNat_max_one]

/-- More pieces add their parts to what is written. -/
theorem ofPieces_append (scope : Scope) (before more : List Piece) :
    ofPieces scope (before ++ more) = (ofPieces scope before).extend
      (.concat (Addition.parts scope (ofPieces scope before).index
        (more.flatMap (·.additions scope.set scope.params)))) := by
  rw [← putAll_eq_extend, ofPieces_eq_putAll, ofPieces_eq_putAll, List.flatMap_append]
  exact List.foldl_append

end Draft

/-- While a run goes on, the number of the next placeholder is the first number moved on by the
arguments, as far as numbers go. So it is one or higher, and never falls. Whatever comes next
adds parts to the statement, the arguments and the errors, and takes nothing back. The answers to
nested calls are among these parts, in the order of the calls, so that the arguments and the
errors of an answer stay together. An evaluation is such a run. -/
theorem run_grows (scope : Scope) (before more : List Piece) {draft after : Draft}
    (isDraft : draft = .ofPieces scope before)
    (isAfter : after = .ofPieces scope (before ++ more)) :
    draft.index.toNat =
      min (max scope.options.index.toNat 1 + draft.arguments.length) lastIndex ∧
    1 ≤ draft.index.toNat ∧ draft.index.toNat ≤ after.index.toNat ∧
    (∃ parts : List Part,
      after.statement = draft.statement ++ String.join (parts.map (·.statement)) ∧
      after.arguments = draft.arguments ++ parts.flatMap (·.arguments) ∧
      after.errors = draft.errors ++ parts.flatMap (·.errors) ∧
      ∀ ask, scope.caller? = some ask →
        ((draft.invocations scope 0 (more.flatMap (·.additions scope.set scope.params))).map
          fun call => (ask call.callee call.params call.options).part).Sublist parts) ∧
    ∀ pieces set params options, evaluate pieces set params options =
      (Draft.ofPieces (.withRoom set params options options.room) pieces).finish := by
  have counted : draft.index.toNat =
      min (max scope.options.index.toNat 1 + draft.arguments.length) lastIndex := by
    rw [isDraft]
    exact (Draft.ofPieces_counts scope before).toNat_index
  have grown := Draft.ofPieces_append scope before more
  rw [← isAfter, ← isDraft] at grown
  have bound : 1 ≤ lastIndex := by decide
  refine ⟨counted, by omega, ?_, ?_, evaluate_eq⟩
  · rw [grown, Draft.extend, toNat_advance]
    omega
  · refine ⟨_, ?_, ?_, ?_, fun ask asks => Draft.answers_sublist asks 0 draft _⟩
    · rw [grown, Draft.extend, Part.statement_concat]
    · rw [grown, Draft.extend, Part.arguments_concat]
    · rw [grown, Draft.extend, Part.errors_concat]

/-- A foreign answer that comes with arguments and errors of its own. -/
def foreignAnswer : Expansion :=
  .error
    { statement := "f($1, $2) <missing a>"
      arguments := [.int 8, .null]
      errors := [⟨"b", .recursionLimit⟩, ⟨"a", .notFound⟩] }

/-- All calls are answered alike, and the numbers are about to run out. -/
def foreignScope : Scope where
  set := .empty
  params := ⟨
    [ ("key", .scalar (.int 7))
    , ("both", .inner [⟨.reference ⟨"f", .probe⟩, none⟩, ⟨.name "g", none⟩,
        ⟨.reference ⟨"f", .probe⟩, none⟩] " OR ") ]⟩
  options := { index := 4294967294 }
  caller? := some fun _ _ _ => foreignAnswer

def foreignDraft : Draft := .ofPieces foreignScope [.parameter "key"]

def foreignAfter : Draft := .ofPieces foreignScope [.parameter "key", .parameter "both"]

/-- The errors of two foreign answers stay together, with a missing name between them, and the
number of the next placeholder stays at the largest one. -/
theorem foreign_grows :
    foreignDraft.index.toNat = min (max 4294967294 1 + foreignDraft.arguments.length) lastIndex ∧
      foreignDraft.index.toNat ≤ foreignAfter.index.toNat ∧ foreignAfter.index = 4294967295 ∧
      foreignAfter.errors.map (·.name) = ["b", "a", "g", "b", "a"] ∧
      ∃ parts : List Part,
        foreignAfter.errors = foreignDraft.errors ++ parts.flatMap (·.errors) ∧
        [foreignAnswer.part, foreignAnswer.part].Sublist parts := by
  have isDraft : foreignDraft = .ofPieces foreignScope [.parameter "key"] := rfl
  have isAfter : foreignAfter =
      .ofPieces foreignScope ([.parameter "key"] ++ [.parameter "both"]) := rfl
  obtain ⟨counted, _, rises, ⟨parts, _, _, errors, answers⟩, _⟩ :=
    run_grows foreignScope _ _ isDraft isAfter
  exact ⟨counted, rises, rfl, rfl, parts, errors, answers _ rfl⟩

end SqlTemplate
