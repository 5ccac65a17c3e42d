import SqlTemplate.Proofs.Acceptance
import SqlTemplate.Proofs.Part

/-!
# Merged literals

Merging makes one literal of literals that are neighbours. It moves no text across a
parameter, and the draft of a merged body is the draft of the body itself, whatever the
parameters are bound to and whoever answers the calls (`evaluate_merge`).
-/

namespace SqlTemplate

namespace Piece

/-- The text of a literal. -/
def text? : Piece → Option String
  | literal text => some text
  | parameter _ => none

/-- The texts between the parameters of a body: in front of the first, between each and the
next, and behind the last. -/
def texts (pieces : List Piece) : List String :=
  (pieces.splitOnP (·.reference?.isSome)).map fun run => String.join (run.filterMap text?)

/-- One of two pieces is a parameter. -/
def Apart (first second : Piece) : Prop := first.text? = none ∨ second.text? = none

theorem texts_parameter (name : String) (pieces : List Piece) :
    texts (parameter name :: pieces) = "" :: texts pieces := by
  simp [texts, List.splitOnP_cons_eq_if_modifyHead, reference?]

/-- A literal adds its text to the first of the texts. -/
theorem texts_literal (text : String) (pieces : List Piece) :
    texts (literal text :: pieces) = (texts pieces).modifyHead (text ++ ·) := by
  unfold texts
  rw [List.splitOnP_cons_eq_if_modifyHead]
  obtain ⟨run, runs, split⟩ :=
    List.exists_cons_of_ne_nil (List.splitOnP_ne_nil (·.reference?.isSome) pieces)
  rw [split]
  simp [reference?, text?]

/-- Merging moves no text across a parameter. -/
theorem texts_merge (pieces : List Piece) : texts (merge pieces) = texts pieces := by
  fun_induction merge pieces with
  | case1 => rfl
  | case2 name pieces ih => rw [texts_parameter, texts_parameter, ih]
  | case3 text pieces more rest same ih =>
    rw [same, texts_literal] at ih
    rw [texts_literal, texts_literal, ← ih, List.modifyHead_modifyHead]
    congr
    funext behind
    exact String.append_assoc
  | case4 text pieces _ ih => rw [texts_literal, texts_literal, ih]

/-- No two literals of a merged body are neighbours. -/
theorem merge_isChain (pieces : List Piece) : (merge pieces).IsChain Apart := by
  fun_induction merge pieces with
  | case1 => exact .nil
  | case2 name pieces ih => exact ih.cons fun _ _ => Or.inl rfl
  | case3 text pieces more rest same ih =>
    rw [same] at ih
    obtain ⟨apart, rest⟩ := List.isChain_cons.mp ih
    refine rest.cons fun next isFirst => ?_
    exact Or.inr ((apart next isFirst).resolve_left (by simp [text?]))
  | case4 text pieces other ih =>
    refine ih.cons fun next isFirst => ?_
    obtain ⟨rest, whole⟩ := List.head?_eq_some_iff.mp isFirst
    cases next with
    | literal more => exact absurd whole (other more rest)
    | parameter name => exact Or.inr rfl

end Piece

/-- Two texts one after the other are one text. -/
theorem Draft.literal_literal (draft : Draft) (text more : String) :
    (draft.literal text).literal more = draft.literal (text ++ more) := by
  simp [literal, String.append_assoc]

/-- Merged pieces add to a draft what the pieces add. -/
theorem Draft.foldl_merge (scope : Scope) (draft : Draft) (pieces : List Piece) :
    (Piece.merge pieces).foldl (add scope) draft = pieces.foldl (add scope) draft := by
  fun_induction Piece.merge pieces generalizing draft with
  | case1 => rfl
  | case2 name pieces ih => exact ih (draft.add scope (.parameter name))
  | case3 text pieces more rest same ih =>
    calc (Piece.literal (text ++ more) :: rest).foldl (add scope) draft
      _ = rest.foldl (add scope) ((draft.literal text).literal more) := by
        rw [literal_literal]
        rfl
      _ = (Piece.merge pieces).foldl (add scope) (draft.literal text) := by rw [same]; rfl
      _ = pieces.foldl (add scope) (draft.literal text) := ih (draft.literal text)
  | case4 text pieces _ ih => exact ih (draft.literal text)

theorem Draft.ofPieces_merge (scope : Scope) (pieces : List Piece) :
    ofPieces scope (Piece.merge pieces) = ofPieces scope pieces :=
  foldl_merge scope (start scope.options.index) pieces

/-- A merged body expands to the same as the body itself, whatever answers the calls of the
references that parameters are bound to. It has the same parameters in the same order and the
same texts between them, and no two of its literals are neighbours. -/
theorem evaluate_merge (body : List Piece) :
    (∀ scope : Scope,
      (Draft.ofPieces scope (Piece.merge body)).finish = (Draft.ofPieces scope body).finish) ∧
    (∀ set params options,
      evaluate (Piece.merge body) set params options = evaluate body set params options) ∧
    (Piece.merge body).IsChain Piece.Apart ∧
    Piece.references (Piece.merge body) = Piece.references body ∧
    Piece.texts (Piece.merge body) = Piece.texts body := by
  refine ⟨?_, ?_, Piece.merge_isChain body, Piece.references_merge body, Piece.texts_merge body⟩
  · intro scope
    rw [Draft.ofPieces_merge]
  · intro set params options
    rw [evaluate_eq, evaluate_eq, Draft.ofPieces_merge]

/-- A letter in front of a string stays attached to it. -/
example : Piece.merge [.literal "E", .literal "'x'", .parameter "a", .parameter "b", .literal ")"] =
    [.literal "E'x'", .parameter "a", .parameter "b", .literal ")"] := by decide

end SqlTemplate
