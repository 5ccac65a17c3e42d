import SqlTemplate.Evaluation
import SqlTemplate.Proofs.Normal

/-!
# Parts of statements

Whatever is added to a draft goes to its end, and moves its number on by as many places as
there are new arguments. So a draft grows by parts: text with its arguments and errors.
An expansion is such a part, too.
-/

namespace SqlTemplate
open SqlTemplate.Sql

/-- Text with its arguments and errors. -/
@[ext] structure Part where
  statement : String := ""
  arguments : List Scalar := []
  errors : List BindingError := []

namespace Part

instance : Append Part where
  append a b := ⟨a.statement ++ b.statement, a.arguments ++ b.arguments, a.errors ++ b.errors⟩

@[simp] theorem statement_append (a b : Part) : (a ++ b).statement = a.statement ++ b.statement := rfl
@[simp] theorem arguments_append (a b : Part) : (a ++ b).arguments = a.arguments ++ b.arguments := rfl
@[simp] theorem errors_append (a b : Part) : (a ++ b).errors = a.errors ++ b.errors := rfl

/-- The placeholders of a list with commas between them. -/
def list (index : UInt32) (values : List Scalar) : Part :=
  { statement := ",".intercalate (placeholders index values.length), arguments := values }

theorem list_cons_cons (index : UInt32) (value next : Scalar) (values : List Scalar) :
    list index (value :: next :: values) =
      list index [value] ++ { statement := "," } ++ list (advance index 1) (next :: values) := by
  apply Part.ext
  · simp [list, placeholders, String.append_assoc]
  · rfl
  · rfl

/-- A part whose statement is in normal form. -/
def normal (part : Part) : Part := { part with statement := normalizeText part.statement }

theorem toList_normal (part : Part) :
    part.normal.statement.toList = normalize part.statement.toList := String.toList_ofList ..

theorem bare_normal (part : Part) :
    bare part.normal.statement.toList = bare part.statement.toList := by
  rw [toList_normal, bare_normalize]

theorem balanced_append {a b : Part} (left : Balanced a.statement.toList)
    (right : Balanced b.statement.toList) : Balanced (a ++ b).statement.toList := by
  rw [statement_append, String.toList_append]
  exact left.append right

theorem visible_append {a : Part} (balanced : Balanced a.statement.toList) (b : Part) :
    visible .outside (a ++ b).statement.toList =
      visible .outside a.statement.toList ++ visible .outside b.statement.toList := by
  rw [statement_append, String.toList_append, balanced.visible_append]

end Part

/-- What an expansion consists of. -/
def Expansion.part : Expansion → Part
  | .ok query => { statement := query.statement, arguments := query.arguments }
  | .error query => ⟨query.statement, query.arguments, query.errors⟩

/-! ### Numbers of placeholders -/

theorem advance_zero (index : UInt32) : advance index 0 = index := by
  have := index.toNat_lt
  apply UInt32.toNat_inj.mp
  rw [toNat_advance]
  unfold lastIndex
  omega

theorem advance_pos {index : UInt32} (positive : 0 < index.toNat) (count : Nat) :
    0 < (advance index count).toNat := by
  rw [toNat_advance]
  unfold lastIndex
  omega

theorem toNat_max_one (index : UInt32) : (max index 1).toNat = max index.toNat 1 := by
  change (if index ≤ 1 then (1 : UInt32) else index).toNat = _
  split
  · next small =>
    have : index.toNat ≤ 1 := UInt32.le_iff_toNat_le.mp small
    rw [Nat.max_eq_right this]
    rfl
  · next large =>
    have : ¬ index.toNat ≤ 1 := fun small => large (UInt32.le_iff_toNat_le.mpr small)
    omega

theorem max_one_pos (index : UInt32) : 0 < (max index 1).toNat := by
  rw [toNat_max_one]
  omega

theorem max_one_eq {index : UInt32} (positive : 0 < index.toNat) : max index 1 = index := by
  apply UInt32.toNat_inj.mp
  rw [toNat_max_one]
  omega

namespace Draft

/-- A draft with a part added to its end. -/
def extend (draft : Draft) (part : Part) : Draft where
  index := advance draft.index part.arguments.length
  statement := draft.statement ++ part.statement
  arguments := draft.arguments ++ part.arguments
  errors := draft.errors ++ part.errors

theorem extend_extend (draft : Draft) (a b : Part) :
    (draft.extend a).extend b = draft.extend (a ++ b) := by
  simp [extend, advance_advance, String.append_assoc]

theorem extend_empty (draft : Draft) : draft.extend {} = draft := by
  simp [extend, advance_zero]

theorem literal_eq_extend (draft : Draft) (text : String) :
    draft.literal text = draft.extend { statement := text } := by
  simp [literal, extend, advance_zero]

theorem list_eq_extend (draft : Draft) (values : List Scalar) :
    draft.list values = draft.extend (.list draft.index values) := by
  simp [list, extend, Part.list]

theorem fail_eq_extend (draft : Draft) (error : BindingError) :
    draft.fail error = draft.extend { statement := marker error, errors := [error] } := by
  simp [fail, extend, advance_zero]

theorem splice_eq_extend (draft : Draft) (expansion : Expansion) :
    draft.splice expansion = draft.extend expansion.part := by
  cases expansion <;> simp [splice, extend, Expansion.part]

/-- What is written so far, as a part. -/
def part (draft : Draft) : Part := ⟨draft.statement, draft.arguments, draft.errors⟩

theorem part_extend (draft : Draft) (part : Part) : (draft.extend part).part = draft.part ++ part :=
  rfl

theorem part_finish (draft : Draft) : draft.finish.part = draft.part.normal := by
  unfold finish
  split
  · next none =>
    rw [List.isEmpty_iff] at none
    simp [Expansion.part, part, Part.normal, none]
  · rfl

/-- An expansion is the part by which its draft grew, in normal form. -/
theorem finish_part (index : UInt32) (part : Part) :
    ((start index).extend part).finish.part = part.normal := by
  have whole : ((start index).extend part).part = part := by simp [Draft.part, extend, start]
  rw [part_finish, whole]

theorem finish_isOk (draft : Draft) : draft.finish.isOk = draft.errors.isEmpty := by
  unfold finish
  split
  · next none => simp [Except.isOk, Except.toBool, none]
  · next some => simp [Except.isOk, Except.toBool, some]

end Draft

/-! ### Answers -/

namespace Callee

/-- What answers nested calls if so many compositions may still be nested. -/
def caller? : Nat → Option Caller
  | 0 => none
  | room + 1 => some (answer room)

theorem answer_eq (room : Nat) : answer room = answerWith (caller? room) := by
  cases room <;> rfl

end Callee

/-- The scope of pieces that expand with so much room. -/
def Scope.withRoom (set : QuerySet) (params : Params) (options : Options) (room : Nat) : Scope :=
  { set, params, options, caller? := Callee.caller? room }

theorem Callee.answer_pieces (room : Nat) (pieces : List Piece) (set : QuerySet) (params : Params)
    (options : Options) :
    (Callee.pieces pieces set).answer room params options =
      (Draft.ofPieces (.withRoom set params options room) pieces).finish := by
  rw [answer_eq]
  rfl

theorem evaluate_eq (pieces : List Piece) (set : QuerySet) (params : Params) (options : Options) :
    evaluate pieces set params options =
      (Draft.ofPieces (Scope.withRoom set params options options.room) pieces).finish :=
  Callee.answer_pieces options.room pieces set params options

end SqlTemplate
