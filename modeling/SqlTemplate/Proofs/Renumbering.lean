import SqlTemplate.Proofs.Additions
import SqlTemplate.Proofs.Quotation

/-!
# Other numbers

The first number of an expansion changes the numbers of placeholders, and nothing else: two
expansions that begin with different numbers have statements that are the same but for the
digits behind the dollar signs (`Renumbered`). Normal forms keep to that, since digits are no
white space, and question marks take all the digits away. It does not matter what stands next
to a placeholder: digits behind it are digits in both texts.
-/

namespace SqlTemplate.Sql
open SqlTemplate.Text

/-! ### Digits -/

theorem shown_of_isDigit {c : Char} (digit : c.isDigit) : isBlank c = false := by
  rw [Bool.eq_false_iff]
  intro blank
  rw [not_isDigit_of_isBlank blank] at digit
  cases digit

theorem ne_of_isDigit {c d : Char} (digit : c.isDigit) (other : d.isDigit = false) : c ≠ d := by
  rintro rfl
  rw [digit] at other
  cases other

/-- Digits do not open a string. -/
theorem after_digits {number : List Char} (digits : ∀ c ∈ number, c.isDigit) :
    Place.outside.after number = .outside := by
  refine (visible_of_no_quote ?_).2
  exact fun member => ne_of_isDigit (digits _ member) rfl rfl

/-- Digits are not squeezed. -/
theorem squeeze_digits {number : List Char} (digits : ∀ c ∈ number, c.isDigit)
    (rest : List Char) :
    squeeze .outside true false (number ++ rest) = number ++ squeeze .outside true false rest := by
  induction number with
  | nil => rfl
  | cons c number ih =>
    obtain ⟨first, others⟩ := List.forall_mem_cons.mp digits
    rw [List.cons_append, squeeze_shown (shown_of_isDigit first),
      Place.next_of_ne (ne_of_isDigit first rfl), ih others]
    rfl

/-! ### Texts with other numbers -/

/-- Two texts that are the same but for the digits behind dollar signs outside strings, with
one digit at least behind each. -/
inductive Renumbered : Place → List Char → List Char → Prop where
  | nil (place : Place) : Renumbered place [] []
  | char {place : Place} (c : Char) {cs ds : List Char} (rest : Renumbered (place.next c) cs ds) :
      Renumbered place (c :: cs) (c :: ds)
  | number {m n cs ds : List Char} (first : m ≠ [] ∧ ∀ c ∈ m, c.isDigit)
      (second : n ≠ [] ∧ ∀ c ∈ n, c.isDigit) (rest : Renumbered .outside cs ds) :
      Renumbered .outside ('$' :: (m ++ cs)) ('$' :: (n ++ ds))

namespace Renumbered
variable {place : Place} {a b c d : List Char}

theorem refl (place : Place) (cs : List Char) : Renumbered place cs cs := by
  induction cs generalizing place with
  | nil => exact .nil place
  | cons c cs ih => exact .char c (ih _)

theorem symm (same : Renumbered place a b) : Renumbered place b a := by
  induction same with
  | nil place => exact .nil place
  | char c _ ih => exact .char c ih
  | number first second _ ih => exact .number second first ih

theorem append (left : Renumbered place a b) (right : Renumbered (place.after a) c d) :
    Renumbered place (a ++ c) (b ++ d) := by
  induction left with
  | nil => exact right
  | char c _ ih => exact .char c (ih right)
  | @number m n cs ds first second _ ih =>
    have through : Place.outside.after ('$' :: (m ++ cs)) = Place.outside.after cs := by
      rw [Place.after_cons, Place.next_of_ne (by decide), Place.after_append, after_digits first.2]
    rw [List.cons_append, List.cons_append, List.append_assoc, List.append_assoc]
    exact .number first second (ih (through ▸ right))

theorem head?_eq (same : Renumbered place a b) : a.head? = b.head? := by
  cases same <;> rfl

theorem eq_nil_iff (same : Renumbered place a b) : a = [] ↔ b = [] := by
  rw [← List.head?_eq_none_iff, same.head?_eq, List.head?_eq_none_iff]

/-- The rewriting takes all digits of a placeholder away, and those that a text behind it
begins with. -/
theorem questionMarks_eq (same : Renumbered place a b) {number : Bool}
    (skips : number = true → place = .outside) :
    questionMarks place number a = questionMarks place number b := by
  induction same generalizing number with
  | nil => rfl
  | @char place c cs ds rest ih =>
    rw [questionMarks, questionMarks, rest.head?_eq, ih (by simp)]
    split
    · next skipped =>
      obtain ⟨isNumber, digit⟩ := Bool.and_eq_true_iff.mp skipped
      obtain rfl := skips isNumber
      rw [Place.next_of_ne (ne_of_isDigit digit rfl)] at ih
      exact ih fun _ => rfl
    · split
      · next begins =>
        simp only [Bool.and_eq_true, beq_iff_eq] at begins
        obtain ⟨⟨rfl, rfl⟩, _⟩ := begins
        exact congrArg _ (ih fun _ => rfl)
      · rfl
  | @number m n cs ds first second _ ih =>
    have through {m cs : List Char} (isNumber : m ≠ [] ∧ ∀ c ∈ m, c.isDigit) :
        questionMarks .outside number ('$' :: (m ++ cs)) = '?' :: questionMarks .outside true cs := by
      have begins : (m ++ cs).head?.any Char.isDigit := by
        obtain ⟨c, m, rfl⟩ := List.exists_cons_of_ne_nil isNumber.1
        simpa using isNumber.2 c List.mem_cons_self
      have notDigit : '$'.isDigit = false := rfl
      rw [questionMarks, if_neg (by simp [notDigit]), begins, if_pos (by simp),
        questionMarks_digits isNumber.2]
    rw [through first, through second, ih fun _ => rfl]

/-! ### Normal forms -/

theorem squeeze (same : Renumbered place a b) {kept gap : Bool}
    (inside : place ≠ .outside → gap = false) :
    Renumbered place (Sql.squeeze place kept gap a) (Sql.squeeze place kept gap b) := by
  induction same generalizing kept gap with
  | nil place => exact .nil place
  | @char place c cs ds rest ih =>
    rw [Sql.squeeze, Sql.squeeze]
    split
    · next skipped =>
      obtain ⟨out, blank⟩ := Bool.and_eq_true_iff.mp skipped
      obtain rfl := eq_of_beq out
      rw [Place.next_of_ne (ne_of_isBlank blank shown_quote)] at ih
      exact ih (by simp)
    · split
      · next due =>
        -- a space is due only outside strings
        obtain rfl : place = .outside := by
          by_contra within
          rw [inside within, Bool.and_false] at due
          cases due
        exact .char ' ' (.char c (ih (by simp)))
      · exact .char c (ih (by simp))
  | @number m n cs ds first second _ ih =>
    have through {m cs : List Char} (digits : ∀ c ∈ m, c.isDigit) :
        Sql.squeeze .outside kept gap ('$' :: (m ++ cs)) =
          dueSpace kept gap ++ '$' :: (m ++ Sql.squeeze .outside true false cs) := by
      rw [squeeze_shown (by decide), Place.next_of_ne (by decide), squeeze_digits digits]
    have closed : Place.outside.after (dueSpace kept gap) = .outside := by
      unfold dueSpace
      split <;> rfl
    rw [through first.2, through second.2]
    refine (refl _ _).append ?_
    rw [closed]
    exact .number first second (ih (by simp))

theorem trimEnd (same : Renumbered place a b) :
    Renumbered place (Text.trimEnd a) (Text.trimEnd b) := by
  induction same with
  | nil place => exact .nil place
  | char c _ ih =>
    simp only [trimEnd_cons, ih.eq_nil_iff]
    split
    · exact .nil _
    · exact .char c ih
  | @number m n cs ds first second _ ih =>
    have through {m cs : List Char} (digits : ∀ c ∈ m, c.isDigit) :
        Text.trimEnd ('$' :: (m ++ cs)) = '$' :: (m ++ Text.trimEnd cs) := by
      have shown : ∀ c ∈ '$' :: m, isBlank c = false :=
        List.forall_mem_cons.mpr ⟨by decide, fun c member => shown_of_isDigit (digits c member)⟩
      exact trimEnd_append_shown shown cs
    rw [through first.2, through second.2]
    exact .number first second ih

/-- A last semicolon is the last in both texts, since a number ends with a digit. -/
theorem of_concat (same : Renumbered place (a ++ [';']) b) :
    ∃ front, b = front ++ [';'] ∧ Renumbered place a front := by
  generalize whole : a ++ [';'] = text at same
  induction same generalizing a with
  | nil => simp at whole
  | @char place c cs ds rest ih =>
    cases a with
    | nil =>
      obtain ⟨rfl, rfl⟩ := List.cons.inj whole
      obtain rfl := rest.eq_nil_iff.mp rfl
      exact ⟨[], rfl, .nil _⟩
    | cons first a =>
      obtain ⟨rfl, behind⟩ := List.cons.inj whole
      obtain ⟨front, rfl, same⟩ := ih behind
      exact ⟨first :: front, rfl, .char first same⟩
  | @number m n cs ds first second rest ih =>
    cases a with
    | nil => cases whole
    | cons dollar a =>
      obtain ⟨rfl, behind⟩ := List.cons.inj whole
      obtain rfl | ⟨middle, last, rfl⟩ := List.eq_nil_or_concat cs
      · have digit : ';' ∈ m := by
          rw [List.append_nil] at behind
          simp [← behind]
        exact absurd (first.2 _ digit) (by decide)
      · have both : a ++ [';'] = (m ++ middle) ++ [last] := by simpa using behind
        obtain ⟨rfl, ends⟩ := List.append_inj' both rfl
        obtain ⟨front, rfl, same⟩ := ih (a := middle) (by simp [ends])
        exact ⟨'$' :: (n ++ front), by simp, .number first second same⟩

theorem dropSemicolon (same : Renumbered place a b) :
    Renumbered place (Sql.dropSemicolon a) (Sql.dropSemicolon b) := by
  by_cases first : a.getLast? = some ';'
  · obtain ⟨front, rfl⟩ := List.getLast?_eq_some_iff.mp first
    obtain ⟨other, rfl, fronts⟩ := same.of_concat
    rw [dropSemicolon_concat, dropSemicolon_concat]
    exact fronts.trimEnd
  · have second : b.getLast? ≠ some ';' := by
      intro last
      obtain ⟨front, rfl⟩ := List.getLast?_eq_some_iff.mp last
      obtain ⟨other, rfl, _⟩ := same.symm.of_concat
      simp at first
    rw [dropSemicolon_of_ne first, dropSemicolon_of_ne second]
    exact same

theorem normalize (same : Renumbered .outside a b) :
    Renumbered .outside (Sql.normalize a) (Sql.normalize b) :=
  (same.squeeze (by simp)).dropSemicolon

end Renumbered
end SqlTemplate.Sql

namespace SqlTemplate
open SqlTemplate.Sql SqlTemplate.Identifier

/-! ### Parts with other numbers -/

/-- Two parts that are the same but for the numbers of placeholders. -/
structure Part.SameButNumbers (a b : Part) : Prop where
  balanced : Balanced a.statement.toList
  statement : Renumbered .outside a.statement.toList b.statement.toList
  arguments : a.arguments = b.arguments
  errors : a.errors = b.errors

namespace Part.SameButNumbers
variable {a b c d : Part}

theorem refl (balanced : Balanced a.statement.toList) : a.SameButNumbers a :=
  ⟨balanced, .refl _ _, rfl, rfl⟩

theorem append (left : a.SameButNumbers b) (right : c.SameButNumbers d) :
    (a ++ c).SameButNumbers (b ++ d) where
  balanced := balanced_append left.balanced right.balanced
  statement := by
    have balanced : Place.outside.after a.statement.toList = .outside := left.balanced
    rw [statement_append, statement_append, String.toList_append, String.toList_append]
    exact left.statement.append (balanced.symm ▸ right.statement)
  arguments := by rw [arguments_append, arguments_append, left.arguments, right.arguments]
  errors := by rw [errors_append, errors_append, left.errors, right.errors]

theorem normal (inside : a.SameButNumbers b) : a.normal.SameButNumbers b.normal where
  balanced := a.toList_normal ▸ inside.balanced.normalize
  statement := by
    rw [toList_normal, toList_normal]
    exact inside.statement.normalize
  arguments := inside.arguments
  errors := inside.errors

theorem placeholder (i j : UInt32) (value : Scalar) :
    SameButNumbers { statement := placeholder i, arguments := [value] }
      { statement := placeholder j, arguments := [value] } where
  balanced := (visible_placeholder i).2
  statement := by
    have isNumber (index : UInt32) :
        (toString index.toNat).toList ≠ [] ∧ ∀ c ∈ (toString index.toNat).toList, c.isDigit :=
      ⟨by simp [Nat.toList_repr], fun c member => isDigit_of_mem_toString member⟩
    have both := Renumbered.number (isNumber i) (isNumber j) (.nil _)
    rwa [List.append_nil, List.append_nil, ← toList_placeholder, ← toList_placeholder] at both
  arguments := rfl
  errors := rfl

theorem list (i j : UInt32) (values : List Scalar) :
    (Part.list i values).SameButNumbers (Part.list j values) := by
  induction values generalizing i j with
  | nil => exact .refl rfl
  | cons value values ih =>
    cases values with
    | nil => exact .placeholder i j value
    | cons next values =>
      have comma : SameButNumbers { statement := "," } { statement := "," } := .refl rfl
      rw [Part.list_cons_cons, Part.list_cons_cons]
      exact ((placeholder i j value).append comma).append (ih _ _)

end Part.SameButNumbers

/-!
### What takes part

A quote in a separator, or in a name that is marked as missing, could put a placeholder inside
a string, where it is not rewritten.
-/

/-- The body of a query of a set that was read from a source text. -/
def Callee.Parsed (callee : Callee) : Prop :=
  ∃ set name query, QuerySet.Parsed set ∧ set.get? name = some query ∧
    callee = .pieces query.pieces set

/-- A reference to a query of such a set. -/
def Reference.Parsed (reference : Reference) : Prop :=
  ∃ set name, QuerySet.Parsed set ∧ set.reference? name = some reference

/-- A name without quotes, or a reference. -/
def Target.Unquoted : Target → Prop
  | name word => '\'' ∉ word.toList
  | reference query => query.Parsed

mutual

/-- A value in which every reference is to a query of a set that was read from a source text,
and no separator and no name of a call has a quote. -/
inductive Value.Unquoted : Value → Prop where
  | scalar (value : Scalar) : Value.Unquoted (.scalar value)
  | list (values : List Scalar) : Value.Unquoted (.list values)
  | query {reference : Reference} (parsed : reference.Parsed) : Value.Unquoted (.query reference)
  | inner {calls : List Call} {separator : String} (plain : '\'' ∉ separator.toList)
      (each : ∀ call ∈ calls, Call.Unquoted call) : Value.Unquoted (.inner calls separator)

/-- A call of that kind, whose own parameters are of that kind. -/
inductive Call.Unquoted : Call → Prop where
  | mk {target : Target} {own : Option Params} (known : target.Unquoted)
      (values : ∀ params, own = some params → ∀ name value, params.get? name = some value →
        Value.Unquoted value) :
      Call.Unquoted ⟨target, own⟩

end

/-- All values are of that kind. -/
def Params.Unquoted (params : Params) : Prop :=
  ∀ name value, params.get? name = some value → value.Unquoted

/-- An addition that closes every string that it opens. -/
def Addition.Closed : Addition → Prop
  | .text content => Balanced content.toList
  | .list _ => True
  | .missing name => '\'' ∉ name.toList
  | .answer name callee params => '\'' ∉ name.toList ∧ callee.Parsed ∧ params.Unquoted

theorem not_mem_of_isIdentifier {cs : List Char} (identifier : isIdentifier cs) : '\'' ∉ cs :=
  fun member => absurd (isTail_of_mem identifier member) (by decide)

theorem Reference.Parsed.closed {reference : Reference} (parsed : reference.Parsed)
    {params : Params} (unquoted : params.Unquoted) :
    (Addition.answer reference.name reference.callee params).Closed := by
  obtain ⟨set, name, inSet, found⟩ := parsed
  obtain ⟨query, isQuery, rfl⟩ := Option.map_eq_some_iff.mp found
  exact ⟨not_mem_of_isIdentifier (inSet.query isQuery).1, ⟨set, name, query, inSet, isQuery, rfl⟩,
    unquoted⟩

section Closed
variable {set : QuerySet} {params : Params}

theorem Call.Unquoted.closed {call : Call} (unquoted : call.Unquoted) (parsed : set.Parsed)
    (values : params.Unquoted) : (call.addition set params).Closed := by
  cases unquoted with
  | @mk target own known each =>
    have bound : (own.getD params).Unquoted := by
      cases own with
      | none => exact values
      | some own => exact each own rfl
    cases target with
    | reference reference =>
      have isReference : reference.Parsed := known
      exact isReference.closed bound
    | name name =>
      simp only [Call.addition]
      split
      · next query found => exact ⟨known, ⟨set, name, query, parsed, found, rfl⟩, bound⟩
      · exact known

theorem Value.Unquoted.closed {value : Value} (unquoted : value.Unquoted) (parsed : set.Parsed)
    (values : params.Unquoted) : ∀ addition ∈ value.additions set params, addition.Closed := by
  cases unquoted with
  | scalar value => exact List.forall_mem_singleton.mpr trivial
  | list values => exact List.forall_mem_singleton.mpr trivial
  | query isReference => exact List.forall_mem_singleton.mpr (isReference.closed values)
  | inner plain each =>
    intro addition member
    rcases mem_intersperse member with rfl | member
    · exact (visible_of_no_quote plain).2
    · obtain ⟨call, isCall, rfl⟩ := List.mem_map.mp member
      exact (each call isCall).closed parsed values

theorem Piece.Sound.closed {piece : Piece} (sound : piece.Sound) (parsed : set.Parsed)
    (values : params.Unquoted) : ∀ addition ∈ piece.additions set params, addition.Closed := by
  intro addition member
  cases Piece.Adds.of_mem member with
  | literal text => exact sound
  | @composed name query found =>
    exact ⟨not_mem_of_isIdentifier sound, ⟨set, name, query, parsed, found, rfl⟩, values⟩
  | bound found member => exact (values _ _ found).closed parsed values addition member
  | missing name => exact not_mem_of_isIdentifier sound

end Closed

/-! ### Drafts with other numbers -/

/-- The same options with another first number. -/
def Options.startingAt (options : Options) (index : UInt32) : Options := { options with index }

/-- The same scope with another first number. -/
def Scope.startingAt (scope : Scope) (index : UInt32) : Scope :=
  { scope with options := scope.options.startingAt index }

/-- Calls are answered the same from any number on, but for the numbers. -/
def Scope.Steady (scope : Scope) : Prop :=
  ∀ call, scope.caller? = some call → ∀ callee : Callee, callee.Parsed → ∀ params : Params,
    params.Unquoted → ∀ options index,
      (call callee params options).part.SameButNumbers (call callee params (options.startingAt index)).part

theorem Draft.marker_balanced {error : BindingError} (plain : '\'' ∉ error.name.toList) :
    Balanced (marker error).toList := by
  refine (visible_of_no_quote ?_).2
  obtain ⟨name, fault⟩ := error
  cases fault <;> simp_all [marker]

theorem Addition.Closed.sameButNumbers {scope : Scope} (steady : scope.Steady) {addition : Addition}
    (closed : addition.Closed) (first i j : UInt32) :
    (addition.part scope i).SameButNumbers (addition.part (scope.startingAt first) j) := by
  cases addition with
  | text content => exact .refl closed
  | list values => exact .list i j values
  | missing name => exact .refl (Draft.marker_balanced closed)
  | answer name callee params =>
    obtain ⟨plain, parsed, unquoted⟩ := closed
    have same : (scope.startingAt first).caller? = scope.caller? := rfl
    simp only [Addition.part, same]
    split
    · next call found => exact steady call found callee parsed params unquoted _ j
    · exact .refl (Draft.marker_balanced plain)

namespace Draft
variable {draft other : Draft} {scope : Scope}

/-- What is added to two drafts is the same but for numbers, whatever numbers they have come to. -/
theorem put_sameButNumbers (steady : scope.Steady) {addition : Addition} (closed : addition.Closed)
    (same : draft.part.SameButNumbers other.part) (first : UInt32) :
    (draft.put scope addition).part.SameButNumbers
      (other.put (scope.startingAt first) addition).part := by
  rw [put_eq_extend, put_eq_extend, part_extend, part_extend]
  exact same.append (closed.sameButNumbers steady first draft.index other.index)

theorem putAll_sameButNumbers (steady : scope.Steady) {additions : List Addition}
    (closed : ∀ addition ∈ additions, addition.Closed)
    (same : draft.part.SameButNumbers other.part) (index : UInt32) :
    (draft.putAll scope additions).part.SameButNumbers
      (other.putAll (scope.startingAt index) additions).part :=
  List.foldl_rel (r := fun draft other : Draft => draft.part.SameButNumbers other.part) same
    fun addition member _ _ same => put_sameButNumbers steady (closed addition member) same index

end Draft

namespace Callee

/-- From two numbers on, a query answers the same but for numbers. -/
theorem answer_sameButNumbers (room : Nat) {callee : Callee} (parsed : callee.Parsed)
    {params : Params} (unquoted : params.Unquoted) (options : Options) (index : UInt32) :
    (callee.answer room params options).part.SameButNumbers
      (callee.answer room params (options.startingAt index)).part := by
  obtain ⟨set, name, query, isSet, found, rfl⟩ := parsed
  have ready : (Scope.withRoom set params options room).Steady := by
    rintro call isCall callee parsed params unquoted options index
    cases room with
    | zero => cases isCall
    | succ room =>
      cases isCall
      exact answer_sameButNumbers room parsed unquoted options index
  have closed : ∀ addition ∈ query.pieces.flatMap (·.additions set params), addition.Closed := by
    intro addition member
    obtain ⟨piece, isPiece, member⟩ := List.mem_flatMap.mp member
    exact ((isSet.query found).2 piece isPiece).closed isSet unquoted addition member
  have begins : (Draft.start options.index).part.SameButNumbers (Draft.start index).part := .refl rfl
  rw [answer_eq_putAll, answer_eq_putAll, Draft.part_finish, Draft.part_finish]
  exact (Draft.putAll_sameButNumbers ready closed begins index).normal
termination_by room

theorem isOk_answer (room : Nat) (pieces : List Piece) (set : QuerySet) (params : Params)
    (options : Options) : ((Callee.pieces pieces set).answer room params options).isOk =
      ((Callee.pieces pieces set).answer room params options).part.errors.isEmpty := by
  rw [answer_pieces, Draft.finish_isOk, Draft.part_finish]
  rfl

end Callee

/-- With another first number, a query has the same result, the same arguments and the same
errors in the same order. Nothing but the numbers of its placeholders is different, so that
nothing is left of the difference once they are question marks. -/
theorem expand_renumbered {set : QuerySet} (parsed : set.Parsed) (name : String) {params : Params}
    (unquoted : params.Unquoted) {options : Options} {index : UInt32} {first second : Expansion}
    (isFirst : set.expand name params options = first)
    (isSecond : set.expand name params { options with index } = second) :
    first.isOk = second.isOk ∧ first.part.arguments = second.part.arguments ∧
      first.part.errors = second.part.errors ∧
      Renumbered .outside first.part.statement.toList second.part.statement.toList ∧
      PlaceholderStyle.question.rewrite first.part.statement =
        PlaceholderStyle.question.rewrite second.part.statement := by
  have rewritten {a b : String} (same : Renumbered .outside a.toList b.toList) :
      PlaceholderStyle.question.rewrite a = PlaceholderStyle.question.rewrite b :=
    congrArg String.ofList (same.questionMarks_eq fun _ => rfl)
  subst isFirst isSecond
  unfold QuerySet.expand
  cases found : set.get? name with
  | none => exact ⟨rfl, rfl, rfl, .refl _ _, rfl⟩
  | some query =>
    have same := Callee.answer_sameButNumbers options.room ⟨set, name, query, parsed, found, rfl⟩
      unquoted options index
    have isOk := Callee.isOk_answer options.room query.pieces set params options
    rw [same.errors, ← Callee.isOk_answer] at isOk
    exact ⟨isOk, same.arguments, same.errors, same.statement, rewritten same.statement⟩

theorem peopleParams_unquoted : peopleParams.Unquoted := by
  have bound {params : Params} (each : ∀ entry ∈ params.entries, entry.2.Unquoted) :
      params.Unquoted :=
    fun name value found => each _ (Params.mem_entries_of_get? found)
  apply bound
  simp only [peopleParams, List.forall_mem_cons]
  refine ⟨.scalar _, .inner (by decide) ?_, by simp⟩
  simp only [List.forall_mem_cons]
  have plain : (Target.name "old").Unquoted := by
    have : '\'' ∉ "old".toList := by decide
    exact this
  refine ⟨.mk plain (by simp), .mk ⟨peopleSet, "old", ⟨people, parse_people⟩, rfl⟩ ?_, by simp⟩
  rintro _ ⟨⟩
  apply bound
  simp only [List.forall_mem_cons]
  exact ⟨.list _, by simp⟩

/-- From the largest number on, all placeholders have the same number. -/
theorem people_renumbered :
    ∃ first second, peopleSet.expand "search" peopleParams { index := 4 } = .ok first ∧
      peopleSet.expand "search" peopleParams { index := 4294967295 } = .ok second ∧
      first.statement = "age > $4 OR age > $5,$6 AND note <> '$1?'" ∧
      second.statement =
        "age > $4294967295 OR age > $4294967295,$4294967295 AND note <> '$1?'" ∧
      first.arguments = second.arguments ∧
      PlaceholderStyle.question.rewrite first.statement =
        PlaceholderStyle.question.rewrite second.statement := by
  have first : peopleSet.expand "search" peopleParams { index := 4 } =
      .ok ⟨"age > $4 OR age > $5,$6 AND note <> '$1?'", [.int 18, .int 60, .int 70]⟩ := by rfl
  have second : peopleSet.expand "search" peopleParams { index := 4294967295 } =
      .ok ⟨"age > $4294967295 OR age > $4294967295,$4294967295 AND note <> '$1?'",
        [.int 18, .int 60, .int 70]⟩ := by rfl
  obtain ⟨_, arguments, _, _, rewritten⟩ :=
    expand_renumbered ⟨people, parse_people⟩ "search" peopleParams_unquoted first second
  exact ⟨_, _, first, second, rfl, rfl, arguments, rewritten⟩

end SqlTemplate
