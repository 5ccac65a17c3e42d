import SqlTemplate.Proofs.Partition

/-!
# Colons

Two colons stand together and one colon before an identifier opens a parameter, so what a run
of colons means depends on how many there are. Plain text takes them two by two from where
the run begins (`PlainText.pairs`), wherever it has begun itself (`PlainText.of_append`). An
odd run in front of an identifier leaves its last colon to a parameter, and an even one leaves
none (`colon_runs`).
-/

namespace SqlTemplate
open SqlTemplate.Text SqlTemplate.Identifier SqlTemplate.Source

/-! ### Colons in plain text -/

theorem ne_colon_of_isHead {c : Char} (head : isHead c) : c ≠ ':' := by
  rintro rfl
  exact absurd head (by decide)

/-- An identifier in front of plain text belongs to it. -/
theorem not_stops_of_isHead {c : Char} (head : isHead c) (cs : List Char) : ¬ Stops (c :: cs) := by
  intro stops
  cases stops with
  | blank blank =>
    rw [shown_of_isTail (isTail_of_isHead head)] at blank
    cases blank
  | quote => exact absurd head (by decide)
  | parameter => exact absurd head (by decide)
  | dashes => exact absurd head (by decide)

/-- Plain text goes on behind pairs of colons. -/
theorem PlainText.pairs {text rest : List Char} (plain : PlainText text rest) (pairs : Nat) :
    PlainText (List.replicate (2 * pairs) ':' ++ text) rest := by
  induction pairs with
  | zero => exact plain
  | succ pairs ih =>
    rw [Nat.mul_succ, List.replicate_succ, List.replicate_succ]
    exact ih.colons

/-- Plain text goes on as plain text behind what does not end with a colon. -/
theorem PlainText.of_append {front text rest : List Char} (plain : PlainText (front ++ text) rest)
    (noColon : front.getLast? ≠ some ':') : PlainText text rest := by
  generalize whole : front ++ text = all at plain
  -- what is left of the front still does not end with a colon
  have shrinks {c : Char} {front : List Char} (noColon : (c :: front).getLast? ≠ some ':') :
      front.getLast? ≠ some ':' := by
    cases front with
    | nil => simp
    | cons d front => simpa [List.getLast?_cons_cons] using noColon
  induction plain generalizing front with
  | stop stops =>
    obtain ⟨rfl, rfl⟩ := List.append_eq_nil_iff.mp whole
    exact .stop stops
  | @colons more _ plain ih =>
    match front with
    | [] =>
      obtain rfl : text = ':' :: ':' :: more := whole
      exact plain.colons
    | [c] =>
      obtain ⟨rfl, _⟩ := List.cons.inj whole
      exact absurd rfl noColon
    | c :: d :: front =>
      obtain ⟨_, whole⟩ := List.cons.inj whole
      exact ih (shrinks (shrinks noColon)) (List.cons.inj whole).2
  | colon single noHead plain ih =>
    cases front with
    | nil =>
      subst whole
      exact plain.colon single noHead
    | cons c front => exact ih (shrinks noColon) (List.cons.inj whole).2
  | dash single plain ih =>
    cases front with
    | nil =>
      subst whole
      exact plain.dash single
    | cons c front => exact ih (shrinks noColon) (List.cons.inj whole).2
  | char shown notQuote notColon notDash plain ih =>
    cases front with
    | nil =>
      subst whole
      exact plain.char shown notQuote notColon notDash
    | cons c front => exact ih (shrinks noColon) (List.cons.inj whole).2

/-- Of an odd run in front of an identifier, plain text leaves the last colon. -/
theorem PlainText.of_odd {text rest after : List Char} {count : Nat} (plain : PlainText text rest)
    (whole : text ++ rest = List.replicate count ':' ++ after) (odd : count % 2 = 1)
    (head : after.head?.any isHead) :
    text = List.replicate (count - 1) ':' ∧ rest = ':' :: after := by
  obtain ⟨c, cs, rfl, isHead_c⟩ := exists_cons_of_any_head head
  obtain ⟨pairs, rfl⟩ : ∃ pairs, count = 2 * pairs + 1 := ⟨count / 2, by omega⟩
  have last : PlainText [] (':' :: c :: cs) := .stop (.parameter isHead_c)
  have same : text ++ rest = (List.replicate (2 * pairs) ':' ++ []) ++ ':' :: c :: cs := by
    rw [whole, List.replicate_succ', List.append_nil, List.append_assoc]
    rfl
  obtain ⟨rfl, rfl⟩ := plain.unique (last.pairs pairs) same
  exact ⟨List.append_nil _, rfl⟩

/-- Plain text takes all of an even run in front of an identifier, and goes on behind it. -/
theorem PlainText.of_even {text rest after : List Char} {count : Nat} (plain : PlainText text rest)
    (whole : text ++ rest = List.replicate count ':' ++ after) (even : count % 2 = 0)
    (head : after.head?.any isHead) : count < text.length := by
  obtain ⟨c, cs, rfl, isHead_c⟩ := exists_cons_of_any_head head
  obtain ⟨pairs, rfl⟩ : ∃ pairs, count = 2 * pairs := ⟨count / 2, by omega⟩
  obtain ⟨⟨taken, left⟩, read⟩ : ∃ split, plainText (c :: cs) = split := ⟨_, rfl⟩
  have behind := plainText_spec (c :: cs)
  have split := plainText_append (c :: cs)
  rw [read] at behind split
  dsimp only at behind split
  have nonempty : taken ≠ [] := by
    rintro rfl
    obtain rfl : left = c :: cs := split
    cases behind with
    | stop stops => exact not_stops_of_isHead isHead_c cs stops
  have same : text ++ rest = (List.replicate (2 * pairs) ':' ++ taken) ++ left := by
    rw [whole, List.append_assoc, split]
  obtain ⟨rfl, _⟩ := plain.unique (behind.pairs pairs) same
  have longer := List.length_pos_iff.mpr nonempty
  rw [List.length_append, List.length_replicate]
  omega

/-! ### Lexemes at an index -/

/-- A lexeme begins at an index of the source text. -/
def Begins (placed : List Placed) (index : Nat) (lexeme : Lexeme) : Prop :=
  ∃ front position back, placed = front ++ ⟨position, lexeme⟩ :: back ∧
    (source front).length = index

/-- A parameter begins at an index of the source text. -/
def OpensParameter (placed : List Placed) (index : Nat) : Prop :=
  ∃ name raw, Begins placed index (.token .parameter name raw)

/-- No string, comment or directive lies between two indices. -/
def Clear (placed : List Placed) (first last : Nat) : Prop :=
  ∀ start lexeme, Begins placed start lexeme →
    lexeme.form = .string ∨ lexeme.form = .line →
      start + lexeme.raw.length ≤ first ∨ last ≤ start

/-- Each character of the source text lies in a lexeme. -/
theorem exists_lexeme {placed : List Placed} {before after : List Char} {c : Char}
    (whole : source placed = before ++ c :: after) :
    ∃ front piece back text behind, placed = front ++ piece :: back ∧
      before = source front ++ text ∧ piece.lexeme.raw = text ++ c :: behind ∧
      after = behind ++ source back := by
  induction placed generalizing before with
  | nil => simp at whole
  | cons piece placed ih =>
    rcases List.append_eq_append_iff.mp whole with ⟨text, rfl, rest⟩ | ⟨text, isRaw, rest⟩
    · obtain ⟨front, other, back, text, behind, rfl, rfl, isRaw, rfl⟩ := ih rest
      have longer := (List.append_assoc piece.lexeme.raw (source front) text).symm
      exact ⟨piece :: front, other, back, text, behind, rfl, longer, isRaw, rfl⟩
    · cases text with
      | nil =>
        -- the character comes first behind this lexeme
        obtain ⟨front, other, back, text, behind, rfl, same, isOther, rfl⟩ := @ih [] rest.symm
        obtain rfl : piece.lexeme.raw = before := by simpa using isRaw
        refine ⟨piece :: front, other, back, text, behind, rfl, ?_, isOther, rfl⟩
        change piece.lexeme.raw = piece.lexeme.raw ++ source front ++ text
        rw [List.append_assoc, ← same, List.append_nil]
      | cons d behind =>
        obtain ⟨rfl, rfl⟩ := List.cons.inj rest
        exact ⟨[], piece, placed, before, behind, rfl, rfl, isRaw, rfl⟩

/-- No lexeme begins inside another. -/
theorem Begins.add_length_le {placed : List Placed} {i j : Nat} {first second : Lexeme}
    (begins : Begins placed i first) (other : Begins placed j second) (lt : i < j) :
    i + first.raw.length ≤ j := by
  obtain ⟨front, position, back, rfl, rfl⟩ := begins
  obtain ⟨front', position', back', same, rfl⟩ := other
  rcases List.append_eq_append_iff.mp same with ⟨between, rfl, split⟩ | ⟨between, rfl, _⟩
  · cases between with
    | nil => simp at lt
    | cons piece between =>
      obtain ⟨rfl, _⟩ := List.cons.inj split
      simp [source_append]
  · rw [source_append, List.length_append] at lt
    omega

/-! ### Identifiers behind colons -/

/-- The longest identifier at the front of a text. -/
structure LongestIdentifier (name text : List Char) : Prop where
  identifier : isIdentifier name
  front : name <+: text
  longest : ∀ other, other <+: text → isIdentifier other → other.length ≤ name.length

theorem LongestIdentifier.of_append {name rest : List Char} (identifier : isIdentifier name)
    (ends : ∀ c ∈ rest.head?, isTail c = false) : LongestIdentifier name (name ++ rest) := by
  refine ⟨identifier, List.prefix_append name rest, ?_⟩
  intro other front isOther
  by_contra longer
  have inside : name <+: other :=
    List.prefix_of_prefix_length_le (List.prefix_append name rest) front (by omega)
  obtain ⟨more, rfl⟩ := inside
  cases more with
  | nil => simp at longer
  | cons c more =>
    obtain ⟨left, same⟩ := front
    have isFirst : rest.head? = some c := by
      rw [List.append_assoc] at same
      rw [← List.append_cancel_left same]
      rfl
    have tail : isTail c := isTail_of_mem isOther (by simp)
    rw [ends c isFirst] at tail
    cases tail

/-- A colon in front of an identifier, where a lexeme begins, opens a parameter. -/
theorem Lexeme.Fits.parameter_of_colon {leading : Bool} {lexeme : Lexeme} {rest after : List Char}
    (fits : lexeme.Fits leading rest) (whole : lexeme.raw ++ rest = ':' :: after)
    (head : after.head?.any isHead) :
    ∃ name, lexeme = .token .parameter name (':' :: name) ∧ LongestIdentifier name after := by
  have notBlank : isBlank ':' = false := by decide
  have read := fits.read whole
  simp only [Lexeme.read, notBlank, head, Bool.and_true, beq_self_eq_true] at read
  simp at read
  refine ⟨after.takeWhile isTail, read.1.symm, ?_⟩
  have longest := LongestIdentifier.of_append (isIdentifier_takeWhile head) (span_spec after).2
  rwa [List.takeWhile_append_dropWhile] at longest

/-- What a lexeme with a colon is, if it is no string and no line. -/
theorem Lexeme.Fits.of_colon {leading : Bool} {lexeme : Lexeme} {front behind rest : List Char}
    (fits : lexeme.Fits leading rest) (split : lexeme.raw = front ++ ':' :: behind)
    (notString : lexeme.form ≠ .string) (notLine : lexeme.form ≠ .line) :
    (front = [] ∧ isIdentifier behind ∧ lexeme = .token .parameter behind (':' :: behind)) ∨
      PlainText (front ++ ':' :: behind) rest ∧
        lexeme = .token .fragment (front ++ ':' :: behind) (front ++ ':' :: behind) := by
  cases fits with
  | @blank run _ nonempty blank =>
    obtain rfl : run = front ++ ':' :: behind := split
    exact absurd (blank ':' (by simp)) (by decide)
  | name | docs | comment => exact absurd rfl notLine
  | string =>
    have notBlank : isBlank '\'' = false := by decide
    exact absurd (by simp [form, notBlank]) notString
  | @parameter name _ identifier =>
    cases front with
    | nil =>
      obtain ⟨_, rfl⟩ := List.cons.inj split
      exact Or.inl ⟨rfl, identifier, rfl⟩
    | cons c front =>
      obtain ⟨_, rfl⟩ := List.cons.inj split
      have tail : isTail ':' := isTail_of_mem identifier (by simp)
      exact absurd tail (by decide)
  | @plain text _ nonempty isPlain =>
    obtain rfl : text = front ++ ':' :: behind := split
    exact Or.inr ⟨isPlain, rfl⟩

/-! ### Runs of colons -/

/-- A run of colons in a text that goes on to neither side. -/
structure ColonRun (text before after : List Char) (count : Nat) : Prop where
  whole : text = before ++ (List.replicate count ':' ++ after)
  positive : 0 < count
  starts : before.getLast? ≠ some ':'
  ends : after.head? ≠ some ':'

/-- None of the characters from an index up to another opens a parameter. -/
def OpensNone (placed : List Placed) (first last : Nat) : Prop :=
  ∀ index, first ≤ index → index < last → ¬ OpensParameter placed index

/-- Behind the colon of a parameter stands an identifier. -/
theorem OpensParameter.exists_head {cursor : Cursor} {placed : List Placed} {index : Nat}
    (lexes : Lexes cursor placed) (opens : OpensParameter placed index) :
    ∃ c, (source placed)[index + 1]? = some c ∧ isHead c := by
  obtain ⟨name, raw, front, position, back, rfl, rfl⟩ := opens
  have fits := lexes.fits.2
  cases fits with
  | parameter identifier =>
    cases name with
    | nil => cases identifier
    | cons c name =>
      refine ⟨c, ?_, (Bool.and_eq_true_iff.mp identifier).1⟩
      simp [source_append, Lexeme.raw]

namespace ColonRun
variable {cursor : Cursor} {placed : List Placed} {before after : List Char} {count : Nat}

/-- Only the last colon of a run can open a parameter, and only in front of an identifier. -/
theorem last_of_opens (run : ColonRun (source placed) before after count)
    (lexes : Lexes cursor placed) {index : Nat} (first : before.length ≤ index)
    (last : index < before.length + count) (opens : OpensParameter placed index) :
    index + 1 = before.length + count ∧ after.head?.any isHead := by
  obtain ⟨c, isChar, head⟩ := opens.exists_head lexes
  rw [run.whole, List.getElem?_append_right (by omega)] at isChar
  by_cases inside : index + 1 < before.length + count
  · rw [List.getElem?_append_left (by rw [List.length_replicate]; omega),
      List.getElem?_replicate, if_pos (by omega)] at isChar
    exact absurd (Option.some.inj isChar).symm (ne_colon_of_isHead head)
  · have same : index + 1 = before.length + count := by omega
    rw [List.getElem?_append_right (by rw [List.length_replicate]; omega),
      List.length_replicate, same, Nat.add_sub_cancel_left, Nat.sub_self,
      ← List.head?_eq_getElem?] at isChar
    exact ⟨same, by simp [isChar, head]⟩

/-- A run in front of an identifier begins with a parameter, or else it begins in plain text. -/
theorem begins (run : ColonRun (source placed) before after count) (lexes : Lexes cursor placed)
    (head : after.head?.any isHead) (clear : Clear placed before.length (before.length + count)) :
    (count = 1 ∧ ∃ name, Begins placed before.length (.token .parameter name (':' :: name)) ∧
      LongestIdentifier name after) ∨
    ∃ front position back text behind,
      placed = front ++ ⟨position, .token .fragment (text ++ behind) (text ++ behind)⟩ :: back ∧
      before = source front ++ text ∧ PlainText behind (source back) ∧
      behind ++ source back = List.replicate count ':' ++ after := by
  obtain ⟨whole, positive, starts, _⟩ := run
  obtain ⟨more, rfl⟩ : ∃ more, count = more + 1 := ⟨count - 1, by omega⟩
  obtain ⟨front, ⟨position, lexeme⟩, back, text, behind, rfl, rfl, isRaw, rest⟩ :=
    exists_lexeme whole
  have fits := lexes.fits.2
  have outside : ¬ (lexeme.form = .string ∨ lexeme.form = .line) := by
    intro inside
    have apart := clear _ lexeme ⟨front, position, back, rfl, rfl⟩ inside
    have size := congrArg List.length isRaw
    simp only [List.length_append, List.length_cons] at apart size
    omega
  obtain ⟨notString, notLine⟩ := not_or.mp outside
  rcases fits.of_colon isRaw notString notLine with ⟨rfl, identifier, -⟩ | ⟨plain, rfl⟩
  · -- the identifier of a parameter begins right behind its colon
    left
    cases more with
    | zero =>
      have opens : lexeme.raw ++ source back = ':' :: after := by
        rw [isRaw]
        exact congrArg (':' :: ·) rest.symm
      obtain ⟨name, rfl, longest⟩ := fits.parameter_of_colon opens head
      exact ⟨rfl, name, ⟨front, position, back, rfl, by simp⟩, longest⟩
    | succ more =>
      cases behind with
      | nil => cases identifier
      | cons c behind =>
        have first := (Bool.and_eq_true_iff.mp identifier).1
        obtain ⟨rfl, _⟩ := List.cons.inj rest
        exact absurd rfl (ne_colon_of_isHead first)
  · right
    have noColon : text.getLast? ≠ some ':' := by
      intro isLast
      exact starts (by simp [List.getLast?_append, isLast])
    refine ⟨front, position, back, text, ':' :: behind, rfl, rfl, plain.of_append noColon, ?_⟩
    exact congrArg (':' :: ·) rest.symm

/-- The last colon of an odd run in front of an identifier opens a parameter. -/
theorem opens_of_odd (run : ColonRun (source placed) before after count)
    (lexes : Lexes cursor placed) (head : after.head?.any isHead)
    (clear : Clear placed before.length (before.length + count)) (odd : count % 2 = 1) :
    ∃ name, Begins placed (before.length + count - 1) (.token .parameter name (':' :: name)) ∧
      LongestIdentifier name after := by
  rcases run.begins lexes head clear with
    ⟨rfl, opens⟩ | ⟨front, position, back, text, behind, rfl, rfl, plain, whole⟩
  · exact opens
  · obtain ⟨rfl, left⟩ := plain.of_odd whole odd head
    cases back with
    | nil => cases left
    | cons piece back =>
      obtain ⟨position', lexeme⟩ := piece
      rw [List.append_cons] at lexes
      obtain ⟨name, rfl, longest⟩ := lexes.fits.2.parameter_of_colon left head
      refine ⟨name, ⟨_, position', back, List.append_cons .., ?_⟩, longest⟩
      have positive := run.positive
      simp only [source_append, source_cons, source_nil, Lexeme.raw, List.length_append,
        List.length_replicate, List.length_nil]
      omega

/-- An even run in front of an identifier opens no parameter: one piece of plain text holds the
run and goes on behind it. -/
theorem plain_of_even (run : ColonRun (source placed) before after count)
    (lexes : Lexes cursor placed) (head : after.head?.any isHead)
    (clear : Clear placed before.length (before.length + count)) (even : count % 2 = 0) :
    OpensNone placed before.length (before.length + count) ∧
      ∃ start text, Begins placed start (.token .fragment text text) ∧ start ≤ before.length ∧
        before.length + count < start + text.length := by
  rcases run.begins lexes head clear with
    ⟨rfl, _⟩ | ⟨front, position, back, text, behind, rfl, rfl, plain, whole⟩
  · cases even
  · have longer := plain.of_even whole even head
    have begins : Begins
        (front ++ ⟨position, .token .fragment (text ++ behind) (text ++ behind)⟩ :: back)
        (source front).length (.token .fragment (text ++ behind) (text ++ behind)) :=
      ⟨front, position, back, rfl, rfl⟩
    constructor
    · intro index first last opens
      obtain ⟨isLast, _⟩ := run.last_of_opens lexes first last opens
      obtain ⟨name, raw, opens⟩ := opens
      have positive := run.positive
      rw [List.length_append] at first isLast
      have apart := begins.add_length_le opens (by omega)
      simp only [Lexeme.raw, List.length_append] at apart
      omega
    · refine ⟨_, _, begins, ?_, ?_⟩
      · simp
      · simp only [List.length_append]
        omega

end ColonRun

/-- How many colons stand in a run outside strings, comments and directives decides what they
mean in front of an identifier: the last one of an odd number opens a parameter, whose name is
the longest identifier there, and an even number belongs to a piece of plain text, together
with what follows it. In front of anything else no colon opens a parameter. -/
theorem colon_runs {text : String} {tokens : List Token} (read : tokenize text = .ok tokens) :
    ∃ placed, lexemes {} text.toList = .ok placed ∧ placed.filterMap Placed.token? = tokens ∧
      ∀ before after count, ColonRun text.toList before after count →
        (after.head?.any isHead → Clear placed before.length (before.length + count) →
          (count % 2 = 1 → ∃ name,
            Begins placed (before.length + count - 1) (.token .parameter name (':' :: name)) ∧
              LongestIdentifier name after) ∧
          (count % 2 = 0 → OpensNone placed before.length (before.length + count) ∧
            ∃ start text, Begins placed start (.token .fragment text text) ∧
              start ≤ before.length ∧ before.length + count < start + text.length)) ∧
        (after.head?.any isHead = false →
          OpensNone placed before.length (before.length + count)) := by
  obtain ⟨placed, whole, lexes, isTokens⟩ := tokenize_eq_ok_iff.mp read
  refine ⟨placed, lexemes_eq_ok_iff.mpr ⟨whole, lexes⟩, isTokens, ?_⟩
  intro before after count run
  rw [← whole] at run
  refine ⟨fun head clear => ⟨?_, ?_⟩, fun other => ?_⟩
  · exact run.opens_of_odd lexes head clear
  · exact run.plain_of_even lexes head clear
  · intro index first last opens
    obtain ⟨_, head⟩ := run.last_of_opens lexes first last opens
    rw [head] at other
    cases other

/-- A parameter behind a cast, and another cast. -/
def casted : String := "x:::a::b"

def castedPieces : List Placed :=
  [ ⟨⟨1, 1⟩, .token .fragment ['x', ':', ':'] ['x', ':', ':']⟩
  , ⟨⟨1, 4⟩, .token .parameter ['a'] [':', 'a']⟩
  , ⟨⟨1, 6⟩, .token .fragment [':', ':', 'b'] [':', ':', 'b']⟩ ]

def castedTokens : List Token :=
  [ ⟨.fragment, "x::", "x::", ⟨1, 1⟩⟩
  , ⟨.parameter, "a", ":a", ⟨1, 4⟩⟩
  , ⟨.fragment, "::b", "::b", ⟨1, 6⟩⟩ ]

/-- The third colon opens a parameter, and the two behind it open none. -/
theorem casted_runs :
    tokenize casted = .ok castedTokens ∧ lexemes {} casted.toList = .ok castedPieces ∧
      (∃ name, Begins castedPieces 3 (.token .parameter name (':' :: name)) ∧
        LongestIdentifier name ['a', ':', ':', 'b']) ∧
      (OpensNone castedPieces 5 7 ∧
        ∃ start text, Begins castedPieces start (.token .fragment text text) ∧
          start ≤ 5 ∧ 7 < start + text.length) := by
  have read : tokenize casted = .ok castedTokens := by decide +kernel
  obtain ⟨placed, isPlaced, _, runs⟩ := colon_runs read
  have pieces : lexemes {} casted.toList = .ok castedPieces := by decide +kernel
  obtain rfl : placed = castedPieces := Except.ok.inj (isPlaced.symm.trans pieces)
  have clear (first last : Nat) : Clear castedPieces first last := by
    rintro _ lexeme ⟨front, position, back, same, _⟩ inside
    have plain : ∀ piece ∈ castedPieces,
        piece.lexeme.form ≠ .string ∧ piece.lexeme.form ≠ .line := by decide +kernel
    have outside := plain ⟨position, lexeme⟩ (by simp [same])
    exact absurd inside (not_or.mpr outside)
  have three : ColonRun casted.toList ['x'] ['a', ':', ':', 'b'] 3 :=
    ⟨by decide, by decide, by decide, by decide⟩
  have two : ColonRun casted.toList ['x', ':', ':', ':', 'a'] ['b'] 2 :=
    ⟨by decide, by decide, by decide, by decide⟩
  have odd := ((runs _ _ _ three).1 (by decide) (clear _ _)).1 (by decide)
  have even := ((runs _ _ _ two).1 (by decide) (clear _ _)).2 (by decide)
  exact ⟨read, pieces, odd, even⟩

end SqlTemplate
