import SqlTemplate.Proofs.Basic
import SqlTemplate.Proofs.Strings

/-!
# The rules of lexemes

What may be read at the front of a text is laid down by rules, one for each kind of lexeme
(`Lexeme.Fits`): how the lexeme looks, and what may follow it. The lexer follows these rules
and no others (`Lexeme.read_eq_ok_iff`), so it cuts a text into the one sequence of lexemes
that the rules allow (`lexemes_eq_ok_iff`).
-/

namespace SqlTemplate
open SqlTemplate.Text SqlTemplate.Identifier SqlTemplate.Sql SqlTemplate.Source

/-! ### Plain text -/

/-- Where plain text ends. -/
inductive Stops : List Char → Prop where
  | nil : Stops []
  | blank {c : Char} {cs : List Char} (blank : isBlank c) : Stops (c :: cs)
  | quote {cs : List Char} : Stops ('\'' :: cs)
  | parameter {c : Char} {cs : List Char} (head : isHead c) : Stops (':' :: c :: cs)
  | dashes {cs : List Char} : Stops ('-' :: '-' :: cs)

/-- Plain text in front of a text where it ends. Colons come in pairs or before what begins
no identifier, and dashes come alone. -/
inductive PlainText : List Char → List Char → Prop where
  | stop {rest : List Char} (stops : Stops rest) : PlainText [] rest
  | colons {text rest : List Char} (more : PlainText text rest) :
      PlainText (':' :: ':' :: text) rest
  | colon {text rest : List Char} (single : (text ++ rest).head? ≠ some ':')
      (noHead : (text ++ rest).head?.any isHead = false) (more : PlainText text rest) :
      PlainText (':' :: text) rest
  | dash {text rest : List Char} (single : (text ++ rest).head? ≠ some '-')
      (more : PlainText text rest) : PlainText ('-' :: text) rest
  | char {c : Char} {text rest : List Char} (shown : isBlank c = false) (notQuote : c ≠ '\'')
      (notColon : c ≠ ':') (notDash : c ≠ '-') (more : PlainText text rest) :
      PlainText (c :: text) rest

theorem plainText_spec (cs : List Char) : PlainText (plainText cs).1 (plainText cs).2 := by
  fun_induction plainText cs with
  | case1 cs ih => exact .colons ih
  | case2 cs single head =>
    obtain ⟨c, isFirst, isHead⟩ := (Option.any_eq_true ..).mp head
    obtain ⟨cs, rfl⟩ := List.head?_eq_some_iff.mp isFirst
    exact .stop (.parameter isHead)
  | case3 cs single noHead ih =>
    have whole := plainText_append cs
    change PlainText (':' :: (plainText cs).1) (plainText cs).2
    refine .colon ?_ (by rw [whole]; simpa using noHead) ih
    rw [whole, ne_eq, List.head?_eq_some_iff]
    rintro ⟨ds, rfl⟩
    exact single ds rfl
  | case4 cs double =>
    obtain ⟨cs, rfl⟩ := List.head?_eq_some_iff.mp (by simpa using double)
    exact .stop .dashes
  | case5 cs single ih =>
    have whole := plainText_append cs
    change PlainText ('-' :: (plainText cs).1) (plainText cs).2
    exact .dash (by rw [whole]; simpa using single) ih
  | case6 c cs _ notColon notDash ends =>
    rcases Bool.or_eq_true_iff.mp ends with blank | quote
    · exact .stop (.blank blank)
    · obtain rfl : c = '\'' := by simpa using quote
      exact .stop .quote
  | case7 c cs _ notColon notDash shown ih =>
    simp only [Bool.or_eq_true, beq_iff_eq, not_or, Bool.not_eq_true] at shown
    exact .char shown.1 shown.2 notColon notDash ih
  | case8 => exact .stop .nil

/-- Plain text does not go on where it ends. -/
theorem PlainText.not_stops {text rest : List Char} (h : PlainText text rest)
    (nonempty : text ≠ []) : ¬ Stops (text ++ rest) := by
  intro stops
  cases h with
  | stop => exact nonempty rfl
  | colons more =>
    cases stops with
    | blank blank => exact absurd blank (by decide)
    | parameter head => exact absurd head (by decide)
  | @colon text rest single noHead more =>
    rw [List.cons_append] at stops
    generalize text ++ rest = cs at *
    cases stops with
    | blank blank => exact absurd blank (by decide)
    | parameter head => simp [head] at noHead
  | @dash text rest single more =>
    rw [List.cons_append] at stops
    generalize text ++ rest = cs at *
    cases stops with
    | blank blank => exact absurd blank (by decide)
    | dashes => simp at single
  | @char c text rest shown notQuote notColon notDash more =>
    rw [List.cons_append] at stops
    generalize text ++ rest = cs at *
    cases stops with
    | blank blank => simp [shown] at blank
    | quote => exact notQuote rfl
    | parameter => exact notColon rfl
    | dashes => exact notDash rfl

/-- Of a text, only one part at the front is plain text up to where it ends. -/
theorem PlainText.unique {a b r s : List Char} (left : PlainText a r) (right : PlainText b s)
    (same : a ++ r = b ++ s) : a = b ∧ r = s := by
  have ends {a r : List Char} (left : PlainText a r) (nonempty : a ≠ []) {s : List Char}
      (stops : Stops s) : a ++ r ≠ [] ++ s := by
    rintro same
    exact left.not_stops nonempty (same ▸ stops)
  -- two different rules make opposite demands on the next characters
  induction left generalizing b with
  | stop stops =>
    by_cases empty : b = []
    · subst empty
      exact ⟨rfl, same⟩
    · exact absurd same.symm (ends right empty stops)
  | colons more ih =>
    cases right with
    | stop stops => exact absurd same (ends more.colons (by simp) stops)
    | colons | colon | dash | char => grind
  | colon single noHead more ih =>
    cases right with
    | stop stops => exact absurd same (ends (more.colon single noHead) (by simp) stops)
    | colons | colon | dash | char => grind
  | dash single more ih =>
    cases right with
    | stop stops => exact absurd same (ends (more.dash single) (by simp) stops)
    | colons | colon | dash | char => grind
  | char shown notQuote notColon notDash more ih =>
    cases right with
    | stop stops =>
      exact absurd same (ends (more.char shown notQuote notColon notDash) (by simp) stops)
    | colons | colon | dash | char => grind

theorem PlainText.read {text rest : List Char} (h : PlainText text rest) :
    plainText (text ++ rest) = (text, rest) := by
  obtain ⟨sameText, sameRest⟩ := h.unique (plainText_spec (text ++ rest)) (plainText_append _).symm
  exact Prod.ext sameText.symm sameRest.symm

theorem PlainText.not_mem {text rest : List Char} (h : PlainText text rest) :
    ∀ c ∈ text, isBlank c = false ∧ c ≠ '\'' := by
  have colon : isBlank ':' = false := by decide
  have dash : isBlank '-' = false := by decide
  induction h with
  | stop => simp
  | colons _ ih => simpa [colon] using ih
  | colon _ _ _ ih => simpa [colon] using ih
  | dash _ _ ih => simpa [dash] using ih
  | char shown notQuote _ _ _ ih => simpa [shown, notQuote] using ih

theorem PlainText.no_dashes {text rest : List Char} (h : PlainText text rest) :
    ¬ ['-', '-'] <:+: text := by
  induction h with
  | stop => simp
  | colons _ ih => simpa [List.infix_cons_iff] using ih
  | colon _ _ _ ih => simpa [List.infix_cons_iff] using ih
  | dash single _ ih =>
    rw [List.infix_cons_iff]
    rintro (⟨more, same⟩ | inside)
    · rw [← (List.cons.inj same).2] at single
      exact single rfl
    · exact ih inside
  | char _ _ _ notDash _ ih => simpa [List.infix_cons_iff, notDash.symm] using ih

/-! ### Lines -/

/-- The rest of a line, in front of the end of the line. -/
structure Line (line rest : List Char) : Prop where
  inside : ∀ c ∈ line, isLineBreak c = false
  ends : ∀ c ∈ rest.head?, isLineBreak c

/-- A line says something behind a keyword, in front of which there are only spaces and tabs. -/
def Directive (keyword : String) (line said : List Char) : Prop :=
  ∃ gap, (∀ c ∈ gap, c = ' ' ∨ c = '\t') ∧ line = gap ++ (keyword.toList ++ said)

theorem directive?_eq_some_iff {keyword : String} {line said : List Char}
    (shown : ∃ c ∈ keyword.toList.head?, c ≠ ' ' ∧ c ≠ '\t') :
    directive? keyword line = some said ↔ Directive keyword line said := by
  unfold directive?
  rw [behind?_eq_some_iff]
  constructor
  · intro h
    have whole : line =
        line.takeWhile (fun c => c == ' ' || c == '\t') ++ (keyword.toList ++ said) := by
      rw [← h, List.takeWhile_append_dropWhile]
    refine ⟨_, ?_, whole⟩
    intro c member
    simpa using List.mem_takeWhile_imp member
  · rintro ⟨gap, isGap, rfl⟩
    obtain ⟨c, isFirst, notSpace, notTab⟩ := shown
    obtain ⟨more, keyword_eq⟩ := List.head?_eq_some_iff.mp isFirst
    refine (span_append (p := fun c => c == ' ' || c == '\t') ?_ ?_).2
    · intro c member
      simpa using isGap c member
    · simp [keyword_eq, notSpace, notTab]

/-- What may be read at the front of a text in front of a rest. -/
inductive Lexeme.Fits (leading : Bool) : Lexeme → List Char → Prop where
  | blank {run rest : List Char} (nonempty : run ≠ []) (blank : ∀ c ∈ run, isBlank c)
      (ends : ∀ c ∈ rest.head?, isBlank c = false) :
      Fits leading (.token .fragment [' '] run) rest
  | name {line said rest : List Char} (isLine : Line line rest) (first : leading)
      (directive : Directive "name:" line said) (identifier : isIdentifier (trim said)) :
      Fits leading (.token .name (trim said) ('-' :: '-' :: line)) rest
  | docs {line said rest : List Char} (isLine : Line line rest) (first : leading)
      (directive : Directive "docs:" line said) :
      Fits leading (.token .docs (trim said) ('-' :: '-' :: line)) rest
  | comment {line rest : List Char} (isLine : Line line rest)
      (other : leading → ∀ said, ¬ Directive "name:" line said ∧ ¬ Directive "docs:" line said) :
      Fits leading (.comment ('-' :: '-' :: line)) rest
  | string {body rest : List Char} (isBody : StringBody body) (ends : rest.head? ≠ some '\'') :
      Fits leading (.token .fragment ('\'' :: body) ('\'' :: body)) rest
  | parameter {name rest : List Char} (identifier : isIdentifier name)
      (ends : ∀ c ∈ rest.head?, isTail c = false) :
      Fits leading (.token .parameter name (':' :: name)) rest
  | plain {text rest : List Char} (nonempty : text ≠ []) (isPlain : PlainText text rest) :
      Fits leading (.token .fragment text text) rest

theorem Directive.name_iff {line said : List Char} :
    directive? "name:" line = some said ↔ Directive "name:" line said :=
  directive?_eq_some_iff ⟨'n', rfl, by decide, by decide⟩

theorem Directive.docs_iff {line said : List Char} :
    directive? "docs:" line = some said ↔ Directive "docs:" line said :=
  directive?_eq_some_iff ⟨'d', rfl, by decide, by decide⟩

theorem Directive.not_name {line said : List Char} (docs : Directive "docs:" line said) :
    directive? "name:" line = none := by
  have found := behind?_eq_some_iff.mp (Directive.docs_iff.mpr docs)
  unfold directive?
  rw [found]
  rfl

theorem dashed_fits {leading : Bool} {line rest : List Char} {lexeme : Lexeme}
    (isLine : Line line rest) (h : dashed leading line = .ok lexeme) :
    lexeme.Fits leading rest := by
  unfold dashed at h
  dsimp only at h
  split at h
  · next said found =>
    obtain ⟨first, found⟩ := Option.ite_none_right_eq_some.mp found
    split at h
    · next identifier =>
      cases h
      exact .name isLine first (Directive.name_iff.mp found) identifier
    · cases h
  · next noName =>
    split at h
    · next said found =>
      obtain ⟨first, found⟩ := Option.ite_none_right_eq_some.mp found
      cases h
      exact .docs isLine first (Directive.docs_iff.mp found)
    · next noDocs =>
      cases h
      refine .comment isLine fun first said => ⟨?_, ?_⟩
      · rw [← Directive.name_iff]
        simp [if_pos first] at noName
        simp [noName]
      · rw [← Directive.docs_iff]
        simp [if_pos first] at noDocs
        simp [noDocs]

theorem dashed_comment {leading : Bool} {line : List Char}
    (other : leading → ∀ said, ¬ Directive "name:" line said ∧ ¬ Directive "docs:" line said) :
    dashed leading line = .ok (.comment ('-' :: '-' :: line)) := by
  cases leading with
  | false => rfl
  | true =>
    have noName : directive? "name:" line = none :=
      Option.eq_none_iff_forall_not_mem.mpr fun said found =>
        (other rfl said).1 (Directive.name_iff.mp found)
    have noDocs : directive? "docs:" line = none :=
      Option.eq_none_iff_forall_not_mem.mpr fun said found =>
        (other rfl said).2 (Directive.docs_iff.mp found)
    simp [dashed, noName, noDocs]

theorem Lexeme.read_dashes (leading : Bool) {line rest : List Char} (isLine : Line line rest) :
    Lexeme.read leading '-' ('-' :: (line ++ rest)) = (dashed leading line).map (·, rest) := by
  have notBlank : isBlank '-' = false := by decide
  have inside : ∀ c ∈ line, (!isLineBreak c) = true := by simpa using isLine.inside
  have stops : ∀ c ∈ rest.head?, (!isLineBreak c) = false := by simpa using isLine.ends
  obtain ⟨taken, dropped⟩ := span_append inside stops
  simp [Lexeme.read, notBlank, taken, dropped]

theorem Lexeme.read_plain (leading : Bool) {c : Char} {cs text rest : List Char}
    (goes : ¬ Stops (c :: cs)) (nonempty : text ≠ []) (found : plainText (c :: cs) = (text, rest)) :
    Lexeme.read leading c cs = .ok (.token .fragment text text, rest) := by
  have shown : isBlank c = false := by
    by_contra blank
    exact goes (.blank (by simpa using blank))
  have notDashes : ¬ (c == '-' && cs.head? == some '-') = true := by
    simp only [Bool.and_eq_true, beq_iff_eq, List.head?_eq_some_iff]
    rintro ⟨rfl, more, rfl⟩
    exact goes .dashes
  have notQuote : c ≠ '\'' := by
    rintro rfl
    exact goes .quote
  have notParameter : ¬ (c == ':' && cs.head?.any isHead) = true := by
    simp only [Bool.and_eq_true, beq_iff_eq, Option.any_eq_true, List.head?_eq_some_iff]
    rintro ⟨rfl, head, ⟨more, rfl⟩, isHead⟩
    exact goes (.parameter isHead)
  unfold Lexeme.read
  rw [if_neg (by simp [shown]), if_neg notDashes, if_neg (by simpa using notQuote),
    if_neg notParameter, found]
  obtain ⟨first, text, rfl⟩ := List.exists_cons_of_ne_nil nonempty
  rfl

/-- What the lexer reads follows the rules. -/
theorem Lexeme.read_fits {leading : Bool} {c : Char} {cs rest : List Char} {lexeme : Lexeme}
    (h : Lexeme.read leading c cs = .ok (lexeme, rest)) : lexeme.Fits leading rest := by
  unfold Lexeme.read at h
  split at h
  · next blank =>
    cases h
    refine .blank (by simp) ?_ ?_
    · intro d member
      rcases List.mem_cons.mp member with rfl | member
      · exact blank
      · exact List.mem_takeWhile_imp member
    · exact (span_spec cs).2
  split at h
  · obtain ⟨found, dashes, same⟩ := Except.map_eq_ok_iff.mp h
    cases same
    obtain ⟨inside, ends⟩ := span_spec (p := (!isLineBreak ·)) cs.tail
    exact dashed_fits ⟨by simpa using inside, by simpa using ends⟩ dashes
  split at h
  · next quote =>
    split at h
    · next body rest found =>
      cases h
      obtain rfl : c = '\'' := by simpa using quote
      obtain ⟨isBody, ends⟩ := StringBody.of_stringBody found
      exact .string isBody ends
    · cases h
  split at h
  · next colon =>
    obtain ⟨isColon, head⟩ := Bool.and_eq_true_iff.mp colon
    cases h
    obtain rfl : c = ':' := by simpa using isColon
    exact .parameter (isIdentifier_takeWhile head) (span_spec cs).2
  have plain := plainText_spec (c :: cs)
  split at h
  · cases h
  · next text rest nonempty found =>
    cases h
    rw [found] at plain
    exact .plain nonempty plain

/-- What follows the rules is read. -/
theorem Lexeme.Fits.read {leading : Bool} {c : Char} {cs rest : List Char} {lexeme : Lexeme}
    (fits : lexeme.Fits leading rest) (whole : lexeme.raw ++ rest = c :: cs) :
    Lexeme.read leading c cs = .ok (lexeme, rest) := by
  cases fits with
  | @blank run rest nonempty blank ends =>
    obtain ⟨first, run, rfl⟩ := List.exists_cons_of_ne_nil nonempty
    obtain ⟨rfl, rfl⟩ := List.cons.inj whole
    obtain ⟨isBlank_first, isBlank_run⟩ := List.forall_mem_cons.mp blank
    obtain ⟨taken, dropped⟩ := span_append isBlank_run ends
    simp [Lexeme.read, isBlank_first, taken, dropped]
  | @name line said rest isLine first directive identifier =>
    change '-' :: ('-' :: (line ++ rest)) = c :: cs at whole
    obtain ⟨rfl, rfl⟩ := List.cons.inj whole
    rw [Lexeme.read_dashes leading isLine]
    simp [dashed, first, Directive.name_iff.mpr directive, identifier, Except.map]
  | @docs line said rest isLine first directive =>
    change '-' :: ('-' :: (line ++ rest)) = c :: cs at whole
    obtain ⟨rfl, rfl⟩ := List.cons.inj whole
    rw [Lexeme.read_dashes leading isLine]
    simp [dashed, first, directive.not_name, Directive.docs_iff.mpr directive, Except.map]
  | @comment line rest isLine other =>
    change '-' :: ('-' :: (line ++ rest)) = c :: cs at whole
    obtain ⟨rfl, rfl⟩ := List.cons.inj whole
    rw [Lexeme.read_dashes leading isLine]
    rw [dashed_comment other]
    rfl
  | @string body rest isBody ends =>
    obtain ⟨rfl, rfl⟩ := List.cons.inj whole
    have notBlank : isBlank '\'' = false := by decide
    simp [Lexeme.read, notBlank, isBody.read ends]
  | @parameter name rest identifier ends =>
    obtain ⟨rfl, rfl⟩ := List.cons.inj whole
    have notBlank : isBlank ':' = false := by decide
    obtain ⟨taken, dropped⟩ := span_append (fun _ => isTail_of_mem identifier) ends
    have nonempty : name ≠ [] := by
      rintro rfl
      cases identifier
    obtain ⟨first, name, rfl⟩ := List.exists_cons_of_ne_nil nonempty
    have head := (Bool.and_eq_true_iff.mp identifier).1
    simp_all [Lexeme.read]
  | @plain text rest nonempty isPlain =>
    change text ++ rest = c :: cs at whole
    have goes := whole ▸ isPlain.not_stops nonempty
    have found := isPlain.read
    rw [whole] at found
    exact Lexeme.read_plain leading goes nonempty found

theorem Lexeme.read_eq_ok_iff {leading : Bool} {c : Char} {cs rest : List Char} {lexeme : Lexeme} :
    Lexeme.read leading c cs = .ok (lexeme, rest) ↔
      lexeme.raw ++ rest = c :: cs ∧ lexeme.Fits leading rest :=
  ⟨fun h => ⟨Lexeme.read_append h, Lexeme.read_fits h⟩, fun ⟨whole, fits⟩ => fits.read whole⟩

/-! ### The lexemes of a whole text -/

/-- The text that lexemes make up. -/
def source (placed : List Placed) : List Char := placed.flatMap (·.lexeme.raw)

@[simp] theorem source_nil : source [] = [] := rfl

@[simp] theorem source_cons (position : Position) (lexeme : Lexeme) (more : List Placed) :
    source (⟨position, lexeme⟩ :: more) = lexeme.raw ++ source more := rfl

theorem source_append (placed more : List Placed) :
    source (placed ++ more) = source placed ++ source more :=
  List.flatMap_append ..

/-- Lexemes one after the other, each by the rules of the place where it stands. -/
inductive Lexes : Cursor → List Placed → Prop where
  | nil (cursor : Cursor) : Lexes cursor []
  | cons {cursor : Cursor} {lexeme : Lexeme} {more : List Placed}
      (fits : lexeme.Fits cursor.leading (source more))
      (rest : Lexes (cursor.advance lexeme.raw (source more)) more) :
      Lexes cursor (⟨cursor.position, lexeme⟩ :: more)

theorem Lexeme.Fits.raw_ne_nil {leading : Bool} {rest : List Char} {lexeme : Lexeme}
    (fits : lexeme.Fits leading rest) : lexeme.raw ≠ [] := by
  cases fits with
  | blank nonempty => exact nonempty
  | plain nonempty => exact nonempty
  | name | docs | comment | string | parameter => exact List.cons_ne_nil _ _

/-- The lexer cuts a text into the lexemes that the rules allow. -/
theorem lexemes_eq_ok_iff {cursor : Cursor} {cs : List Char} {placed : List Placed} :
    lexemes cursor cs = .ok placed ↔ source placed = cs ∧ Lexes cursor placed := by
  fun_induction lexemes cursor cs generalizing placed with
  | case1 cursor =>
    constructor
    · rintro ⟨⟩
      exact ⟨rfl, .nil cursor⟩
    · rintro ⟨whole, lexes⟩
      cases lexes with
      | nil => rfl
      | cons fits => exact absurd (List.append_eq_nil_iff.mp whole).1 fits.raw_ne_nil
  | case2 cursor c cs fault found =>
    simp only [reduceCtorEq, false_iff, not_and]
    rintro whole lexes
    cases lexes with
    | nil => cases whole
    | cons fits =>
      rw [fits.read whole] at found
      cases found
  | case3 cursor c cs lexeme rest found _ ih =>
    rw [Except.map_eq_ok_iff]
    constructor
    · rintro ⟨more, read, rfl⟩
      obtain ⟨rfl, lexes⟩ := ih.mp read
      exact ⟨Lexeme.read_append found, .cons (Lexeme.read_fits found) lexes⟩
    · rintro ⟨whole, lexes⟩
      cases lexes with
      | nil => cases whole
      | @cons _ other more fits lexes =>
        rw [fits.read whole] at found
        cases found
        exact ⟨more, ih.mpr ⟨rfl, lexes⟩, rfl⟩

theorem tokenize_eq_ok_iff {text : String} {tokens : List Token} :
    tokenize text = .ok tokens ↔ ∃ placed, source placed = text.toList ∧ Lexes {} placed ∧
      placed.filterMap Placed.token? = tokens := by
  simp only [tokenize, Except.map_eq_ok_iff, lexemes_eq_ok_iff, and_assoc]

end SqlTemplate
