import SqlTemplate.Proofs.Layout
import SqlTemplate.Proofs.Quotation

/-!
# Normal forms word by word

White space outside strings cuts a text into words, which hold characters that are shown and
complete strings (`Worded`). Where all strings of a text are closed, its normal form consists
of the same words, with one space between any two of them; a semicolon that is the last
character shown is dropped before that (`Dropped`). Any text at all has its final normal form
after one round, unless that leaves another semicolon at the end (`normalize_normalize`).
-/

namespace SqlTemplate.Sql
open SqlTemplate.Text

/-! ### Words -/

/-- Text without white space outside strings. -/
inductive Dense : List Char → Prop where
  | nil : Dense []
  | shown {c : Char} {cs : List Char} (notQuote : c ≠ '\'') (shown : isBlank c = false)
      (rest : Dense cs) : Dense (c :: cs)
  | string {body cs : List Char} (isBody : StringBody body) (rest : Dense cs) :
      Dense ('\'' :: (body ++ cs))

/-- A text as its words, with white space between any two of them, and at the ends of the
text or not. -/
inductive Worded : List (List Char) → List Char → Prop where
  | blank {gap : List Char} (blank : ∀ c ∈ gap, isBlank c) : Worded [] gap
  | word {gap word text : List Char} {words : List (List Char)} (blank : ∀ c ∈ gap, isBlank c)
      (nonempty : word ≠ []) (dense : Dense word) (apart : ∀ c ∈ text.head?, isBlank c)
      (rest : Worded words text) : Worded (word :: words) (gap ++ (word ++ text))

/-- A text without the last character that it shows, if that is a semicolon, and without the
white space behind it. -/
inductive Dropped : List Char → List Char → Prop where
  | semicolon {front blanks : List Char} (blank : ∀ c ∈ blanks, isBlank c) :
      Dropped (front ++ ';' :: blanks) front
  | none {text : List Char} (other : ∀ front blanks, (∀ c ∈ blanks, isBlank c) →
      text ≠ front ++ ';' :: blanks) : Dropped text text

theorem Dense.append {a b : List Char} (first : Dense a) (second : Dense b) : Dense (a ++ b) := by
  induction first with
  | nil => exact second
  | shown notQuote shown _ ih => exact .shown notQuote shown ih
  | string isBody _ ih =>
    rw [List.cons_append, List.append_assoc]
    exact .string isBody ih

theorem Dense.head?_shown {word : List Char} (dense : Dense word) :
    ∀ c ∈ word.head?, isBlank c = false := by
  rintro c isFirst
  cases dense with
  | nil => cases isFirst
  | shown _ shown _ =>
    cases isFirst
    exact shown
  | string =>
    cases isFirst
    exact shown_quote

/-- Further characters at the front of a text belong to its first word, or are one. -/
theorem Worded.cons_dense {unit text : List Char} {words : List (List Char)} (nonempty : unit ≠ [])
    (dense : Dense unit) (worded : Worded words text) : ∃ words, Worded words (unit ++ text) := by
  by_cases apart : ∀ c ∈ text.head?, isBlank c
  · exact ⟨unit :: words, .word (List.forall_mem_nil _) nonempty dense apart worded⟩
  · cases worded with
    | blank blank => exact absurd (fun c isFirst => blank c (List.mem_of_head? isFirst)) apart
    | @word gap word text words blank _ denseWord apart' rest =>
      cases gap with
      | nil =>
        have whole : Dense (unit ++ word) := dense.append denseWord
        refine ⟨(unit ++ word) :: words, ?_⟩
        rw [List.nil_append, ← List.append_assoc]
        exact .word (List.forall_mem_nil _) (by simp [nonempty]) whole apart' rest
      | cons c gap =>
        refine absurd ?_ apart
        rintro _ ⟨⟩
        exact blank c List.mem_cons_self

theorem Worded.cons_blank {c : Char} {text : List Char} {words : List (List Char)} (blank : isBlank c)
    (worded : Worded words text) : Worded words (c :: text) := by
  cases worded with
  | blank rest => exact .blank (List.forall_mem_cons.mpr ⟨blank, rest⟩)
  | @word gap word text words rest nonempty dense apart more =>
    have all : ∀ d ∈ c :: gap, isBlank d := List.forall_mem_cons.mpr ⟨blank, rest⟩
    exact .word all nonempty dense apart more

/-- Every text that can be read has words. -/
theorem Reading.exists_words {text : List Char} {found : List (List Char)}
    (reading : Reading text found) : ∃ words, Worded words text := by
  induction reading with
  | nil => exact ⟨[], .blank (List.forall_mem_nil _)⟩
  | @plain c cs found notQuote _ ih =>
    obtain ⟨words, worded⟩ := ih
    by_cases blank : isBlank c
    · exact ⟨words, worded.cons_blank blank⟩
    · exact worded.cons_dense (by simp) (.shown notQuote (by simpa using blank) .nil)
  | @string body cs found isBody _ ih =>
    obtain ⟨words, worded⟩ := ih
    have dense : Dense ('\'' :: (body ++ [])) := .string isBody .nil
    rw [List.append_nil] at dense
    exact worded.cons_dense (by simp) dense

/-! ### Words are what is kept -/

theorem squeeze_blanks {gap : List Char} (blank : ∀ c ∈ gap, isBlank c) (kept skipped : Bool)
    (rest : List Char) : squeeze .outside kept skipped (gap ++ rest) =
      squeeze .outside kept (skipped || !gap.isEmpty) rest := by
  induction gap generalizing skipped with
  | nil => simp
  | cons c gap ih =>
    obtain ⟨first, others⟩ := List.forall_mem_cons.mp blank
    rw [List.cons_append, squeeze, if_pos (by simp [first]), ih others]
    simp

theorem Dense.squeeze_eq {word : List Char} (dense : Dense word) (rest : List Char) :
    squeeze .outside true false (word ++ rest) = word ++ squeeze .outside true false rest := by
  induction dense with
  | nil => rfl
  | shown notQuote shown _ ih =>
    rw [List.cons_append, squeeze_shown shown, Place.next_of_ne notQuote, ih]
    rfl
  | string isBody _ ih =>
    rw [List.cons_append, List.append_assoc, squeeze_string isBody, ih]
    simp [dueSpace]

/-- A space is due in front of a word if white space stands between it and another. -/
theorem Dense.squeeze_word {word : List Char} (dense : Dense word) (nonempty : word ≠ [])
    (kept gap : Bool) (rest : List Char) : squeeze .outside kept gap (word ++ rest) =
      dueSpace kept gap ++ (word ++ squeeze .outside true false rest) := by
  cases dense with
  | nil => exact absurd rfl nonempty
  | shown notQuote shown dense =>
    rw [List.cons_append, squeeze_shown shown, Place.next_of_ne notQuote, dense.squeeze_eq]
    rfl
  | string isBody dense =>
    rw [List.cons_append, List.append_assoc, squeeze_string isBody, dense.squeeze_eq]
    simp

/-- Behind a word, every further one follows a space. -/
theorem Worded.squeeze_behind {words : List (List Char)} {text : List Char}
    (worded : Worded words text) (apart : ∀ c ∈ text.head?, isBlank c) :
    squeeze .outside true false text = words.flatMap (' ' :: ·) := by
  induction worded with
  | blank blank =>
    have skipped := squeeze_blanks blank true false []
    rwa [List.append_nil] at skipped
  | @word gap word text words blank nonempty dense apart' _ ih =>
    have some : gap ≠ [] := by
      rintro rfl
      obtain ⟨c, word, rfl⟩ := List.exists_cons_of_ne_nil nonempty
      have shown := dense.head?_shown c rfl
      rw [apart c rfl] at shown
      cases shown
    rw [squeeze_blanks blank, dense.squeeze_word nonempty, ih apart']
    simp [dueSpace, some]

theorem intercalate_space_cons (word : List Char) (words : List (List Char)) :
    [' '].intercalate (word :: words) = word ++ words.flatMap (' ' :: ·) := by
  induction words generalizing word with
  | nil => simp
  | cons next words ih =>
    rw [List.intercalate_cons_cons, ih]
    simp

theorem Worded.squeeze_eq {words : List (List Char)} {text : List Char} (worded : Worded words text) :
    squeeze .outside false false text = [' '].intercalate words := by
  cases worded with
  | blank blank =>
    have skipped := squeeze_blanks blank false false []
    rwa [List.append_nil] at skipped
  | word blank nonempty dense apart rest =>
    rw [squeeze_blanks blank, dense.squeeze_word nonempty, rest.squeeze_behind apart,
      intercalate_space_cons]
    simp [dueSpace]

/-! ### The two ends -/

/-- White space in front of the first character that is shown leaves no space. -/
theorem squeeze_head_shown (gap : Bool) (cs : List Char) :
    ∀ c ∈ (squeeze .outside false gap cs).head?, isBlank c = false := by
  induction cs generalizing gap with
  | nil => simp [squeeze]
  | cons c cs ih =>
    by_cases blank : isBlank c
    · rw [squeeze, if_pos (by simp [blank])]
      exact ih true
    · rw [squeeze_shown (by simpa using blank)]
      simpa [dueSpace] using blank

/-- Where the last string is closed, the last character that is kept is the last one shown. -/
theorem getLast?_squeeze {place : Place} {kept gap : Bool} {cs : List Char}
    (closed : place.after cs = .outside) :
    (squeeze place kept gap cs).getLast? = (trimEnd cs).getLast? := by
  induction cs generalizing place kept gap with
  | nil => rfl
  | cons c cs ih =>
    rw [trimEnd_cons]
    by_cases skipped : (place == .outside && isBlank c) = true
    · obtain ⟨out, blank⟩ := Bool.and_eq_true_iff.mp skipped
      obtain rfl := eq_of_beq out
      rw [Place.after_cons, Place.next_of_ne (ne_of_isBlank blank shown_quote)] at closed
      rw [squeeze, if_pos skipped, ih closed]
      by_cases rest : trimEnd cs = []
      · simp [rest, blank]
      · simp [rest, List.getLast?_cons_of_ne_nil rest]
    · have ends : ¬ (trimEnd cs = [] ∧ isBlank c) := by
        rintro ⟨rest, blank⟩
        -- what is behind `c` is blank, so it closes no string
        obtain ⟨blanks, whole, allBlank⟩ := trimEnd_append cs
        rw [rest, List.nil_append] at whole
        subst whole
        have all : ∀ d ∈ c :: blanks, isBlank d := List.forall_mem_cons.mpr ⟨blank, allBlank⟩
        have plain : '\'' ∉ c :: blanks := by
          intro member
          have quote := all _ member
          rw [shown_quote] at quote
          cases quote
        rw [outside_of_after plain closed] at skipped
        exact skipped (by simp [blank])
      have behind : (squeeze (place.next c) true false cs).getLast? = (trimEnd cs).getLast? :=
        ih closed
      rw [squeeze, if_neg skipped, if_neg ends]
      split <;> simp [List.getLast?_cons, behind]

/-! ### A semicolon at the end -/

/-- A semicolon that nothing but white space follows is kept last. -/
theorem squeeze_semicolon {front blanks : List Char} (closed : Balanced front)
    (blank : ∀ c ∈ blanks, isBlank c) : ∃ gap, (∀ c ∈ gap, isBlank c) ∧
      squeeze .outside false false (front ++ ';' :: blanks) =
        squeeze .outside false false front ++ gap ++ [';'] := by
  obtain ⟨squeezed, kept, gap, whole⟩ := squeeze_append .outside false false front
  have closed : Place.outside.after front = .outside := closed
  have behind : squeeze .outside true false blanks = [] := by
    have skipped := squeeze_blanks blank true false []
    rwa [List.append_nil] at skipped
  have alone : squeeze .outside false false front = squeezed := by
    have nothing := whole []
    rwa [List.append_nil, squeeze, List.append_nil] at nothing
  refine ⟨dueSpace kept gap, ?_, ?_⟩
  · unfold dueSpace
    split
    · exact List.forall_mem_singleton.mpr (by decide)
    · exact List.forall_mem_nil _
  · rw [whole, alone, closed, squeeze_shown (by decide), Place.next_of_ne (by decide), behind,
      List.append_assoc]

theorem Dropped.balanced {text front : List Char} (dropped : Dropped text front)
    (balanced : Balanced text) : Balanced front := by
  cases dropped with
  | none => exact balanced
  | @semicolon front blanks blank =>
    have isEnding : Ending (';' :: blanks) :=
      List.forall_mem_cons.mpr ⟨Or.inr rfl, fun c member => Or.inl (blank c member)⟩
    exact isEnding.balanced balanced

/-- The normal form of a text is what is kept once a last semicolon is dropped. -/
theorem Dropped.normalize_eq {text front : List Char} (dropped : Dropped text front)
    (balanced : Balanced text) : normalize text = squeeze .outside false false front := by
  have closed := dropped.balanced balanced
  have last_shown : ∀ c ∈ (squeeze .outside false false front).getLast?, isBlank c = false := by
    rw [getLast?_squeeze closed]
    exact trimEnd_last_shown front
  cases dropped with
  | @semicolon front blanks blank =>
    obtain ⟨gap, isGap, whole⟩ := squeeze_semicolon closed blank
    rw [normalize, whole, dropSemicolon_concat, trimEnd_append_blanks isGap,
      trimEnd_of_last_shown last_shown]
  | none other =>
    refine dropSemicolon_of_ne ?_
    rw [getLast?_squeeze closed]
    intro last
    obtain ⟨blanks, whole, blank⟩ := trimEnd_append text
    obtain ⟨front, isFront⟩ := List.getLast?_eq_some_iff.mp last
    rw [isFront, List.append_assoc] at whole
    exact other front blanks blank whole.symm

theorem exists_dropped (text : List Char) : ∃ front, Dropped text front := by
  by_cases other : ∀ front blanks, (∀ c ∈ blanks, isBlank c) → text ≠ front ++ ';' :: blanks
  · exact ⟨text, .none other⟩
  · push Not at other
    obtain ⟨front, blanks, blank, rfl⟩ := other
    exact ⟨front, .semicolon blank⟩

/-! ### Normal forms of normal forms -/

/-- What is kept of a text is kept again, and so is any front part of it that does not end
with white space. -/
theorem squeeze_front {place : Place} {kept gap : Bool} (inside : place ≠ .outside → gap = false)
    {cs front rest : List Char} (whole : squeeze place kept gap cs = front ++ rest)
    (ends : rest = [] ∨ ∀ c ∈ front.getLast?, isBlank c = false) :
    squeeze place kept false front = front := by
  have inner {c : Char} {front : List Char}
      (ends : rest = [] ∨ ∀ d ∈ (c :: front).getLast?, isBlank d = false) :
      rest = [] ∨ ∀ d ∈ front.getLast?, isBlank d = false := by
    refine ends.imp_right fun shown d isLast => shown d ?_
    rw [List.getLast?_cons, Option.mem_def.mp isLast]
    rfl
  induction cs generalizing place kept gap front with
  | nil =>
    obtain ⟨rfl, _⟩ := List.append_eq_nil_iff.mp whole.symm
    rfl
  | cons c cs ih =>
    rw [squeeze] at whole
    split at whole
    · next skipped =>
      obtain ⟨out, _⟩ := Bool.and_eq_true_iff.mp skipped
      exact ih (fun within => absurd (eq_of_beq out) within) whole ends
    · next shown =>
      -- what was kept begins with `c`, or with a space and `c`
      have step {front : List Char}
          (behind : squeeze (place.next c) true false cs = front ++ rest)
          (ends : rest = [] ∨ ∀ d ∈ (c :: front).getLast?, isBlank d = false) :
          squeeze (place.next c) true false front = front :=
        ih (fun _ => rfl) behind (inner ends)
      split at whole
      · next due =>
        obtain rfl : place = .outside := by
          by_contra within
          rw [inside within, Bool.and_false] at due
          cases due
        obtain ⟨rfl, _⟩ := Bool.and_eq_true_iff.mp due
        rcases front with - | ⟨space, - | ⟨first, front⟩⟩
        · rfl
        · obtain ⟨rfl, rfl⟩ := List.cons.inj whole
          rcases ends with none | shown
          · cases none
          · cases shown ' ' rfl
        · obtain ⟨rfl, second⟩ := List.cons.inj whole
          obtain ⟨rfl, behind⟩ := List.cons.inj second
          rw [squeeze, if_pos (by decide), squeeze_shown (by simpa using shown),
            step behind (inner ends)]
          rfl
      · rcases front with - | ⟨first, front⟩
        · rfl
        · obtain ⟨rfl, behind⟩ := List.cons.inj whole
          rw [squeeze, if_neg shown, if_neg (by simp), step behind ends]

/-- One round is enough, unless another semicolon comes to stand at the end. -/
theorem normalize_normalize {cs : List Char} (ends : (normalize cs).getLast? ≠ some ';') :
    normalize (normalize cs) = normalize cs := by
  obtain ⟨rest, whole, last⟩ : ∃ rest, squeeze .outside false false cs = normalize cs ++ rest ∧
      (rest = [] ∨ ∀ c ∈ (normalize cs).getLast?, isBlank c = false) := by
    by_cases last : (squeeze .outside false false cs).getLast? = some ';'
    · obtain ⟨front, isFront⟩ := List.getLast?_eq_some_iff.mp last
      obtain ⟨blanks, whole, _⟩ := trimEnd_append front
      have normal : normalize cs = trimEnd front := by
        rw [normalize, isFront, dropSemicolon_concat]
      refine ⟨blanks ++ [';'], ?_, Or.inr ?_⟩
      · rw [normal, isFront, ← List.append_assoc, whole]
      · rw [normal]
        exact trimEnd_last_shown front
    · exact ⟨[], by rw [normalize, dropSemicolon_of_ne last, List.append_nil], Or.inl rfl⟩
  have again := squeeze_front (by simp) whole last
  calc normalize (normalize cs)
    _ = dropSemicolon (normalize cs) := congrArg dropSemicolon again
    _ = normalize cs := dropSemicolon_of_ne ends

theorem toList_normalizeText (text : String) :
    (normalizeText text).toList = normalize text.toList := String.toList_ofList ..

theorem normalizeText_normalizeText {text : String}
    (ends : (normalizeText text).toList.getLast? ≠ some ';') :
    normalizeText (normalizeText text) = normalizeText text := by
  rw [toList_normalizeText] at ends
  rw [normalizeText, toList_normalizeText, normalize_normalize ends]
  rfl

end SqlTemplate.Sql

namespace SqlTemplate
open SqlTemplate.Sql SqlTemplate.Text

/-- Where all strings of a text are closed, the normal form keeps them and consists of the
words of the text with one space between any two of them, once a semicolon is dropped that is
the last character shown. So no white space is left at its ends. The normal form of any text
at all is in normal form, unless another semicolon stands at its end. -/
theorem normalizeText_words (text : String) :
    (∀ quoted, Reading text.toList quoted →
      Reading (normalizeText text).toList quoted ∧
      (∃ front, Dropped text.toList front ∧ (∃ words, Worded words front) ∧
        ∀ words, Worded words front → (normalizeText text).toList = [' '].intercalate words) ∧
      (∀ c ∈ (normalizeText text).toList.head?, isBlank c = false) ∧
      ∀ c ∈ (normalizeText text).toList.getLast?, isBlank c = false) ∧
    ((normalizeText text).toList.getLast? ≠ some ';' →
      normalizeText (normalizeText text) = normalizeText text) := by
  refine ⟨?_, normalizeText_normalizeText⟩
  intro quoted reading
  rw [toList_normalizeText]
  obtain ⟨front, dropped⟩ := exists_dropped text.toList
  have closed := dropped.balanced reading.balanced
  have kept := dropped.normalize_eq reading.balanced
  refine ⟨reading.normalize, ⟨front, dropped, (reading_strings closed).exists_words, ?_⟩, ?_, ?_⟩
  · intro words worded
    rw [kept, worded.squeeze_eq]
  · rw [kept]
    exact squeeze_head_shown false front
  · rw [kept, getLast?_squeeze closed]
    exact trimEnd_last_shown front

/-- A text with a string, white space of several kinds and two semicolons. -/
def spread : String := "\n SELECT\t 'a  ; b' \u2003,x\n ; "

theorem spread_words :
    normalizeText spread = "SELECT 'a  ; b' ,x" ∧
      Reading (normalizeText spread).toList (strings spread.toList) ∧
      (∃ front, Dropped spread.toList front ∧ (∃ words, Worded words front) ∧
        ∀ words, Worded words front → (normalizeText spread).toList = [' '].intercalate words) ∧
      normalizeText (normalizeText spread) = normalizeText spread := by
  have normal : normalizeText spread = "SELECT 'a  ; b' ,x" := by decide +kernel
  have balanced : Balanced spread.toList := by rfl
  obtain ⟨read, final⟩ := normalizeText_words spread
  obtain ⟨reading, words, _⟩ := read _ (reading_strings balanced)
  exact ⟨normal, reading, words, final (by rw [normal]; decide)⟩

end SqlTemplate
