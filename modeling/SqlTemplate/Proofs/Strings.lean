import SqlTemplate.Sql
import SqlTemplate.Lexer

/-!
# Text outside strings

A string of SQL text is what the lexer reads as one: a quote, a body, and the quote that
closes it (`stringBody`). The text outside is what remains once every string is reduced
to a quote (`outside`). Statements are normalized and rewritten by an automaton instead
(`Place`), which leaves a string at the first of two quotes and enters it again at the
second. The two agree on what stands outside, up to quotes.
-/

namespace SqlTemplate.Sql
open SqlTemplate.Text

/-! ### Strings as the lexer reads them -/

/-- The text of a string after the quote that opens it. -/
inductive StringBody : List Char → Prop where
  | close : StringBody ['\'']
  | quotes {body : List Char} : StringBody body → StringBody ('\'' :: '\'' :: body)
  | escaped (c : Char) {body : List Char} : StringBody body → StringBody ('\\' :: c :: body)
  | plain {c : Char} {body : List Char} (notQuote : c ≠ '\'') (notSlash : c ≠ '\\') :
      StringBody body → StringBody (c :: body)

/-- A character is no backslash if it is none before another character and none at the end. -/
theorem ne_slash {c : Char} {cs : List Char} (before : ∀ d ds, c = '\\' → cs = d :: ds → False)
    (last : c = '\\' → cs = [] → False) : c ≠ '\\' := by
  intro slash
  cases cs with
  | nil => exact last slash rfl
  | cons d ds => exact before d ds slash rfl

theorem StringBody.of_stringBody {cs body rest : List Char}
    (h : stringBody cs = some (body, rest)) : StringBody body ∧ rest.head? ≠ some '\'' := by
  fun_induction stringBody cs generalizing body rest with
  | case1 cs ih =>
    obtain ⟨⟨b, r⟩, found, same⟩ := Option.map_eq_some_iff.mp h
    cases same
    exact ⟨(ih found).1.quotes, (ih found).2⟩
  | case2 cs single =>
    cases h
    refine ⟨.close, ?_⟩
    intro again
    cases cs with
    | nil => cases again
    | cons c cs => exact single cs (by simpa using again)
  | case3 c cs ih =>
    obtain ⟨⟨b, r⟩, found, same⟩ := Option.map_eq_some_iff.mp h
    cases same
    exact ⟨(ih found).1.escaped c, (ih found).2⟩
  | case4 => cases h
  | case5 c cs _ notQuote notSlash notLast ih =>
    obtain ⟨⟨b, r⟩, found, same⟩ := Option.map_eq_some_iff.mp h
    cases same
    exact ⟨(ih found).1.plain notQuote (ne_slash notSlash notLast), (ih found).2⟩
  | case6 => cases h

/-- The text after a quote that opens a string which is never closed. -/
inductive Unclosed : List Char → Prop where
  | nil : Unclosed []
  | slash : Unclosed ['\\']
  | quotes {cs : List Char} : Unclosed cs → Unclosed ('\'' :: '\'' :: cs)
  | escaped (c : Char) {cs : List Char} : Unclosed cs → Unclosed ('\\' :: c :: cs)
  | plain {c : Char} {cs : List Char} (notQuote : c ≠ '\'') (notSlash : c ≠ '\\') :
      Unclosed cs → Unclosed (c :: cs)

theorem Unclosed.of_stringBody {cs : List Char} (h : stringBody cs = none) : Unclosed cs := by
  fun_induction stringBody cs with
  | case1 cs ih => exact .quotes (ih (Option.map_eq_none_iff.mp h))
  | case2 => cases h
  | case3 c cs ih => exact .escaped c (ih (Option.map_eq_none_iff.mp h))
  | case4 => exact .slash
  | case5 c cs _ notQuote notSlash notLast ih =>
    exact .plain notQuote (ne_slash notSlash notLast) (ih (Option.map_eq_none_iff.mp h))
  | case6 => exact .nil

/-- A body is read up to its end if no quote follows. -/
theorem StringBody.read {body : List Char} (h : StringBody body) {rest : List Char}
    (follows : rest.head? ≠ some '\'') : stringBody (body ++ rest) = some (body, rest) := by
  induction h with
  | close =>
    cases rest with
    | nil => rfl
    | cons c rest =>
      have other : c ≠ '\'' := by simpa using follows
      simp [stringBody, other]
  | quotes _ ih => simp [stringBody, ih]
  | escaped c _ ih => simp [stringBody, ih]
  | plain notQuote notSlash _ ih => simp [stringBody, notQuote, notSlash, ih]

theorem stringBody_shorter {cs body rest : List Char} (h : stringBody cs = some (body, rest)) :
    rest.length ≤ cs.length := by
  rw [← stringBody_append h, List.length_append]
  omega

/-- The text outside strings, with one quote where a string stands. -/
def outside : List Char → List Char
  | [] => []
  | c :: cs =>
    if c = '\'' then
      match h : stringBody cs with
      | some (_, rest) =>
        have := Nat.lt_succ_of_le (stringBody_shorter h)
        '\'' :: outside rest
      | none => ['\'']
    else c :: outside cs
termination_by cs => cs.length

/-- The strings of a text with their quotes, from left to right. -/
def strings : List Char → List (List Char)
  | [] => []
  | c :: cs =>
    if c = '\'' then
      match h : stringBody cs with
      | some (body, rest) =>
        have := Nat.lt_succ_of_le (stringBody_shorter h)
        (c :: body) :: strings rest
      | none => []
    else strings cs
termination_by cs => cs.length

example : outside "a = 'it''s $1' AND $2".toList = "a = ' AND $2".toList := by cbv

theorem strings_cons {c : Char} (other : c ≠ '\'') (cs : List Char) :
    strings (c :: cs) = strings cs := by
  rw [strings, if_neg other]

theorem strings_quote {cs body rest : List Char} (h : stringBody cs = some (body, rest)) :
    strings ('\'' :: cs) = ('\'' :: body) :: strings rest := by
  rw [strings, if_pos rfl]
  split
  · next found =>
    rw [h] at found
    cases found
    rfl
  · next none =>
    rw [h] at none
    cases none

theorem strings_unclosed {cs : List Char} (h : stringBody cs = none) : strings ('\'' :: cs) = [] := by
  rw [strings, if_pos rfl]
  split
  · next found =>
    rw [h] at found
    cases found
  · rfl

/-! ### Strings as the automaton passes through them -/

/-- The characters that stand outside strings, with every quote that opens one. -/
def visible : Place → List Char → List Char
  | _, [] => []
  | place, c :: cs =>
    if place = .outside then c :: visible (place.next c) cs else visible (place.next c) cs

@[simp] theorem Place.after_cons (place : Place) (c : Char) (cs : List Char) :
    place.after (c :: cs) = (place.next c).after cs := rfl

theorem Place.next_of_ne {c : Char} (other : c ≠ '\'') : Place.outside.next c = .outside := by
  simp [Place.next, other]

theorem visible_cons {c : Char} (other : c ≠ '\'') (cs : List Char) :
    visible .outside (c :: cs) = c :: visible .outside cs := by
  rw [visible, if_pos rfl, Place.next_of_ne other]

theorem visible_append (place : Place) (a b : List Char) :
    visible place (a ++ b) = visible place a ++ visible (place.after a) b := by
  induction a generalizing place with
  | nil => rfl
  | cons c a ih =>
    by_cases out : place = .outside <;> simp [visible, out, ih]

theorem visible_subset (place : Place) (cs : List Char) : visible place cs ⊆ cs := by
  induction cs generalizing place with
  | nil => exact List.Subset.refl _
  | cons c cs ih =>
    unfold visible
    split
    · exact List.cons_subset_cons c (ih _)
    · exact List.subset_cons_of_subset c (ih _)

theorem head?_visible (cs : List Char) : (visible .outside cs).head? = cs.head? := by
  cases cs <;> simp [visible]

/-- A text in which every string is closed. -/
def Balanced (cs : List Char) : Prop := Place.outside.after cs = .outside

theorem Balanced.append {a b : List Char} (left : Balanced a) (right : Balanced b) :
    Balanced (a ++ b) := by
  unfold Balanced at *
  rw [Place.after_append, left, right]

theorem Balanced.visible_append {a : List Char} (balanced : Balanced a) (b : List Char) :
    visible .outside (a ++ b) = visible .outside a ++ visible .outside b := by
  rw [Sql.visible_append, balanced]

/-- A text without quotes is all outside. -/
theorem visible_of_no_quote {cs : List Char} (plain : '\'' ∉ cs) :
    visible .outside cs = cs ∧ Balanced cs := by
  induction cs with
  | nil => exact ⟨rfl, rfl⟩
  | cons c cs ih =>
    obtain ⟨first, rest⟩ := List.ne_and_not_mem_of_not_mem_cons plain
    obtain ⟨same, balanced⟩ := ih rest
    refine ⟨by rw [visible_cons first.symm, same], ?_⟩
    rw [Balanced, Place.after_cons, Place.next_of_ne first.symm]
    exact balanced

/-! ### Both agree -/

/-- The automaton closes a string where the lexer does, and sees nothing but quotes on
the way. -/
theorem StringBody.visible {body : List Char} (h : StringBody body) :
    Place.quoted.after body = .outside ∧ ∀ c ∈ Sql.visible .quoted body, c = '\'' := by
  induction h with
  | close => exact ⟨rfl, by simp [Sql.visible]⟩
  | quotes _ ih => exact ⟨ih.1, by simpa [Sql.visible, Place.next] using ih.2⟩
  | escaped c _ ih => exact ⟨ih.1, by simpa [Sql.visible, Place.next] using ih.2⟩
  | @plain c body notQuote notSlash _ ih =>
    have next : Place.quoted.next c = .quoted := by simp [Place.next, notQuote, notSlash]
    refine ⟨?_, by simpa [Sql.visible, next] using ih.2⟩
    rw [Place.after_cons, next]
    exact ih.1

theorem StringBody.balanced {body : List Char} (h : StringBody body) : Balanced ('\'' :: body) :=
  h.visible.1

/-- In a string that is never closed, the automaton sees nothing but quotes. -/
theorem Unclosed.visible {cs : List Char} (h : Unclosed cs) :
    ∀ c ∈ Sql.visible .quoted cs, c = '\'' := by
  induction h with
  | nil => simp [Sql.visible]
  | slash => simp [Sql.visible]
  | quotes _ ih => simpa [Sql.visible, Place.next] using ih
  | escaped c _ ih => simpa [Sql.visible, Place.next] using ih
  | plain notQuote notSlash _ ih => simpa [Sql.visible, Place.next, notQuote, notSlash] using ih

/-- Texts that differ only in how often a quote is repeated. -/
inductive SameButQuotes : List Char → List Char → Prop where
  | nil : SameButQuotes [] []
  | char (c : Char) {a b : List Char} : SameButQuotes a b → SameButQuotes (c :: a) (c :: b)
  | quotes {more a b : List Char} (quotes : ∀ c ∈ more, c = '\'') :
      SameButQuotes a b → SameButQuotes ('\'' :: a) ('\'' :: (more ++ b))

/-- The lexer and the automaton agree on what stands outside strings. -/
theorem outside_visible (cs : List Char) : SameButQuotes (outside cs) (visible .outside cs) := by
  fun_induction outside cs with
  | case1 => exact .nil
  | case2 cs body rest found _ ih =>
    obtain ⟨string, _⟩ := StringBody.of_stringBody found
    obtain ⟨closed, quotes⟩ := string.visible
    have split := visible_append .quoted body rest
    rw [stringBody_append found, closed] at split
    have seen : visible .outside ('\'' :: cs) = '\'' :: visible .quoted cs := rfl
    rw [seen, split]
    exact .quotes quotes ih
  | case3 cs unclosed =>
    have seen : visible .outside ('\'' :: cs) = '\'' :: (visible .quoted cs ++ []) := by
      rw [List.append_nil]
      rfl
    rw [seen]
    exact .quotes (Unclosed.of_stringBody unclosed).visible .nil
  | case4 c cs other ih =>
    rw [visible_cons other]
    exact .char c ih

theorem SameButQuotes.count {a b : List Char} (same : SameButQuotes a b) {c : Char}
    (notQuote : c ≠ '\'') : a.count c = b.count c := by
  induction same with
  | nil => rfl
  | char d _ ih => simp [List.count_cons, ih]
  | @quotes more a b quotes _ ih =>
    have none : more.count c = 0 := by
      refine List.count_eq_zero.mpr ?_
      intro member
      exact notQuote (quotes c member)
    simp [List.count_cons, List.count_append, ih, none]

theorem SameButQuotes.mem_iff {a b : List Char} (same : SameButQuotes a b) {c : Char}
    (notQuote : c ≠ '\'') : c ∈ a ↔ c ∈ b := by
  rw [← List.count_pos_iff, ← List.count_pos_iff, same.count notQuote]

end SqlTemplate.Sql
