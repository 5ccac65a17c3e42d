import Mathlib.Data.List.TakeWhile
import SqlTemplate.Proofs.Basic
import SqlTemplate.Proofs.Strings

/-!
# What normal forms keep

Outside strings, the normal form of a text is the text with its white space collapsed, up
to white space and semicolons at the end (`visible_normalize`). It closes every string
that the text closes, and has the characters of the text but for white space and
semicolons (`bare_normalize`).
-/

namespace SqlTemplate.Sql
open SqlTemplate.Text

/-! ### The end of a text -/

/-- White space and semicolons only. -/
def Ending (cs : List Char) : Prop := ∀ c ∈ cs, isBlank c ∨ c = ';'

theorem trimEnd_append (cs : List Char) :
    ∃ blanks, trimEnd cs ++ blanks = cs ∧ ∀ c ∈ blanks, isBlank c := by
  refine ⟨(cs.reverse.takeWhile isBlank).reverse, ?_, ?_⟩
  · rw [trimEnd, ← List.reverse_append, List.takeWhile_append_dropWhile, List.reverse_reverse]
  · intro c member
    exact List.mem_takeWhile_imp (List.mem_reverse.mp member)

theorem trimEnd_cons (c : Char) (cs : List Char) :
    trimEnd (c :: cs) = if trimEnd cs = [] ∧ isBlank c then [] else c :: trimEnd cs := by
  unfold trimEnd
  rw [List.reverse_cons, List.dropWhile_append]
  cases rest : cs.reverse.dropWhile isBlank with
  | nil => by_cases blank : isBlank c <;> simp [blank]
  | cons d ds => simp

/-- Text that is shown keeps what stands in front of it. -/
theorem trimEnd_append_shown {cs : List Char} (shown : ∀ c ∈ cs, isBlank c = false)
    (rest : List Char) : trimEnd (cs ++ rest) = cs ++ trimEnd rest := by
  induction cs with
  | nil => rfl
  | cons c cs ih =>
    obtain ⟨first, others⟩ := List.forall_mem_cons.mp shown
    rw [List.cons_append, trimEnd_cons, if_neg (by simp [first]), ih others, List.cons_append]

theorem trimEnd_append_blanks {blanks : List Char} (blank : ∀ c ∈ blanks, isBlank c)
    (cs : List Char) : trimEnd (cs ++ blanks) = trimEnd cs := by
  unfold trimEnd
  rw [List.reverse_append, List.dropWhile_append_of_pos]
  exact fun c member => blank c (List.mem_reverse.mp member)

theorem trimEnd_last_shown (cs : List Char) : ∀ c ∈ (trimEnd cs).getLast?, isBlank c = false := by
  rw [trimEnd, List.getLast?_reverse]
  exact (span_spec cs.reverse).2

theorem trimEnd_of_last_shown {cs : List Char} (shown : ∀ c ∈ cs.getLast?, isBlank c = false) :
    trimEnd cs = cs := by
  obtain ⟨blanks, whole, blank⟩ := trimEnd_append cs
  cases last : blanks.getLast? with
  | none =>
    rw [List.getLast?_eq_none_iff.mp last, List.append_nil] at whole
    exact whole
  | some c =>
    have isLast : c ∈ cs.getLast? := by
      rw [← whole, List.getLast?_append, last]
      rfl
    have isBlank := blank c (List.mem_of_getLast? last)
    rw [shown c isLast] at isBlank
    cases isBlank

theorem dropSemicolon_concat (cs : List Char) : dropSemicolon (cs ++ [';']) = trimEnd cs := by
  simp [dropSemicolon]

theorem dropSemicolon_of_ne {cs : List Char} (other : cs.getLast? ≠ some ';') :
    dropSemicolon cs = cs := by
  simp [dropSemicolon, other]

theorem dropSemicolon_append (cs : List Char) :
    ∃ ending, dropSemicolon cs ++ ending = cs ∧ Ending ending := by
  unfold dropSemicolon
  split
  · next last =>
    obtain ⟨front, rfl⟩ := List.getLast?_eq_some_iff.mp (by simpa using last)
    obtain ⟨blanks, whole, blank⟩ := trimEnd_append front
    refine ⟨blanks ++ [';'], by simp [← List.append_assoc, whole], ?_⟩
    · intro c member
      rcases List.mem_append.mp member with member | member
      · exact Or.inl (blank c member)
      · exact Or.inr (by simpa using member)
  · exact ⟨[], by simp, by simp [Ending]⟩

theorem ne_of_isBlank {c d : Char} (blank : isBlank c) (shown : isBlank d = false) : c ≠ d := by
  rintro rfl
  rw [blank] at shown
  cases shown

theorem Ending.not_mem {cs : List Char} (h : Ending cs) {c : Char} (shown : isBlank c = false)
    (other : c ≠ ';') : c ∉ cs := by
  intro member
  rcases h c member with blank | semicolon
  · exact ne_of_isBlank blank shown rfl
  · exact other semicolon

/-- Without a quote no string is closed. -/
theorem outside_of_after {place : Place} {cs : List Char} (plain : '\'' ∉ cs)
    (closed : place.after cs = .outside) : place = .outside := by
  induction cs generalizing place with
  | nil => exact closed
  | cons c cs ih =>
    obtain ⟨first, rest⟩ := List.ne_and_not_mem_of_not_mem_cons plain
    have next : place.next c = .outside := ih rest closed
    cases place with
    | outside => rfl
    | quoted =>
      simp only [Place.next, beq_iff_eq, Ne.symm first, if_false] at next
      split at next <;> cases next
    | escaped => cases next

theorem Ending.balanced {cs ending : List Char} (h : Ending ending)
    (balanced : Balanced (cs ++ ending)) : Balanced cs := by
  unfold Balanced at balanced
  rw [Place.after_append] at balanced
  exact outside_of_after (h.not_mem (by decide) (by decide)) balanced

/-! ### White space outside strings -/

/-- One space for each run of white space, except at the ends. -/
def collapse (kept gap : Bool) : List Char → List Char
  | [] => []
  | c :: cs =>
    if isBlank c then collapse kept true cs
    else if kept && gap then ' ' :: c :: collapse true false cs
    else c :: collapse true false cs

/-- Squeezing does to the text outside strings what it does to plain text. -/
theorem squeeze_spec {place : Place} {kept gap : Bool}
    (inside : place ≠ .outside → kept = true ∧ gap = false) (cs : List Char) :
    visible place (squeeze place kept gap cs) = collapse kept gap (visible place cs) ∧
      place.after (squeeze place kept gap cs) = place.after cs := by
  induction cs generalizing place kept gap with
  | nil => exact ⟨by simp [squeeze, visible, collapse], rfl⟩
  | cons c cs ih =>
    by_cases out : place = .outside
    · subst out
      by_cases blank : isBlank c
      · have next : Place.outside.next c = .outside :=
          Place.next_of_ne (ne_of_isBlank blank (by decide))
        obtain ⟨seen, ends⟩ := @ih .outside kept true (by simp)
        refine ⟨by simp [squeeze, visible, collapse, blank, next, seen], ?_⟩
        simp [squeeze, blank, next, ends]
      · obtain ⟨seen, ends⟩ := @ih (Place.outside.next c) true false (by simp)
        have space : Place.outside.next ' ' = .outside := rfl
        by_cases both : (kept && gap) = true
        · refine ⟨by simp [squeeze, visible, collapse, blank, both, space, seen], ?_⟩
          simp [squeeze, blank, both, space, ends]
        · refine ⟨by simp [squeeze, visible, collapse, blank, both, seen], ?_⟩
          simp [squeeze, blank, both, ends]
    · obtain ⟨rfl, rfl⟩ := inside out
      obtain ⟨seen, ends⟩ := @ih (place.next c) true false (by simp)
      refine ⟨by simp [squeeze, visible, out, seen], ?_⟩
      simp [squeeze, out, ends]

theorem Balanced.normalize {cs : List Char} (balanced : Balanced cs) : Balanced (normalize cs) := by
  obtain ⟨ending, whole, isEnding⟩ := dropSemicolon_append (squeeze .outside false false cs)
  apply isEnding.balanced
  change Place.outside.after (dropSemicolon (squeeze .outside false false cs) ++ ending) = .outside
  rw [whole, (squeeze_spec (by simp) cs).2]
  exact balanced

/-- Outside strings, a normal form is the text with its white space collapsed, up to white
space and semicolons at the end. -/
theorem visible_normalize (cs : List Char) :
    ∃ ending, Ending ending ∧
      visible .outside (normalize cs) ++ ending = collapse false false (visible .outside cs) := by
  obtain ⟨ending, whole, isEnding⟩ := dropSemicolon_append (squeeze .outside false false cs)
  refine ⟨visible (Place.outside.after (normalize cs)) ending, ?_, ?_⟩
  · intro c member
    exact isEnding c (visible_subset _ _ member)
  · rw [← visible_append, normalize, whole, (squeeze_spec (by simp) cs).1]

/-! ### All but the layout -/

/-- The characters of a text but for white space and semicolons. -/
def bare (cs : List Char) : List Char := cs.filter fun c => !isBlank c && c != ';'

theorem bare_append (a b : List Char) : bare (a ++ b) = bare a ++ bare b := List.filter_append ..

theorem bare_squeeze (place : Place) (kept gap : Bool) (cs : List Char) :
    bare (squeeze place kept gap cs) = bare cs := by
  have space : isBlank ' ' = true := by decide
  unfold bare
  fun_induction squeeze place kept gap cs with
  | case1 => rfl
  | case2 place kept gap c cs skipped ih =>
    have blank : isBlank c = true := (Bool.and_eq_true_iff.mp skipped).2
    simp [blank, ih]
  | case3 place kept gap c cs shown both ih => simp [List.filter_cons, space, ih]
  | case4 place kept gap c cs shown first ih => simp [List.filter_cons, ih]

theorem Ending.bare {cs : List Char} (h : Ending cs) : Sql.bare cs = [] := by
  refine List.filter_eq_nil_iff.mpr ?_
  intro c member
  rcases h c member with blank | rfl
  · simp [blank]
  · simp

theorem bare_normalize (cs : List Char) : bare (normalize cs) = bare cs := by
  obtain ⟨ending, whole, isEnding⟩ := dropSemicolon_append (squeeze .outside false false cs)
  have split := congrArg Sql.bare whole
  rw [bare_append, isEnding.bare, List.append_nil, bare_squeeze] at split
  exact split

end SqlTemplate.Sql
