import SqlTemplate.Proofs.Normal
import SqlTemplate.Sql

/-!
# Placeholders in a text

A placeholder is a dollar sign with the digits that follow it. Normal forms have the same
placeholders outside strings as the text (`numbers_normalize`), but two texts one after
the other have the placeholders of both only if the second does not begin with a digit.
-/

namespace SqlTemplate.Sql
open SqlTemplate.Text

/-! ### Numbers of placeholders in a text -/

/-- The digits that a text begins with. -/
def digits (cs : List Char) : List Char := cs.takeWhile Char.isDigit

/-- What stands behind the dollar signs of a text that digits follow: all of these digits. -/
def numbers : List Char → List String
  | [] => []
  | c :: cs =>
    if c = '$' ∧ digits cs ≠ [] then String.ofList (digits cs) :: numbers cs else numbers cs

/-- Every dollar sign begins a placeholder. -/
def Spelled : List Char → Prop
  | [] => True
  | c :: cs => (c = '$' → digits cs ≠ []) ∧ Spelled cs

/-- The first character that is not white space is a digit. -/
def DigitFirst (cs : List Char) : Prop := (cs.dropWhile isBlank).head?.any Char.isDigit

instance (cs : List Char) : Decidable (DigitFirst cs) := inferInstanceAs (Decidable (_ = true))

theorem not_isDigit_of_isBlank {c : Char} (blank : isBlank c) : c.isDigit = false := by
  rw [Bool.eq_false_iff]
  intro digit
  simp only [Char.isDigit, Bool.and_eq_true, decide_eq_true_eq, UInt32.le_iff_toNat_le] at digit
  have range : 48 ≤ c.toNat ∧ c.toNat ≤ 57 := digit
  simp only [isBlank, Bool.or_eq_true, Bool.and_eq_true, decide_eq_true_eq, beq_iff_eq] at blank
  omega

theorem not_digitFirst_cons {c : Char} (shown : isBlank c = false) (other : c.isDigit = false)
    (cs : List Char) : ¬ DigitFirst (c :: cs) := by
  simp [DigitFirst, shown, other]

theorem digits_of_not_digitFirst {cs : List Char} (other : ¬ DigitFirst cs) : digits cs = [] := by
  cases cs with
  | nil => rfl
  | cons c cs =>
    have notDigit : c.isDigit = false := by
      by_cases blank : isBlank c
      · exact not_isDigit_of_isBlank blank
      · simpa [DigitFirst, blank] using other
    simp [digits, notDigit]

theorem digits_append (a : List Char) {b : List Char} (other : digits b = []) :
    digits (a ++ b) = digits a := by
  induction a with
  | nil => exact other
  | cons c a ih =>
    unfold digits at *
    rw [List.cons_append, List.takeWhile_cons, List.takeWhile_cons, ih]

theorem numbers_append (a : List Char) {b : List Char} (other : digits b = []) :
    numbers (a ++ b) = numbers a ++ numbers b := by
  induction a with
  | nil => rfl
  | cons c a ih =>
    simp only [List.cons_append, numbers, digits_append a other, ih]
    split <;> rfl

theorem numbers_of_no_dollar {cs : List Char} (plain : '$' ∉ cs) : numbers cs = [] := by
  induction cs with
  | nil => rfl
  | cons c cs ih =>
    obtain ⟨first, rest⟩ := List.ne_and_not_mem_of_not_mem_cons plain
    simp [numbers, Ne.symm first, ih rest]

theorem DigitFirst.append {a : List Char} (first : DigitFirst a) (b : List Char) :
    DigitFirst (a ++ b) := by
  unfold DigitFirst at *
  rw [List.dropWhile_append]
  cases shown : a.dropWhile isBlank with
  | nil => simp [shown] at first
  | cons c rest => simpa [shown] using first

theorem DigitFirst.of_append {a b : List Char} (first : DigitFirst (a ++ b)) :
    DigitFirst a ∨ DigitFirst b := by
  unfold DigitFirst at *
  rw [List.dropWhile_append] at first
  cases shown : a.dropWhile isBlank with
  | nil => exact Or.inr (by simpa [shown] using first)
  | cons c rest => exact Or.inl (by simpa [shown] using first)

theorem digits_ne_nil_iff {cs : List Char} : digits cs ≠ [] ↔ cs.head?.any Char.isDigit := by
  cases cs with
  | nil => simp [digits]
  | cons c cs => by_cases digit : c.isDigit <;> simp [digits, digit]

theorem Spelled.append {a b : List Char} (left : Spelled a) (right : Spelled b) :
    Spelled (a ++ b) := by
  induction a with
  | nil => exact right
  | cons c a ih =>
    obtain ⟨first, rest⟩ := left
    refine ⟨?_, ih rest⟩
    intro dollar
    have some := digits_ne_nil_iff.mp (first dollar)
    apply digits_ne_nil_iff.mpr
    cases a with
    | nil => simp at some
    | cons d a => simpa using some

theorem Spelled.of_append {a b : List Char} (whole : Spelled (a ++ b)) (other : digits b = []) :
    Spelled a := by
  induction a with
  | nil => trivial
  | cons c a ih =>
    obtain ⟨first, rest⟩ := whole
    refine ⟨?_, ih rest⟩
    intro dollar
    rw [← digits_append a other]
    exact first dollar

theorem spelled_of_no_dollar {cs : List Char} (plain : '$' ∉ cs) : Spelled cs := by
  induction cs with
  | nil => trivial
  | cons c cs ih =>
    obtain ⟨first, rest⟩ := List.ne_and_not_mem_of_not_mem_cons plain
    exact ⟨fun dollar => absurd dollar.symm first, ih rest⟩

/-! ### Strings and white space -/

theorem digitFirst_visible {cs : List Char} :
    DigitFirst (visible .outside cs) ↔ DigitFirst cs := by
  induction cs with
  | nil => rfl
  | cons c cs ih =>
    by_cases blank : isBlank c
    · have seen := visible_cons (ne_of_isBlank blank (d := '\'') (by decide)) cs
      simpa [DigitFirst, seen, blank] using ih
    · simp [DigitFirst, visible, blank]

theorem SameButQuotes.digits {a b : List Char} (same : SameButQuotes a b) :
    Sql.digits a = Sql.digits b := by
  induction same with
  | nil => rfl
  | char c _ ih =>
    unfold Sql.digits at *
    rw [List.takeWhile_cons, List.takeWhile_cons, ih]
  | quotes quotes _ _ => rfl

theorem numbers_quotes {more : List Char} (quotes : ∀ c ∈ more, c = '\'') (cs : List Char) :
    numbers (more ++ cs) = numbers cs := by
  induction more with
  | nil => rfl
  | cons c more ih =>
    obtain ⟨rfl, rest⟩ := List.forall_mem_cons.mp quotes
    simp [numbers, ih rest]

theorem SameButQuotes.numbers {a b : List Char} (same : SameButQuotes a b) :
    Sql.numbers a = Sql.numbers b := by
  induction same with
  | nil => rfl
  | char c rest ih => simp only [Sql.numbers, rest.digits, ih]
  | quotes quotes _ ih => simp [Sql.numbers, numbers_quotes quotes, ih]

theorem digits_collapse_gap (cs : List Char) : digits (collapse true true cs) = [] := by
  induction cs with
  | nil => rfl
  | cons c cs ih =>
    by_cases blank : isBlank c
    · simpa [collapse, blank] using ih
    · simp [collapse, blank, digits]

theorem digits_collapse (cs : List Char) : digits (collapse true false cs) = digits cs := by
  induction cs with
  | nil => rfl
  | cons c cs ih =>
    by_cases blank : isBlank c
    · simp only [collapse, blank, if_true, digits_collapse_gap]
      simp [digits, not_isDigit_of_isBlank blank]
    · unfold digits at *
      simp [collapse, blank, List.takeWhile_cons, ih]

theorem numbers_collapse (kept gap : Bool) (cs : List Char) :
    numbers (collapse kept gap cs) = numbers cs := by
  induction cs generalizing kept gap with
  | nil => rfl
  | cons c cs ih =>
    by_cases blank : isBlank c
    · have other : c ≠ '$' := ne_of_isBlank blank (by decide)
      simp [collapse, blank, numbers, other, ih]
    · by_cases both : kept && gap
      · simp [collapse, blank, both, numbers, digits_collapse, ih]
      · simp [collapse, blank, both, numbers, digits_collapse, ih]

theorem Spelled.collapse {cs : List Char} (spelled : Spelled cs) (kept gap : Bool) :
    Spelled (Sql.collapse kept gap cs) := by
  induction cs generalizing kept gap with
  | nil => trivial
  | cons c cs ih =>
    obtain ⟨first, rest⟩ := spelled
    have shown : Spelled (c :: Sql.collapse true false cs) := by
      refine ⟨?_, ih rest true false⟩
      rw [digits_collapse]
      exact first
    by_cases blank : isBlank c
    · simpa [Sql.collapse, blank] using ih rest kept true
    · by_cases both : kept && gap
      · have space : Spelled (' ' :: c :: Sql.collapse true false cs) := ⟨by simp, shown⟩
        simpa [Sql.collapse, blank, both] using space
      · simpa [Sql.collapse, blank, both] using shown

theorem count_collapse {d : Char} (shown : isBlank d = false) (kept gap : Bool) (cs : List Char) :
    (collapse kept gap cs).count d = cs.count d := by
  have space : ' ' ≠ d := ne_of_isBlank (by decide) shown
  induction cs generalizing kept gap with
  | nil => rfl
  | cons c cs ih =>
    by_cases blank : isBlank c
    · have other : c ≠ d := ne_of_isBlank blank shown
      simp [collapse, blank, other, ih]
    · by_cases both : kept && gap
      · simp [collapse, blank, both, List.count_cons, space, ih]
      · simp [collapse, blank, both, List.count_cons, ih]

theorem digitFirst_collapse (gap : Bool) (cs : List Char) :
    DigitFirst (collapse false gap cs) ↔ DigitFirst cs := by
  induction cs generalizing gap with
  | nil => rfl
  | cons c cs ih =>
    by_cases blank : isBlank c
    · simpa [DigitFirst, collapse, blank] using ih true
    · simp [DigitFirst, collapse, blank]

theorem Ending.digits {cs : List Char} (h : Ending cs) : Sql.digits cs = [] := by
  cases cs with
  | nil => rfl
  | cons c cs =>
    rcases h c List.mem_cons_self with blank | rfl
    · simp [Sql.digits, not_isDigit_of_isBlank blank]
    · rfl

/-- Normal forms have the same placeholders outside strings, and begin like the text. -/
theorem numbers_normalize (cs : List Char) :
    numbers (visible .outside (normalize cs)) = numbers (visible .outside cs) := by
  obtain ⟨ending, isEnding, whole⟩ := visible_normalize cs
  calc numbers (visible .outside (normalize cs))
    _ = numbers (visible .outside (normalize cs) ++ ending) := by
        have none : '$' ∉ ending := isEnding.not_mem (by decide) (by decide)
        rw [numbers_append _ isEnding.digits, numbers_of_no_dollar none, List.append_nil]
    _ = numbers (visible .outside cs) := by rw [whole, numbers_collapse]

theorem Spelled.normalize {cs : List Char} (spelled : Spelled (visible .outside cs)) :
    Spelled (visible .outside (Sql.normalize cs)) := by
  obtain ⟨ending, isEnding, whole⟩ := visible_normalize cs
  have collapsed := spelled.collapse false false
  rw [← whole] at collapsed
  exact collapsed.of_append isEnding.digits

theorem count_normalize {d : Char} (shown : isBlank d = false) (other : d ≠ ';') (cs : List Char) :
    (visible .outside (normalize cs)).count d = (visible .outside cs).count d := by
  obtain ⟨ending, isEnding, whole⟩ := visible_normalize cs
  have none : ending.count d = 0 := List.count_eq_zero.mpr (isEnding.not_mem shown other)
  calc (visible .outside (normalize cs)).count d
    _ = (visible .outside (normalize cs) ++ ending).count d := by
        rw [List.count_append, none, Nat.add_zero]
    _ = (visible .outside cs).count d := by rw [whole, count_collapse shown]

theorem digitFirst_normalize {cs : List Char} (first : DigitFirst (visible .outside (normalize cs))) :
    DigitFirst (visible .outside cs) := by
  obtain ⟨ending, _, whole⟩ := visible_normalize cs
  have := first.append ending
  rw [whole] at this
  exact (digitFirst_collapse false _).mp this

/-! ### Placeholders -/

theorem isDigit_of_mem_toString {n : Nat} {c : Char} (member : c ∈ (toString n).toList) :
    c.isDigit := by
  have : c ∈ Nat.toDigits 10 n := by simpa [Nat.toList_repr] using member
  exact Nat.isDigit_of_mem_toDigits (by decide) (by decide) this

theorem toList_placeholder (index : UInt32) :
    (placeholder index).toList = '$' :: (toString index.toNat).toList := by
  simp [placeholder]

theorem digits_toString (n : Nat) : digits (toString n).toList = (toString n).toList := by
  refine List.takeWhile_eq_self_iff.mpr ?_
  intro c member
  exact isDigit_of_mem_toString member

/-- A placeholder stands outside strings, all of it. -/
theorem visible_placeholder (index : UInt32) :
    visible .outside (placeholder index).toList = (placeholder index).toList ∧
      Balanced (placeholder index).toList := by
  apply visible_of_no_quote
  rw [toList_placeholder]
  intro member
  rcases List.mem_cons.mp member with dollar | digit
  · exact absurd dollar (by decide)
  · exact absurd (isDigit_of_mem_toString digit) (by decide)

theorem numbers_placeholder (index : UInt32) :
    numbers (placeholder index).toList = [toString index.toNat] := by
  have some : (toString index.toNat).toList ≠ [] := by simp [Nat.toList_repr]
  have noDollar : '$' ∉ (toString index.toNat).toList := by
    intro member
    exact absurd (isDigit_of_mem_toString member) (by decide)
  rw [toList_placeholder, numbers, digits_toString, if_pos ⟨rfl, some⟩,
    numbers_of_no_dollar noDollar, String.ofList_toList]

end SqlTemplate.Sql
