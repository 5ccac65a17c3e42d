import Mathlib.Data.List.TakeWhile
import SqlTemplate.Text

/-!
# Results, runs and identifiers

What the readers of this library have in common: results that fail or go on, runs that are
taken from the front of a list, and identifiers.
-/

namespace SqlTemplate
open SqlTemplate.Text SqlTemplate.Identifier

/-! ### Results -/

theorem Except.bind_eq_ok_iff {ε α β : Type} {x : Except ε α} {f : α → Except ε β} {b : β} :
    x >>= f = .ok b ↔ ∃ a, x = .ok a ∧ f a = .ok b := by
  cases x <;> simp [bind, Except.bind]

theorem Except.bind_eq_error_iff {ε α β : Type} {x : Except ε α} {f : α → Except ε β} {e : ε} :
    x >>= f = .error e ↔ x = .error e ∨ ∃ a, x = .ok a ∧ f a = .error e := by
  cases x <;> simp [bind, Except.bind]

theorem Except.mapError_eq_ok_iff {ε ε' α : Type} {x : Except ε α} {f : ε → ε'} {a : α} :
    x.mapError f = .ok a ↔ x = .ok a := by
  cases x <;> simp [Except.mapError]

theorem Except.map_eq_ok_iff {ε α β : Type} {x : Except ε α} {f : α → β} {b : β} :
    x.map f = .ok b ↔ ∃ a, x = .ok a ∧ f a = b := by
  cases x <;> simp [Except.map]

theorem Except.map_eq_error_iff {ε α β : Type} {x : Except ε α} {f : α → β} {e : ε} :
    x.map f = .error e ↔ x = .error e := by
  cases x <;> simp [Except.map]

/-! ### Runs -/

/-- A run of what has a property is taken from the front of a list if it stops where the
run does. -/
theorem span_append {α : Type} {p : α → Bool} {run rest : List α} (inside : ∀ a ∈ run, p a)
    (stops : ∀ a ∈ rest.head?, p a = false) :
    (run ++ rest).takeWhile p = run ∧ (run ++ rest).dropWhile p = rest := by
  rw [List.takeWhile_append_of_pos inside, List.dropWhile_append_of_pos inside]
  cases rest with
  | nil => simp
  | cons first rest => simp [stops first rfl]

/-- Up to the first element without a property, all have it. -/
theorem span_spec {α : Type} {p : α → Bool} (list : List α) :
    (∀ a ∈ list.takeWhile p, p a) ∧ ∀ a ∈ (list.dropWhile p).head?, p a = false := by
  refine ⟨fun a member => List.mem_takeWhile_imp member, ?_⟩
  intro a isFirst
  have stops := List.head?_dropWhile_not p list
  rw [Option.mem_def.mp isFirst] at stops
  simpa using stops

theorem exists_cons_of_any_head {α : Type} {p : α → Bool} {list : List α}
    (first : list.head?.any p) : ∃ a rest, list = a :: rest ∧ p a := by
  obtain ⟨a, isFirst, holds⟩ := (Option.any_eq_true ..).mp first
  obtain ⟨rest, whole⟩ := List.head?_eq_some_iff.mp isFirst
  exact ⟨a, rest, whole, holds⟩

/-! ### Identifiers -/

theorem isTail_of_isHead {c : Char} (head : isHead c) : isTail c := by
  simp only [isHead, isTail, Bool.or_eq_true] at *
  rcases head with lower | underscore
  · unfold Char.isAlphanum Char.isAlpha
    exact Or.inl (by simp [lower])
  · exact Or.inr underscore

theorem isTail_of_mem {cs : List Char} (identifier : isIdentifier cs) {c : Char} (member : c ∈ cs) :
    isTail c := by
  cases cs with
  | nil => cases member
  | cons first rest =>
    obtain ⟨head, tail⟩ := Bool.and_eq_true_iff.mp identifier
    rcases List.mem_cons.mp member with rfl | member
    · exact isTail_of_isHead head
    · exact List.all_eq_true.mp tail c member

theorem isIdentifier_takeWhile {cs : List Char} (head : cs.head?.any isHead) :
    isIdentifier (cs.takeWhile isTail) := by
  cases cs with
  | nil => simp at head
  | cons c cs =>
    have first : isHead c := by simpa using head
    simp [isTail_of_isHead first, isIdentifier, first]

theorem range_of_isTail {c : Char} (tail : isTail c) :
    (65 ≤ c.toNat ∧ c.toNat ≤ 90 ∨ 97 ≤ c.toNat ∧ c.toNat ≤ 122 ∨ 48 ≤ c.toNat ∧ c.toNat ≤ 57) ∨
      c = '_' := by
  unfold isTail Char.isAlphanum Char.isAlpha Char.isUpper Char.isLower Char.isDigit at tail
  simp only [Bool.or_eq_true, Bool.and_eq_true, decide_eq_true_eq, ge_iff_le,
    UInt32.le_iff_toNat_le, beq_iff_eq] at tail
  simpa [or_assoc] using tail

theorem shown_of_isTail {c : Char} (tail : isTail c) : isBlank c = false := by
  rw [Bool.eq_false_iff]
  intro blank
  rcases range_of_isTail tail with range | rfl
  · simp only [isBlank, Bool.or_eq_true, Bool.and_eq_true, decide_eq_true_eq, beq_iff_eq] at blank
    omega
  · exact absurd blank (by decide)

end SqlTemplate
