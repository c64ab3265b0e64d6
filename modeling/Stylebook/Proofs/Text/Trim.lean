import Mathlib.Data.List.DropRight
import Stylebook.Text

/-!
What trimming leaves of a text: a part of it that neither begins nor ends with a blank,
between blanks. A text of that kind is left as it is.
-/

namespace Stylebook.Text

theorem ne_of_blank {character : Char} (blank : isBlank character = true)
    (visible : Char) (notBlank : isBlank visible = false) : character ≠ visible := by
  intro equal
  rw [← equal, blank] at notBlank
  cases notBlank

/-- A text that neither begins nor ends with a blank. The empty text does neither. -/
structure IsTrimmed (text : List Char) : Prop where
  first : ∀ character ∈ text.head?, isBlank character = false
  last : ∀ character ∈ text.getLast?, isBlank character = false

instance (text : List Char) : Decidable (IsTrimmed text) :=
  decidable_of_iff
    (text.head?.all (fun character => !isBlank character) = true ∧
      text.getLast?.all (fun character => !isBlank character) = true)
    (by
      simp only [Option.all_eq_true, Bool.not_eq_eq_eq_not, Bool.not_true]
      exact ⟨fun ⟨first, last⟩ => ⟨first, last⟩, fun ⟨first, last⟩ => ⟨first, last⟩⟩)

theorem isTrimmed_of_visible {text : List Char}
    (visible : ∀ character ∈ text, isBlank character = false) : IsTrimmed text where
  first _ isFirst := visible _ (List.mem_of_head? isFirst)
  last _ isLast := visible _ (List.mem_of_getLast? isLast)

private theorem not_blank_of_head?_dropWhile (text : List Char) :
    ∀ character ∈ (text.dropWhile isBlank).head?, isBlank character = false := by
  induction text with
  | nil => simp
  | cons head tail induction =>
      by_cases blank : isBlank head = true
      · rw [List.dropWhile_cons_of_pos blank]
        exact induction
      · rw [List.dropWhile_cons_of_neg blank]
        intro character isHead
        simp only [List.head?_cons, Option.mem_def, Option.some.injEq] at isHead
        rw [← isHead]
        simpa using blank

theorem trimEnd_eq_rdropWhile (text : List Char) : trimEnd text = text.rdropWhile isBlank := rfl

private theorem head?_trimEnd (text : List Char) :
    ∀ character ∈ (trimEnd text).head?, character ∈ text.head? := by
  rw [trimEnd_eq_rdropWhile]
  intro character isHead
  rcases text.rdropWhile_prefix isBlank with ⟨trailing, equal⟩
  rw [← equal, List.head?_append, Option.mem_def.mp isHead]
  rfl

theorem trim_isTrimmed (text : List Char) : IsTrimmed (trim text) where
  first character isHead :=
    not_blank_of_head?_dropWhile text character (head?_trimEnd _ character isHead)
  last character isLast := by
    have nonempty : trim text ≠ [] := by
      intro empty
      rw [empty] at isLast
      cases isLast
    rw [List.getLast?_eq_some_getLast nonempty, Option.mem_def, Option.some.injEq] at isLast
    rw [← isLast]
    exact Bool.eq_false_iff.mpr (List.rdropWhile_last_not isBlank (trimStart text) nonempty)

theorem IsTrimmed.trim_eq {text : List Char} (trimmed : IsTrimmed text) : trim text = text := by
  have start : trimStart text = text := by
    cases text with
    | nil => rfl
    | cons head tail =>
        exact List.dropWhile_cons_of_neg (by simpa using trimmed.first head rfl)
  rw [trim, start, trimEnd_eq_rdropWhile, List.rdropWhile_eq_self_iff]
  intro nonempty
  have last := trimmed.last (text.getLast nonempty)
    (List.getLast?_eq_some_getLast nonempty)
  simp [last]

theorem IsTrimmed.trimmed_eq {text : String} (isTrimmed : IsTrimmed text.toList) :
    trimmed text = text := by
  rw [trimmed, isTrimmed.trim_eq, String.ofList_toList]

theorem trim_blank_cons {head : Char} (blank : isBlank head = true) (text : List Char) :
    trim (head :: text) = trim text := by
  rw [trim, trimStart, List.dropWhile_cons_of_pos blank]
  rfl

/-- Trimming removes blanks from both ends and nothing else. -/
theorem exists_blanks_around_trim (text : List Char) :
    ∃ leading trailing, text = leading ++ trim text ++ trailing ∧
      (∀ character ∈ leading, isBlank character = true) ∧
      ∀ character ∈ trailing, isBlank character = true := by
  refine ⟨text.takeWhile isBlank, (trimStart text).rtakeWhile isBlank, ?_, ?_, ?_⟩
  · rw [List.append_assoc, trim, trimEnd_eq_rdropWhile, List.rdropWhile_append_rtakeWhile,
      trimStart, List.takeWhile_append_dropWhile]
  · intro character member
    exact List.mem_takeWhile_imp member
  · intro character member
    exact List.mem_rtakeWhile_imp member

theorem trim_eq_nil_iff (text : List Char) :
    trim text = [] ↔ ∀ character ∈ text, isBlank character = true := by
  constructor
  · intro empty
    rcases exists_blanks_around_trim text with ⟨leading, trailing, parts, leadingBlank,
      trailingBlank⟩
    rw [empty, List.append_nil] at parts
    rw [parts]
    intro character member
    rcases List.mem_append.mp member with member | member
    · exact leadingBlank character member
    · exact trailingBlank character member
  · intro blank
    have start : trimStart text = [] := List.dropWhile_eq_nil_iff.mpr blank
    rw [trim, start]
    rfl

/-! ## Putting trimmed texts together -/

theorem IsTrimmed.append {left right : List Char} (leftTrimmed : IsTrimmed left)
    (rightTrimmed : IsTrimmed right) (leftNonempty : left ≠ []) (rightNonempty : right ≠ [])
    (middle : List Char) : IsTrimmed (left ++ middle ++ right) where
  first character isHead := by
    rw [List.append_assoc, List.head?_append_of_ne_nil _ leftNonempty] at isHead
    exact leftTrimmed.first character isHead
  last character isLast := by
    rw [List.getLast?_append_of_ne_nil _ rightNonempty] at isLast
    exact rightTrimmed.last character isLast

end Stylebook.Text
