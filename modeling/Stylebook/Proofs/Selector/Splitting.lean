import Stylebook.Proofs.Selector.Lineage

/-!
Selector lists that are cut again. Nothing but blanks and commas is lost when a list is cut.
Whatever brackets and quotes the list leaves open, and whatever brackets it closes that were not
open, each of its members is cut into itself alone, and its members in a row are cut into the
same members. So the selector of a root is its own selector.
-/

namespace Stylebook.Selector

open Text OpenMarks

/-! ## What is kept -/

def withoutGaps (text : List Char) : List Char :=
  text.filter fun character => !isBlank character && character != ','

theorem withoutGaps_append (left right : List Char) :
    withoutGaps (left ++ right) = withoutGaps left ++ withoutGaps right :=
  List.filter_append ..

theorem withoutGaps_eq_nil {text : List Char}
    (blank : ∀ character ∈ text, isBlank character = true) : withoutGaps text = [] := by
  refine List.filter_eq_nil_iff.mpr fun character member => ?_
  simp [blank character member]

theorem withoutGaps_trim (text : List Char) : withoutGaps (trim text) = withoutGaps text := by
  rcases exists_blanks_around_trim text with ⟨leading, trailing, parts, leadingBlank,
    trailingBlank⟩
  have around := congrArg withoutGaps parts
  rw [withoutGaps_append, withoutGaps_append, withoutGaps_eq_nil leadingBlank,
    withoutGaps_eq_nil trailingBlank, List.nil_append, List.append_nil] at around
  exact around.symm

theorem withoutGaps_flatten (texts : List (List Char)) :
    withoutGaps texts.flatten = (texts.map withoutGaps).flatten :=
  List.filter_flatten ..

/-- Only the commas at which a text is cut are missing from its pieces. -/
theorem withoutGaps_flatten_pieces (marks : OpenMarks) (text : List Char) :
    withoutGaps (pieces marks text).flatten = withoutGaps text := by
  induction text generalizing marks with
  | nil => rfl
  | cons head tail induction =>
      by_cases cut : marks.cutsAt head = true
      · rcases eq_empty_of_cutsAt cut with ⟨rfl, rfl⟩
        rw [pieces_comma_cons, List.flatten_cons, List.nil_append, induction]
        rfl
      · have whole : KeepsWhole marks head := Bool.eq_false_iff.mpr cut
        have later := induction (marks.after head)
        rcases List.exists_cons_of_ne_nil (pieces_ne_nil (marks.after head) tail) with
          ⟨piece, rest, isCons⟩
        rw [isCons, List.flatten_cons] at later
        rw [pieces_cons_of_keepsWhole whole, isCons, List.modifyHead_cons, List.flatten_cons,
          List.cons_append, ← List.singleton_append, withoutGaps_append, later,
          ← withoutGaps_append, List.singleton_append]

/-- Blanks and commas are all that a list loses when it is cut. -/
theorem withoutGaps_flatten_members (text : List Char) :
    withoutGaps (members text).flatten = withoutGaps text := by
  have trimmed : withoutGaps ∘ trim = withoutGaps := funext withoutGaps_trim
  rw [members, List.flatten_filter_not_isEmpty, withoutGaps_flatten, List.map_map, trimmed,
    ← withoutGaps_flatten, withoutGaps_flatten_pieces]

/-! ## Cutting again -/

theorem toList_intercalate_split (list : String) :
    (", ".intercalate (split list)).toList = joined (members list.toList) := by
  rw [String.toList_intercalate, split, List.map_map]
  simp [joined, Function.comp_def]

/-- The members of a list, put together, are the members of the list. -/
theorem split_intercalate_split (list : String) :
    split (", ".intercalate (split list)) = split list := by
  rw [split, toList_intercalate_split, members_joined_members, split]

theorem isMember_of_mem_split {list member : String} (isMember : member ∈ split list) :
    IsMember member.toList :=
  isMember_of_mem_members (mem_split.mp isMember)

theorem split_of_isMember {member : String} (isMember : IsMember member.toList) :
    split member = [member] := by
  rw [split, members_of_isMember isMember, List.map_singleton, String.ofList_toList]

/-! ## Roots -/

/-- What a root needs in order to have a selector, and which one it has. -/
theorem qualify_none_eq_ok_iff (root selector : String) :
    qualify none root = .ok selector ↔
      split root ≠ [] ∧ (∀ member ∈ split root, isFused member.toList = false) ∧
        (split root).length ≤ maximumSelectors ∧ selector = ", ".intercalate (split root) := by
  have alone : qualify none root = qualifyLineage [root] := (qualifyLineage_singleton root).symm
  rw [alone, qualifyLineage_singleton_eq_ok_iff, length_split, ← toList_intercalate_split,
    String.toList_inj, ← forall_mem_split_iff root fun member => isFused member = false]
  exact and_congr_left fun _ => not_congr (split_eq_nil_iff root).symm

/-- Any list, balanced or not, is cut into members that are not cut further, and its members in a
row are cut into the same members. So what a root is qualified to stays as it is. -/
theorem split_stable (list : String) :
    withoutGaps ((split list).flatMap String.toList) = withoutGaps list.toList ∧
      (∀ member ∈ split list, member ≠ "" ∧ trimmed member = member ∧
        Throughout KeepsWhole {} member.toList ∧ split member = [member]) ∧
      split (", ".intercalate (split list)) = split list ∧
      ∀ selector, qualify none list = .ok selector →
        split selector = split list ∧ qualify none selector = .ok selector := by
  refine ⟨?_, ?_, split_intercalate_split list, ?_⟩
  · have inARow : (split list).flatMap String.toList = (members list.toList).flatten := by
      simp [split, List.flatMap_def, Function.comp_def, String.toList_ofList]
    rw [inARow, withoutGaps_flatten_members]
  · intro member isMember
    have single := isMember_of_mem_split isMember
    refine ⟨?_, single.trimmed.trimmed_eq, single.whole, split_of_isMember single⟩
    rintro rfl
    exact single.nonempty rfl
  · intro selector qualified
    rcases (qualify_none_eq_ok_iff list selector).mp qualified with
      ⟨nonempty, unfused, small, rfl⟩
    have again := split_intercalate_split list
    refine ⟨again, (qualify_none_eq_ok_iff _ _).mpr ?_⟩
    rw [again]
    exact ⟨nonempty, unfused, small, rfl⟩

/-- Two brackets are closed that were not open. At the end a bracket and a quote are open, and the
last blank of the quote is lost. -/
theorem split_stable_unclosed :
    "c(d, \"e," ∈ split "), a]b ,, c(d, \"e, " ∧
      qualify none "), a]b ,, c(d, \"e, " = .ok "), a]b, c(d, \"e," ∧
      split "c(d, \"e," = ["c(d, \"e,"] ∧
      split "), a]b, c(d, \"e," = [")", "a]b", "c(d, \"e,"] ∧
      qualify none "), a]b, c(d, \"e," = .ok "), a]b, c(d, \"e," := by
  have isMember : "c(d, \"e," ∈ split "), a]b ,, c(d, \"e, " := by decide
  have qualified : qualify none "), a]b ,, c(d, \"e, " = .ok "), a]b, c(d, \"e," := by
    rw [qualify_none_eq_ok_iff]
    decide
  rcases split_stable "), a]b ,, c(d, \"e, " with ⟨-, single, -, stays⟩
  rcases stays _ qualified with ⟨sameMembers, qualifiedAgain⟩
  exact ⟨isMember, qualified, (single _ isMember).2.2.2, sameMembers.trans (by decide),
    qualifiedAgain⟩

end Stylebook.Selector
