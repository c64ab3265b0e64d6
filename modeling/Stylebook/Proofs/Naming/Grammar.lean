import Mathlib.Data.List.Infix
import Stylebook.Naming.ClassName

/-!
The grammar of class names beside the rules that check them. A name is cut at its separators from
the left, which loses nothing of it; the names that break no rule are those without a separator
and those that the grammar allows.
-/

namespace Stylebook.Naming

/-! ## Separators -/

def Separator.text : Separator → List Char
  | element => ['_', '_']
  | modifier => ['-', '-']

def Unseparated (text : List Char) : Prop := ∀ separator : Separator, ¬separator.text <:+: text

theorem unseparated_nil : Unseparated [] := by
  intro separator isPart
  cases separator <;> cases List.infix_nil.mp isPart

theorem unseparated_cons_iff {head : Char} {tail : List Char} :
    Unseparated (head :: tail) ↔
      (∀ separator : Separator, ¬separator.text <+: head :: tail) ∧ Unseparated tail := by
  simp only [Unseparated, List.infix_cons_iff, not_or, forall_and]

/-! ## Cutting -/

def interleaved : List (List Char) → List Separator → List Char
  | part :: parts, separator :: separators =>
      part ++ separator.text ++ interleaved parts separators
  | parts, _ => parts.flatten

theorem interleaved_cons (head : Char) (part : List Char) (parts : List (List Char))
    (separators : List Separator) :
    interleaved ((head :: part) :: parts) separators =
      head :: interleaved (part :: parts) separators := by
  cases separators <;> simp [interleaved]

namespace Segments

/-- A character that begins no separator belongs to the first part. -/
theorem ofName_cons {head : Char} {tail : List Char}
    (unseparated : ∀ separator : Separator, ¬separator.text <+: head :: tail) :
    ofName (head :: tail) = ⟨head :: (ofName tail).first, (ofName tail).later⟩ := by
  rw [ofName]
  · intro rest isElement isRest
    exact unseparated .element ⟨rest, by rw [isElement, isRest]; rfl⟩
  · intro rest isModifier isRest
    exact unseparated .modifier ⟨rest, by rw [isModifier, isRest]; rfl⟩

theorem ofName_separator (separator : Separator) (rest : List Char) :
    ofName (separator.text ++ rest) =
      ⟨[], (separator, (ofName rest).first) :: (ofName rest).later⟩ := by
  cases separator <;> simp [Separator.text, ofName]

/-- A name is its parts with the separators between them. -/
theorem interleaved_ofName (name : List Char) :
    interleaved (ofName name).parts (ofName name).separators = name := by
  fun_induction ofName name with
  | case1 => rfl
  | case2 rest segments induction => exact congrArg ('_' :: '_' :: ·) induction
  | case3 rest segments induction => exact congrArg ('-' :: '-' :: ·) induction
  | case4 character rest _ _ segments induction =>
      exact (interleaved_cons character _ _ _).trans (congrArg (character :: ·) induction)

theorem length_parts (segments : Segments) :
    segments.parts.length = segments.separators.length + 1 := by
  simp [parts, separators]

theorem isStart_first (name : List Char) : (ofName name).first <+: name := by
  fun_induction ofName name with
  | case1 => exact List.nil_prefix
  | case2 => exact List.nil_prefix
  | case3 => exact List.nil_prefix
  | case4 character rest _ _ segments induction =>
      exact (List.prefix_cons_inj character).mpr induction

/-- A name is cut at every separator, so none is left within a part. -/
theorem unseparated_of_mem_parts (name : List Char) :
    ∀ part ∈ (ofName name).parts, Unseparated part := by
  fun_induction ofName name with
  | case1 => simp [parts, unseparated_nil]
  | case2 rest segments induction => exact List.forall_mem_cons.mpr ⟨unseparated_nil, induction⟩
  | case3 rest segments induction => exact List.forall_mem_cons.mpr ⟨unseparated_nil, induction⟩
  | case4 character rest notElement notModifier segments induction =>
      rcases List.forall_mem_cons.mp induction with ⟨first, later⟩
      refine List.forall_mem_cons.mpr ⟨unseparated_cons_iff.mpr ⟨?_, first⟩, later⟩
      intro separator isPrefix
      have begins := isPrefix.trans ((List.prefix_cons_inj character).mpr (isStart_first rest))
      rcases begins with ⟨others, parted⟩
      cases separator with
      | element =>
          injection parted with isHalf isRest
          exact notElement others isHalf.symm isRest.symm
      | modifier =>
          injection parted with isHalf isRest
          exact notModifier others isHalf.symm isRest.symm

/-! ## Putting together -/

theorem ofName_of_unseparated {name : List Char} (unseparated : Unseparated name) :
    ofName name = ⟨name, []⟩ := by
  induction name with
  | nil => rfl
  | cons head tail induction =>
      rcases unseparated_cons_iff.mp unseparated with ⟨notHere, later⟩
      rw [ofName_cons notHere, induction later]

/-- A part without separators that does not end with half of one is cut off before the first
separator after it. -/
theorem ofName_append_separator {part : List Char} (unseparated : Unseparated part)
    (smooth : ∀ character ∈ part.getLast?, isRagged character = false) (separator : Separator)
    (rest : List Char) : ofName (part ++ (separator.text ++ rest)) =
      ⟨part, (separator, (ofName rest).first) :: (ofName rest).later⟩ := by
  induction part with
  | nil => exact ofName_separator separator rest
  | cons head tail induction =>
      rcases unseparated_cons_iff.mp unseparated with ⟨notHere, later⟩
      have apart : ∀ other : Separator,
          ¬other.text <+: head :: (tail ++ (separator.text ++ rest)) := by
        cases tail with
        | nil =>
            -- Half of a separator at the end of the part would begin one.
            have notHalf := smooth head rfl
            intro other isPrefix
            rcases isPrefix with ⟨others, parted⟩
            cases other <;> (injection parted with isHalf; subst head; cases notHalf)
        | cons next tail =>
            intro other isPrefix
            have length : other.text.length ≤ (head :: next :: tail).length := by
              cases other <;> simp [Separator.text]
            exact notHere other
              (List.prefix_of_prefix_length_le isPrefix (List.prefix_append _ _) length)
      have smoothTail : ∀ character ∈ tail.getLast?, isRagged character = false := by
        intro character isLast
        refine smooth character ?_
        cases tail with
        | nil => cases isLast
        | cons next tail => rwa [List.getLast?_cons_cons]
      rw [List.cons_append, ofName_cons apart, induction later smoothTail]

end Segments

/-! ## The grammar -/

structure IsWord (text : List Char) : Prop where
  nonempty : text ≠ []
  unseparated : Unseparated text
  first : ∀ character ∈ text.head?, character ≠ '_' ∧ character ≠ '-'
  last : ∀ character ∈ text.getLast?, character ≠ '_' ∧ character ≠ '-'

/-- The names that the grammar allows: any without separators, and a block with an element, a
modifier, or both in this order. -/
inductive FollowsGrammar : List Char → Prop where
  | unseparated {name : List Char} (clean : Unseparated name) : FollowsGrammar name
  | block {block : List Char} (isBlock : IsWord block) : FollowsGrammar block
  | element {block element : List Char} (isBlock : IsWord block) (isElement : IsWord element) :
      FollowsGrammar (block ++ '_' :: '_' :: element)
  | modifier {block modifier : List Char} (isBlock : IsWord block) (isModifier : IsWord modifier) :
      FollowsGrammar (block ++ '-' :: '-' :: modifier)
  | elementModifier {block element modifier : List Char} (isBlock : IsWord block)
      (isElement : IsWord element) (isModifier : IsWord modifier) :
      FollowsGrammar (block ++ '_' :: '_' :: (element ++ '-' :: '-' :: modifier))

def allowedSeparators : List (List Separator) := [[.element], [.modifier], [.element, .modifier]]

theorem isRagged_eq_false_iff {character : Char} :
    isRagged character = false ↔ character ≠ '_' ∧ character ≠ '-' := by
  simp [isRagged]

theorem isWord_iff {text : List Char} (unseparated : Unseparated text) :
    IsWord text ↔ text.isEmpty = false ∧ hasRaggedEnd text = false := by
  simp only [hasRaggedEnd, Bool.or_eq_false_iff, Option.any_eq_false, isRagged_eq_false_iff,
    List.isEmpty_eq_false_iff]
  exact ⟨fun word => ⟨word.nonempty, word.first, word.last⟩,
    fun ⟨nonempty, first, last⟩ => ⟨nonempty, unseparated, first, last⟩⟩

/-- Words with separators between them are cut into these words and separators again. -/
theorem Segments.ofName_interleaved {segments : Segments}
    (words : ∀ part ∈ segments.parts, IsWord part) :
    ofName (interleaved segments.parts segments.separators) = segments := by
  rcases segments with ⟨first, later⟩
  induction later generalizing first with
  | nil =>
      have isFirst := words first List.mem_cons_self
      simpa [parts, separators, interleaved] using ofName_of_unseparated isFirst.unseparated
  | cons next rest induction =>
      rcases next with ⟨separator, part⟩
      rcases List.forall_mem_cons.mp words with ⟨isFirst, others⟩
      have smooth : ∀ character ∈ first.getLast?, isRagged character = false :=
        fun character isLast => isRagged_eq_false_iff.mpr (isFirst.last character isLast)
      have inner : ofName (interleaved (part :: rest.map Prod.snd) (rest.map Prod.fst)) =
          ⟨part, rest⟩ := induction part others
      have cut := ofName_append_separator isFirst.unseparated smooth separator
        (interleaved (part :: rest.map Prod.snd) (rest.map Prod.fst))
      rwa [inner, ← List.append_assoc] at cut

theorem followsGrammar_of_words {segments : Segments} (words : ∀ part ∈ segments.parts, IsWord part)
    (allowed : segments.separators ∈ allowedSeparators) :
    FollowsGrammar (interleaved segments.parts segments.separators) := by
  have length := segments.length_parts
  simp only [allowedSeparators, List.mem_cons, List.not_mem_nil, or_false] at allowed
  rcases allowed with isSeparators | isSeparators | isSeparators
  · rw [isSeparators] at length ⊢
    rcases List.length_eq_two.mp length with ⟨block, element, isParts⟩
    simp only [isParts, List.forall_mem_cons] at words
    rw [isParts]
    simpa [interleaved, Separator.text] using FollowsGrammar.element words.1 words.2.1
  · rw [isSeparators] at length ⊢
    rcases List.length_eq_two.mp length with ⟨block, modifier, isParts⟩
    simp only [isParts, List.forall_mem_cons] at words
    rw [isParts]
    simpa [interleaved, Separator.text] using FollowsGrammar.modifier words.1 words.2.1
  · rw [isSeparators] at length ⊢
    rcases List.length_eq_three.mp length with ⟨block, element, modifier, isParts⟩
    simp only [isParts, List.forall_mem_cons] at words
    rw [isParts]
    simpa [interleaved, Separator.text] using
      FollowsGrammar.elementModifier words.1 words.2.1 words.2.2.1

/-- What the grammar allows besides names without separators: words with the separators of one of
the allowed sequences between them. -/
theorem followsGrammar_iff {name : List Char} :
    FollowsGrammar name ↔ Unseparated name ∨ ∃ segments : Segments,
      name = interleaved segments.parts segments.separators ∧
        (∀ part ∈ segments.parts, IsWord part) ∧ segments.separators ∈ allowedSeparators := by
  constructor
  · intro follows
    cases follows with
    | unseparated clean => exact .inl clean
    | block isBlock => exact .inl isBlock.unseparated
    | @element block element isBlock isElement =>
        exact .inr ⟨⟨block, [(.element, element)]⟩,
          by simp [interleaved, Segments.parts, Segments.separators, Separator.text],
          by simp [Segments.parts, isBlock, isElement], .head _⟩
    | @modifier block modifier isBlock isModifier =>
        exact .inr ⟨⟨block, [(.modifier, modifier)]⟩,
          by simp [interleaved, Segments.parts, Segments.separators, Separator.text],
          by simp [Segments.parts, isBlock, isModifier], .tail _ (.head _)⟩
    | @elementModifier block element modifier isBlock isElement isModifier =>
        exact .inr ⟨⟨block, [(.element, element), (.modifier, modifier)]⟩,
          by simp [interleaved, Segments.parts, Segments.separators, Separator.text],
          by simp [Segments.parts, isBlock, isElement, isModifier],
          .tail _ (.tail _ (.head _))⟩
  · rintro (clean | ⟨segments, rfl, words, allowed⟩)
    · exact .unseparated clean
    · exact followsGrammar_of_words words allowed

/-! ## Rules -/

theorem count_element_add_count_modifier (separators : List Separator) :
    separators.count .element + separators.count .modifier = separators.length := by
  induction separators with
  | nil => rfl
  | cons separator rest induction => cases separator <;> simp <;> omega

theorem mem_allowedSeparators {separators : List Separator} (several : separators ≠ []) :
    separators ∈ allowedSeparators ↔
      separators.count .element ≤ 1 ∧ separators.count .modifier ≤ 1 ∧
        ¬(separators.head? = some .modifier ∧ separators.count .element = 1) := by
  constructor
  · intro member
    simp only [allowedSeparators, List.mem_cons, List.not_mem_nil, or_false] at member
    rcases member with rfl | rfl | rfl <;> decide
  · rintro ⟨fewElements, fewModifiers, inOrder⟩
    have count := count_element_add_count_modifier separators
    match separators with
    | [] => exact absurd rfl several
    | [separator] => cases separator <;> decide
    | [first, second] => cases first <;> cases second <;> simp_all [allowedSeparators]
    | _ :: _ :: _ :: _ =>
        simp only [List.length_cons] at count
        omega

theorem forall_isWord_iff {parts : List (List Char)} (clean : ∀ part ∈ parts, Unseparated part) :
    (∀ part ∈ parts, IsWord part) ↔
      parts.any List.isEmpty = false ∧ parts.any hasRaggedEnd = false := by
  simp only [List.any_eq_false, Bool.not_eq_true, ← forall₂_and]
  exact forall₂_congr fun part member => isWord_iff (clean part member)

theorem violationOf?_eq_none_iff (name : String) :
    violationOf? name = none ↔ (Segments.ofName name.toList).separators = [] ∨
      (∀ part ∈ (Segments.ofName name.toList).parts, IsWord part) ∧
        (Segments.ofName name.toList).separators ∈ allowedSeparators := by
  have words := forall_isWord_iff (Segments.unseparated_of_mem_parts name.toList)
  rw [violationOf?, words]
  generalize Segments.ofName name.toList = segments
  by_cases whole : segments.separators = []
  · simp [whole]
  by_cases empty : segments.parts.any List.isEmpty = true
  · simp [whole, empty]
  by_cases ragged : segments.parts.any hasRaggedEnd = true
  · simp [whole, empty, ragged]
  rw [mem_allowedSeparators whole]
  by_cases manyElements : segments.separators.count .element > 1
  · simp [whole, empty, ragged, manyElements, Nat.not_le.mpr manyElements]
  by_cases manyModifiers : segments.separators.count .modifier > 1
  · simp [whole, empty, ragged, manyElements, manyModifiers, Nat.not_le.mpr manyModifiers]
  · simp [whole, empty, ragged, manyElements, manyModifiers, Nat.le_of_not_gt manyElements,
      Nat.le_of_not_gt manyModifiers]

/-- A name breaks no rule exactly if the grammar allows it. It is cut into parts with separators
between them, of which no part holds one. -/
theorem accepts_iff_followsGrammar (name : String) :
    (violationOf? name = none ↔ FollowsGrammar name.toList) ∧
      interleaved (Segments.ofName name.toList).parts (Segments.ofName name.toList).separators =
        name.toList ∧
      (Segments.ofName name.toList).parts.length =
        (Segments.ofName name.toList).separators.length + 1 ∧
      ∀ part ∈ (Segments.ofName name.toList).parts, Unseparated part := by
  have whole := Segments.interleaved_ofName name.toList
  have length := (Segments.ofName name.toList).length_parts
  have clean := Segments.unseparated_of_mem_parts name.toList
  refine ⟨?_, whole, length, clean⟩
  rw [violationOf?_eq_none_iff, followsGrammar_iff]
  constructor
  · rintro (single | ⟨words, allowed⟩)
    · left
      rw [single] at length whole
      rcases List.length_eq_one_iff.mp length with ⟨part, isParts⟩
      rw [isParts] at whole clean
      have isName : part = name.toList := by simpa [interleaved] using whole
      exact isName ▸ clean part List.mem_cons_self
    · exact .inr ⟨_, whole.symm, words, allowed⟩
  · rintro (clean | ⟨segments, parted, words, allowed⟩)
    · exact .inl (by rw [Segments.ofName_of_unseparated clean]; rfl)
    · rw [parted, Segments.ofName_interleaved words]
      exact .inr ⟨words, allowed⟩

end Stylebook.Naming
