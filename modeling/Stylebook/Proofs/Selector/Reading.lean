import Stylebook.Proofs.Selector.Grammar

/-!
Reading the text of a selector list. The tokens of the text of each part are those of its
components, for as long as nothing follows that would go on with its last name.
-/

namespace Stylebook.Selector.Grammar

open Css

theorem Name.isName (name : Name) : IsName name.text := isName_iff.mpr ⟨name.begins, name.plain⟩

/-! ## How parts begin and end -/

structure IsSolid (text : List Char) : Prop where
  nonempty : text ≠ []
  trimmed : Text.IsTrimmed text

theorem IsSolid.append {left right : List Char} (ofLeft : IsSolid left) (ofRight : IsSolid right)
    (middle : List Char) : IsSolid (left ++ middle ++ right) where
  nonempty := by simp [ofLeft.nonempty]
  trimmed := ofLeft.trimmed.append ofRight.trimmed ofLeft.nonempty ofRight.nonempty middle

theorem IsSolid.first {text : List Char} (solid : IsSolid text) (after : List Char) :
    ∀ character ∈ (text ++ after).head?, isBlank character = false := by
  intro character isFirst
  rw [List.head?_append_of_ne_nil _ solid.nonempty] at isFirst
  exact isBlank_eq_false (solid.trimmed.first character isFirst)

theorem isSolid_of_visible {text : List Char} (nonempty : text ≠ [])
    (visible : ∀ character ∈ text, Text.isBlank character = false) : IsSolid text :=
  ⟨nonempty, Text.isTrimmed_of_visible visible⟩

theorem isSolid_singleton {character : Char} (visible : Text.isBlank character = false) :
    IsSolid [character] :=
  isSolid_of_visible (List.cons_ne_nil _ _) (List.forall_mem_singleton.mpr visible)

theorem Name.isSolid (name : Name) : IsSolid name.text :=
  isSolid_of_visible name.isName.nonempty name.isName.visible

theorem Name.isSolid_cons (name : Name) {mark : Char} (visible : Text.isBlank mark = false) :
    IsSolid (mark :: name.text) :=
  isSolid_of_visible (List.cons_ne_nil _ _)
    (List.forall_mem_cons.mpr ⟨visible, name.isName.visible⟩)

theorem Head.isSolid (head : Head) : IsSolid head.text := by
  cases head with
  | type name => exact name.isSolid
  | universal => exact isSolid_singleton rfl

theorem isSolid_enclosed {first last : Char} (visible : Text.isBlank first = false)
    (lastVisible : Text.isBlank last = false) (inside : List Char) :
    IsSolid (first :: (inside ++ [last])) :=
  (isSolid_singleton visible).append (isSolid_singleton lastVisible) inside

theorem Simple.isSolid (simple : Simple) : IsSolid simple.text := by
  rcases simple with name | name | name | name | name | ⟨kind, argument⟩
  · exact name.isSolid_cons rfl
  · exact name.isSolid_cons rfl
  · exact isSolid_enclosed rfl rfl name.text
  · exact name.isSolid_cons rfl
  · exact (isSolid_singleton rfl).append name.isSolid [':']
  · have enclosed : IsSolid (':' :: ((kind.text ++ '(' :: argument.text) ++ [')'])) :=
      isSolid_enclosed rfl rfl _
    rwa [List.append_assoc] at enclosed

mutual

theorem Simples.isSolid_append {before : List Char} (solid : IsSolid before) :
    (simples : Simples) → IsSolid (before ++ simples.text)
  | .nil => by
      rw [Simples.text, List.append_nil]
      exact solid
  | .cons first rest => by
      have extended := solid.append first.isSolid []
      rw [List.append_nil] at extended
      rw [Simples.text, ← List.append_assoc]
      exact rest.isSolid_append extended

theorem Compound.isSolid (compound : Compound) : IsSolid compound.text := by
  cases compound with
  | headed head rest => exact rest.isSolid_append head.isSolid
  | bare first rest => exact rest.isSolid_append first.isSolid

theorem Complex.isSolid : (selector : Complex) → IsSolid selector.text
  | .last compound => compound.isSolid
  | .combined compound combinator rest => by
      rw [Complex.text, ← List.append_assoc]
      exact compound.isSolid.append rest.isSolid combinator.text

theorem Selectors.isSolid : (selectors : Selectors) → IsSolid selectors.text
  | .last member => member.isSolid
  | .listed member rest => by
      have listed := member.isSolid.append rest.isSolid [',', ' ']
      rwa [List.append_assoc] at listed

end

theorem Simple.stops_text (simple : Simple) (after : List Char) : Stops (simple.text ++ after) := by
  cases simple <;> exact stops_cons (by decide) _

theorem Simples.stops_text {after : List Char} (isStop : Stops after) (simples : Simples) :
    Stops (simples.text ++ after) := by
  cases simples with
  | nil => exact isStop
  | cons first rest =>
      rw [text, List.append_assoc]
      exact first.stops_text _

theorem Combinator.stops_text (combinator : Combinator) (rest : List Char) :
    Stops (combinator.text ++ rest) := by
  cases combinator <;> exact stops_cons (by decide) _

/-! ## Tokens -/

theorem nameToken_of_bracket {first : Char} {rest : List Char}
    (isName : ∀ character ∈ rest, isNameCharacter character = true ∧ character ≠ '\x00')
    (notUrl : isUrlName (first :: rest) = false) (inside : List Char) :
    nameToken first (rest ++ '(' :: inside) =
      (.function (String.ofList (first :: rest)), inside) := by
  have ends : EndsName ('(' :: inside) := by
    intro character isFirst
    cases isFirst
    decide
  simp [nameToken, name_append isName ends, notUrl]

theorem Function.tokens_text (function : Function) (inside : List Char) :
    tokens (function.text ++ '(' :: inside) =
      .function (String.ofList function.text) :: tokens inside := by
  have plain (first : Char) (rest : List Char)
      (isName : rest.all fun character => isNameCharacter character = true ∧ character ≠ '\x00')
      (notUrl : isUrlName (first :: rest) = false)
      (isNameToken : ∀ after, nextToken first after = nameToken first after) :
      tokens (first :: rest ++ '(' :: inside) =
        .function (String.ofList (first :: rest)) :: tokens inside := by
    rw [List.cons_append, tokens_cons, isNameToken,
      nameToken_of_bracket (List.all_iff_forall_prop.mp isName) notUrl]
  cases function with
  | not => exact plain 'n' ['o', 't'] rfl rfl fun _ => rfl
  | is => exact plain 'i' ['s'] rfl rfl fun _ => rfl
  | has => exact plain 'h' ['a', 's'] rfl rfl fun _ => rfl
  | anywhere => exact plain 'w' ['h', 'e', 'r', 'e'] rfl rfl fun _ => rfl

theorem Head.tokens_text {after : List Char} (isStop : Stops after) : (head : Head) →
    tokens (head.text ++ after) = Component.tokensOf [head.component] ++ tokens after
  | .type name => name.isName.tokens_append isStop
  | .universal => by
      have isStar : nextToken '*' after = matcherToken '*' after := rfl
      have isDelimiter : matcherToken '*' after = (.delimiter '*', after) := by
        rw [matcherToken]
        rintro rest rfl
        exact absurd (isStop '=' rfl) (by decide)
      rw [text, List.singleton_append, tokens_cons, isStar, isDelimiter]
      rfl

theorem Combinator.tokens_text {rest : List Char} (solid : ∀ character ∈ rest.head?,
      isBlank character = false) (combinator : Combinator) : tokens (combinator.text ++ rest) =
        Component.tokensOf combinator.components ++ tokens rest := by
  have delimited (character : Char) (isSolid : isBlank character = false)
      (isToken : nextToken character (' ' :: rest) = (.delimiter character, ' ' :: rest)) :
      tokens (' ' :: character :: ' ' :: rest) =
        .blank :: .delimiter character :: .blank :: tokens rest := by
    have begins : ∀ first ∈ (character :: ' ' :: rest).head?, isBlank first = false := by
      rintro _ ⟨⟩
      exact isSolid
    rw [tokens_blank begins, tokens_cons, isToken, tokens_blank solid]
  cases combinator with
  | descendant => exact tokens_blank solid
  | child => exact delimited '>' rfl rfl
  | sibling => exact delimited '+' rfl rfl
  | laterSibling => exact delimited '~' rfl rfl

theorem tokens_comma {rest : List Char} (solid : ∀ character ∈ rest.head?,
    isBlank character = false) : tokens (',' :: ' ' :: rest) = .comma :: .blank :: tokens rest := by
  rw [tokens_mark fun _ => rfl, tokens_blank solid]

/-! ## Parts of a list -/

mutual

theorem Simple.tokens_text {after : List Char} (isStop : Stops after) : (simple : Simple) →
    tokens (simple.text ++ after) = Component.tokensOf simple.components ++ tokens after
  | .id name => name.isName.tokens_hash_append isStop
  | .className name => name.isName.tokens_stop_append isStop
  | .attribute name => by
      have inside := name.isName.tokens_append (stops_cons (by decide) after : Stops (']' :: after))
      rw [Simple.text, List.cons_append, List.append_assoc, List.singleton_append,
        tokens_mark fun _ => rfl, inside, tokens_mark fun _ => rfl]
      rfl
  | .pseudoClass name => by
      rw [Simple.text, List.cons_append, tokens_mark fun _ => rfl, name.isName.tokens_append isStop]
      rfl
  | .pseudoElement name => by
      rw [Simple.text, List.cons_append, List.cons_append, tokens_mark fun _ => rfl,
        tokens_mark fun _ => rfl, name.isName.tokens_append isStop]
      rfl
  | .function function argument => by
      have inside := argument.tokens_text (stops_cons (by decide) after : Stops (')' :: after))
      rw [Simple.text, List.cons_append, List.append_assoc, List.cons_append, List.append_assoc,
        List.singleton_append, tokens_mark fun _ => rfl, function.tokens_text, inside,
        tokens_mark fun _ => rfl]
      simp [Simple.components, Component.tokensOf, Component.tokens, Token.opens?]

theorem Simples.tokens_text {after : List Char} (isStop : Stops after) : (simples : Simples) →
    tokens (simples.text ++ after) = Component.tokensOf simples.components ++ tokens after
  | .nil => rfl
  | .cons first rest => by
      rw [Simples.text, Simples.components, List.append_assoc,
        first.tokens_text (rest.stops_text isStop), rest.tokens_text isStop,
        Component.tokensOf_append, List.append_assoc]

theorem Compound.tokens_text {after : List Char} (isStop : Stops after) : (compound : Compound) →
    tokens (compound.text ++ after) = Component.tokensOf compound.components ++ tokens after
  | .headed head rest => by
      rw [Compound.text, Compound.components, List.append_assoc,
        head.tokens_text (rest.stops_text isStop), rest.tokens_text isStop, ← List.append_assoc,
        ← Component.tokensOf_append, List.singleton_append]
  | .bare first rest => by
      rw [Compound.text, Compound.components, List.append_assoc,
        first.tokens_text (rest.stops_text isStop), rest.tokens_text isStop,
        Component.tokensOf_append, List.append_assoc]

theorem Complex.tokens_text {after : List Char} (isStop : Stops after) : (selector : Complex) →
    tokens (selector.text ++ after) = Component.tokensOf selector.components ++ tokens after
  | .last compound => compound.tokens_text isStop
  | .combined compound combinator rest => by
      rw [Complex.text, Complex.components, List.append_assoc, List.append_assoc,
        compound.tokens_text (combinator.stops_text _),
        combinator.tokens_text (rest.isSolid.first after), rest.tokens_text isStop,
        Component.tokensOf_append, Component.tokensOf_append, List.append_assoc,
        List.append_assoc]

theorem Selectors.tokens_text {after : List Char} (isStop : Stops after) :
    (selectors : Selectors) →
      tokens (selectors.text ++ after) = Component.tokensOf selectors.components ++ tokens after
  | .last member => member.tokens_text isStop
  | .listed member rest => by
      rw [Selectors.text, Selectors.components, List.append_assoc, List.cons_append,
        List.cons_append, member.tokens_text (stops_cons (by decide) _),
        tokens_comma (rest.isSolid.first after), rest.tokens_text isStop,
        Component.tokensOf_append, List.append_assoc]
      rfl

end

/-- The components of the text of a list are those of its parts. -/
theorem Selectors.ofText_text (selectors : Selectors) :
    Component.ofText (String.ofList selectors.text) = selectors.components := by
  refine Component.ofText_of_tokens selectors.allMatched ?_
  have read := selectors.tokens_text stops_nil
  rw [String.toList_ofList]
  rwa [List.append_nil, tokens_nil, List.append_nil] at read

end Stylebook.Selector.Grammar
