import Stylebook.Css.Component

/-!
Components and their tokens. Components whose brackets match can be written as tokens in one way,
and matching the brackets of these tokens gives the components back, whatever is open around them.
-/

namespace Stylebook.Css.Component

/-! ## Tokens of components -/

mutual

def tokens : Component → List Token
  | .token single => [single]
  | .block opening contents =>
      opening :: (tokensOf contents ++ (opening.opens?.map Token.closing).toList)

def tokensOf : List Component → List Token
  | [] => []
  | component :: rest => component.tokens ++ tokensOf rest

end

mutual

/-- The component has matching brackets and no comments. -/
def IsMatched : Component → Prop
  | .token single => single.opens? = none ∧ single.closes? = none ∧ single ≠ .comment
  | .block opening contents => (∃ bracket, opening.opens? = some bracket) ∧ AllMatched contents

def AllMatched : List Component → Prop
  | [] => True
  | component :: rest => component.IsMatched ∧ AllMatched rest

end

theorem tokensOf_append (left right : List Component) :
    tokensOf (left ++ right) = tokensOf left ++ tokensOf right := by
  induction left with
  | nil => rfl
  | cons component rest induction =>
      rw [List.cons_append, tokensOf, tokensOf, induction, List.append_assoc]

theorem allMatched_append {left right : List Component} :
    AllMatched (left ++ right) ↔ AllMatched left ∧ AllMatched right := by
  induction left with
  | nil => simp [AllMatched]
  | cons component rest induction =>
      rw [List.cons_append, AllMatched, AllMatched, induction, and_assoc]

/-! ## Matching brackets -/

theorem nest_of_neither {next : Token} (opens : next.opens? = none) (closes : next.closes? = none)
    (blocks : List OpenBlock) (read : List Component) (rest : List Token) :
    nest blocks read (next :: rest) = nest blocks (.token next :: read) rest := by
  cases blocks with
  | nil => simp only [nest, opens]
  | cons inner outer => simp [nest, opens, closes]

theorem nest_of_opens {next : Token} {bracket : Bracket} (opens : next.opens? = some bracket)
    (blocks : List OpenBlock) (read : List Component) (rest : List Token) :
    nest blocks read (next :: rest) = nest (⟨next, bracket, read⟩ :: blocks) [] rest := by
  cases blocks <;> simp only [nest, opens]

theorem nest_closing (inner : OpenBlock) (outer : List OpenBlock) (read : List Component)
    (rest : List Token) : nest (inner :: outer) read (.closing inner.bracket :: rest) =
      nest outer (.block inner.opening read.reverse :: inner.before) rest := by
  simp [nest, Token.opens?, Token.closes?]

mutual

theorem nest_tokens (blocks : List OpenBlock) (read : List Component) (rest : List Token) :
    (component : Component) → component.IsMatched →
      nest blocks read (component.tokens ++ rest) = nest blocks (component :: read) rest
  | .token _, ⟨opens, closes, _⟩ => nest_of_neither opens closes blocks read rest
  | .block opening contents, ⟨⟨bracket, opens⟩, matched⟩ => by
      have closing : (opening.opens?.map Token.closing).toList = [.closing bracket] := by
        rw [opens]
        rfl
      rw [tokens, closing, List.cons_append, nest_of_opens opens, List.append_assoc,
        nest_tokensOf _ [] _ contents matched, List.singleton_append, List.append_nil,
        nest_closing, List.reverse_reverse]

theorem nest_tokensOf (blocks : List OpenBlock) (read : List Component) (rest : List Token) :
    (components : List Component) → AllMatched components →
      nest blocks read (tokensOf components ++ rest) =
        nest blocks (components.reverse ++ read) rest
  | [], _ => rfl
  | component :: later, ⟨matched, allMatched⟩ => by
      rw [tokensOf, List.append_assoc, nest_tokens blocks read _ component matched,
        nest_tokensOf blocks _ rest later allMatched, List.reverse_cons, List.append_assoc,
        List.singleton_append]

end

mutual

theorem comment_not_mem_tokens :
    (component : Component) → component.IsMatched → Token.comment ∉ component.tokens
  | .token _, ⟨_, _, notComment⟩ => by
      rw [tokens, List.mem_singleton]
      exact Ne.symm notComment
  | .block opening contents, ⟨⟨bracket, opens⟩, matched⟩ => by
      have closing : (opening.opens?.map Token.closing).toList = [.closing bracket] := by
        rw [opens]
        rfl
      rw [tokens, closing, List.mem_cons, List.mem_append, List.mem_singleton, not_or, not_or]
      refine ⟨?_, comment_not_mem_tokensOf contents matched, Token.noConfusion⟩
      rintro rfl
      cases opens

theorem comment_not_mem_tokensOf :
    (components : List Component) → AllMatched components → Token.comment ∉ tokensOf components
  | [], _ => List.not_mem_nil
  | component :: later, ⟨matched, allMatched⟩ => by
      rw [tokensOf, List.mem_append, not_or]
      exact ⟨comment_not_mem_tokens component matched, comment_not_mem_tokensOf later allMatched⟩

end

/-- A text whose tokens are those of matched components has these components. -/
theorem ofText_of_tokens {text : String} {components : List Component}
    (matched : AllMatched components) (isText : Css.tokens text.toList = tokensOf components) :
    ofText text = components := by
  have noComments : (tokensOf components).filter (fun token => token != .comment) =
      tokensOf components := by
    refine List.filter_eq_self.mpr fun token member => ?_
    rw [bne_iff_ne]
    rintro rfl
    exact comment_not_mem_tokensOf components matched member
  have nested := nest_tokensOf [] [] [] components matched
  rw [List.append_nil, List.append_nil] at nested
  rw [ofText, isText, noComments, nested, nest, closeAll, List.reverse_reverse]

end Stylebook.Css.Component
