import Stylebook.Proofs.Css.Lexemes

/-!
What a reader of components meets that looks into none of the blocks: the tokens that stand where
no block is open and open none themselves.
-/

namespace Stylebook.Css

/-! ## Tokens outside of blocks -/

def outerTokens (blocks : List Bracket) : List Token → List Token
  | [] => []
  | token :: rest =>
      if blocks = [] ∧ token.opens? = none then token :: outerTokens (openAfter blocks token) rest
      else outerTokens (openAfter blocks token) rest

theorem outerTokens_cons_of_opens {token : Token} {bracket : Bracket}
    (opens : token.opens? = some bracket) (blocks : List Bracket) (rest : List Token) :
    outerTokens blocks (token :: rest) = outerTokens (bracket :: blocks) rest := by
  rw [outerTokens, if_neg (by simp [opens]), openAfter_of_opens opens]

theorem outerTokens_nil_cons {token : Token} (opens : token.opens? = none) (rest : List Token) :
    outerTokens [] (token :: rest) = token :: outerTokens [] rest := by
  rw [outerTokens, if_pos ⟨rfl, opens⟩, openAfter_nil opens]

theorem outerTokens_inside {token : Token} (opens : token.opens? = none) (inner : Bracket)
    (outer : List Bracket) (rest : List Token) :
    outerTokens (inner :: outer) (token :: rest) =
      outerTokens (if token.closes? = some inner then outer else inner :: outer) rest := by
  rw [outerTokens, if_neg (by simp), openAfter_cons opens]

/-- Comments neither open nor close anything. -/
theorem outerTokens_filter (blocks : List Bracket) (tokens : List Token) :
    outerTokens blocks (tokens.filter fun token => token != .comment) =
      (outerTokens blocks tokens).filter fun token => token != .comment := by
  induction tokens generalizing blocks with
  | nil => rfl
  | cons token rest induction =>
      by_cases comment : token = .comment
      · subst comment
        rw [List.filter_cons_of_neg (by decide), induction, outerTokens,
          openAfter_of_neither rfl rfl]
        split
        · rw [List.filter_cons_of_neg (by decide)]
        · rfl
      · rw [List.filter_cons_of_pos (by simpa using comment), outerTokens, outerTokens, induction]
        split
        · rw [List.filter_cons_of_pos (by simpa using comment)]
        · rfl

/-! ## Components -/

namespace Component

def token? : Component → Option Token
  | .token single => some single
  | .block _ _ => none

private def outermost : List OpenBlock → List Component → List Component
  | [], read => read
  | inner :: outer, _ => outermost outer inner.before

/-- A block is no token, however deep it stands. -/
private theorem filterMap_outermost_block (opening : Token) (contents read : List Component)
    (blocks : List OpenBlock) :
    (outermost blocks (.block opening contents :: read)).filterMap token? =
      (outermost blocks read).filterMap token? := by
  cases blocks with
  | nil => rfl
  | cons inner outer => rfl

private theorem filterMap_closeAll (read : List Component) (blocks : List OpenBlock) :
    (closeAll read blocks).filterMap token? =
      ((outermost blocks read).filterMap token?).reverse := by
  induction blocks generalizing read with
  | nil => rw [closeAll, outermost, List.filterMap_reverse]
  | cons inner outer induction => rw [closeAll, induction, filterMap_outermost_block, outermost]

/-- The tokens among the components of tokens are those that were read outside of blocks, and then
those that stand in none of the blocks that are open. -/
theorem filterMap_nest (blocks : List OpenBlock) (read : List Component) (tokens : List Token) :
    (nest blocks read tokens).filterMap token? =
      ((outermost blocks read).filterMap token?).reverse ++
        outerTokens (blocks.map OpenBlock.bracket) tokens := by
  induction tokens generalizing blocks read with
  | nil => rw [nest, filterMap_closeAll, outerTokens, List.append_nil]
  | cons token rest induction =>
      cases opens : token.opens? with
      | some bracket =>
          rw [outerTokens_cons_of_opens opens]
          simp only [nest, opens, induction, List.map_cons]
          rfl
      | none =>
          cases blocks with
          | nil =>
              rw [List.map_nil, outerTokens_nil_cons opens]
              simp [nest, opens, induction, outermost, token?]
          | cons inner outer =>
              rw [List.map_cons, outerTokens_inside opens]
              by_cases closes : token.closes? = some inner.bracket
              · simp [nest, opens, closes, induction, filterMap_outermost_block, outermost]
              · simp [nest, opens, closes, induction, outermost]

/-- The tokens among the components of a text are the tokens of the text that stand in no block. -/
theorem filterMap_ofText (text : String) :
    (ofText text).filterMap token? =
      (outerTokens [] (Css.tokens text.toList)).filter fun token => token != .comment := by
  rw [ofText, filterMap_nest, List.map_nil, outerTokens_filter]
  rfl

end Component

end Stylebook.Css
