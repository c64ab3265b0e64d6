import Stylebook.Proofs.Css.Nesting

/-!
How much text tokens need. A token is read from one character at least, and a hash from two. So
tokens have no greater width than the text that they are read from, and neither have components.
-/

namespace Stylebook.Css

/-- The least number of characters that a token is read from. -/
def Token.width : Token → Nat
  | .hash _ => 2
  | _ => 1

/-! ## Tokens of a text -/

theorem length_name_lt {text : List Char}
    (begins : (startsName text || text.head?.any isNameCharacter) = true) :
    (name text).2.length < text.length := by
  cases text with
  | nil => cases begins
  | cons character rest =>
      have later := length_name rest
      rw [name, List.length_cons]
      by_cases backslash : character = '\\'
      · subst backslash
        have isEscape : isEscape rest = true := by
          simpa [startsName, isNameCharacter, isNameStart] using begins
        have afterEscape := length_name (escape rest).2
        have escaped := length_escape rest
        rw [if_pos rfl, if_pos isEscape]
        exact Nat.lt_succ_of_le (Nat.le_trans afterEscape escaped)
      · have isName : isNameCharacter character = true := by
          rw [Bool.or_eq_true] at begins
          rcases begins with begins | isName
          · unfold startsName at begins
            split at begins <;> simp_all [isNameCharacter]
          · exact isName
        rw [if_neg backslash, if_pos isName]
        exact Nat.lt_succ_of_le later

theorem width_urlEnd (address : String) (text : List Char) : (urlEnd address text).1.width = 1 := by
  fun_induction urlEnd address text with
  | case1 => rfl
  | case2 => rfl
  | case3 _ _ _ _ induction => exact induction
  | case4 => rfl

theorem width_urlRest (read text : List Char) : (urlRest read text).1.width = 1 := by
  fun_induction urlRest read text with
  | case1 => rfl
  | case2 => rfl
  | case3 => exact width_urlEnd _ _
  | case4 => rfl
  | case5 _ _ _ _ _ _ induction => exact induction
  | case6 => rfl
  | case7 _ _ _ _ _ _ _ induction => exact induction

theorem width_nameToken (first : Char) (rest : List Char) :
    (nameToken first rest).1.width = 1 := by
  unfold nameToken
  simp only
  split
  · split
    · exact width_urlRest _ _
    · rfl
  · rfl

theorem width_numberToken (after : List Char) : (numberToken after).1.width = 1 := by
  unfold numberToken
  split
  · rfl
  · split <;> rfl

theorem width_stringRest (quote : Char) (read text : List Char) :
    (stringRest quote read text).1.width = 1 := by
  fun_induction stringRest quote read text with
  | case1 => rfl
  | case2 => rfl
  | case3 => rfl
  | case4 => rfl
  | case5 _ _ _ _ _ _ induction => exact induction
  | case6 _ _ _ _ _ _ induction => exact induction
  | case7 _ _ _ _ _ _ induction => exact induction

theorem width_matcherToken (character : Char) (text : List Char) :
    (matcherToken character text).1.width = 1 := by
  unfold matcherToken
  split <;> rfl

theorem width_minusToken (rest : List Char) : (minusToken rest).1.width = 1 := by
  unfold minusToken
  split
  · exact width_numberToken _
  · split
    · rfl
    · split
      · exact width_nameToken _ _
      · rfl

theorem width_slashToken (rest : List Char) : (slashToken rest).1.width = 1 := by
  unfold slashToken
  split <;> rfl

theorem width_atToken (rest : List Char) : (atToken rest).1.width = 1 := by
  unfold atToken
  split <;> rfl

theorem width_backslashToken (rest : List Char) : (backslashToken rest).1.width = 1 := by
  unfold backslashToken
  split
  · exact width_nameToken _ _
  · rfl

theorem width_plainToken (character : Char) (rest : List Char) :
    (plainToken character rest).1.width = 1 := by
  unfold plainToken
  split
  · exact width_numberToken _
  · split
    · exact width_nameToken _ _
    · rfl

theorem width_nextToken_of_ne {character : Char} (other : character ≠ '#') (rest : List Char) :
    (nextToken character rest).1.width = 1 := by
  unfold nextToken
  split
  · rfl
  · split
    · exact width_stringRest _ _ _
    · exact width_stringRest _ _ _
    · exact absurd rfl other
    iterate 9 rfl
    iterate 5 exact width_matcherToken _ _
    · split
      · exact width_numberToken _
      · rfl
    · split
      · exact width_numberToken _
      · rfl
    · exact width_minusToken rest
    · exact width_slashToken rest
    · split <;> rfl
    · exact width_atToken rest
    · exact width_backslashToken rest
    · exact width_plainToken _ rest

/-- A hash has a name, and all other tokens have at least the character that they begin with. -/
theorem width_nextToken (character : Char) (rest : List Char) :
    (nextToken character rest).1.width + (nextToken character rest).2.length ≤ rest.length + 1 := by
  by_cases hash : character = '#'
  · subst hash
    have isHash : nextToken '#' rest = hashToken rest := rfl
    rw [isHash, hashToken]
    split
    next named =>
      have shorter := length_name_lt named
      simp only [Token.width]
      omega
    next => simp [Token.width, Nat.add_comm]
  · have shorter := length_nextToken character rest
    rw [width_nextToken_of_ne hash]
    omega

def widthOfTokens : List Token → Nat
  | [] => 0
  | token :: rest => token.width + widthOfTokens rest

theorem widthOfTokens_tokens (text : List Char) : widthOfTokens (tokens text) ≤ text.length := by
  induction length : text.length using Nat.strongRecOn generalizing text with
  | ind _ induction =>
      cases text with
      | nil => simp [tokens_nil, widthOfTokens]
      | cons character rest =>
          have first := width_nextToken character rest
          have shorter := length_nextToken character rest
          rw [List.length_cons] at length
          have later := induction _ (by omega) (nextToken character rest).2 rfl
          rw [tokens_cons, widthOfTokens]
          omega

theorem widthOfTokens_filter (keep : Token → Bool) (tokens : List Token) :
    widthOfTokens (tokens.filter keep) ≤ widthOfTokens tokens := by
  induction tokens with
  | nil => exact Nat.le_refl 0
  | cons token rest induction =>
      rw [List.filter_cons]
      split <;> (simp only [widthOfTokens]; omega)

/-! ## Components of a text -/

namespace Component

mutual

def width : Component → Nat
  | .token single => single.width
  | .block opening contents => opening.width + widthOf contents

def widthOf : List Component → Nat
  | [] => 0
  | component :: rest => component.width + widthOf rest

end

def widthOfOpen : List OpenBlock → Nat
  | [] => 0
  | inner :: outer => inner.opening.width + widthOf inner.before + widthOfOpen outer

theorem widthOf_append (left right : List Component) :
    widthOf (left ++ right) = widthOf left + widthOf right := by
  induction left with
  | nil => exact (Nat.zero_add _).symm
  | cons component rest induction =>
      rw [List.cons_append, widthOf, widthOf, induction, Nat.add_assoc]

theorem widthOf_reverse (components : List Component) :
    widthOf components.reverse = widthOf components := by
  induction components with
  | nil => rfl
  | cons component rest induction =>
      rw [List.reverse_cons, widthOf_append, induction, widthOf, widthOf, widthOf, Nat.add_zero,
        Nat.add_comm]

theorem widthOf_closeAll (read : List Component) (blocks : List OpenBlock) :
    widthOf (closeAll read blocks) = widthOf read + widthOfOpen blocks := by
  induction blocks generalizing read with
  | nil => rw [closeAll, widthOf_reverse, widthOfOpen, Nat.add_zero]
  | cons inner outer induction =>
      rw [closeAll, induction, widthOf, width, widthOf_reverse, widthOfOpen]
      omega

/-- Nothing is read twice, and the brackets that end blocks are left out. -/
theorem widthOf_nest (blocks : List OpenBlock) (read : List Component) (tokens : List Token) :
    widthOf (nest blocks read tokens) ≤
      widthOfOpen blocks + widthOf read + widthOfTokens tokens := by
  induction tokens generalizing blocks read with
  | nil =>
      rw [nest, widthOf_closeAll]
      omega
  | cons next rest induction =>
      rw [widthOfTokens]
      cases opens : next.opens? with
      | some bracket =>
          have inside := induction (⟨next, bracket, read⟩ :: blocks) []
          rw [nest_of_opens opens]
          simp only [widthOfOpen, widthOf] at inside
          omega
      | none =>
          have passed := induction blocks (.token next :: read)
          rw [widthOf, width] at passed
          cases blocks with
          | nil =>
              simp only [nest, opens]
              omega
          | cons inner outer =>
              have outside := induction outer (.block inner.opening read.reverse :: inner.before)
              rw [widthOf, width, widthOf_reverse] at outside
              simp only [nest, opens, widthOfOpen] at passed ⊢
              split <;> omega

theorem widthOf_ofText (text : String) : widthOf (ofText text) ≤ text.length := by
  have nested := widthOf_nest [] [] ((Css.tokens text.toList).filter fun token => token != .comment)
  have filtered := widthOfTokens_filter (fun token => token != .comment) (Css.tokens text.toList)
  have read := widthOfTokens_tokens text.toList
  rw [String.length_toList] at read
  rw [ofText]
  simp only [widthOfOpen, widthOf] at nested
  omega

end Component

end Stylebook.Css
