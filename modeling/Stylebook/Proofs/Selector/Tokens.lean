import Stylebook.Proofs.Css.Outer
import Stylebook.Proofs.Selector.Scan

/-!
Two ways to cut a selector list. `split` goes through its characters; here the list is cut at the
commas among its tokens that stand in no block, which are those that separate the members of a
list when its components are looked at. The two agree exactly if the scan of the characters is in
step with the tokens: it meets a comma with nothing open exactly where no block is open, and cuts
no other token.
-/

namespace Stylebook.Selector

open Css OpenMarks

/-! ## Cutting by tokens -/

/-- The parts of a list between the commas that stand in no block. There is always one. -/
def tokenPieces (blocks : List Bracket) : List Lexeme → List (List Char)
  | [] => [[]]
  | lexeme :: rest =>
      if blocks = [] ∧ lexeme.token = .comma then [] :: tokenPieces blocks rest
      else (tokenPieces (openAfter blocks lexeme.token) rest).modifyHead (lexeme.written ++ ·)

def trimmedPieces (pieces : List (List Char)) : List (List Char) :=
  (pieces.map Text.trim).filter fun member => !member.isEmpty

theorem members_eq_trimmedPieces (text : List Char) :
    members text = trimmedPieces (pieces {} text) := rfl

def splitByTokens (list : String) : List String :=
  (trimmedPieces (tokenPieces [] (lexemes list.toList))).map String.ofList

/-! ## Commas among components -/

def isComma : Component → Bool
  | .token .comma => true
  | _ => false

def outerCommas (blocks : List Bracket) : List Token → Nat
  | [] => 0
  | token :: rest =>
      (if blocks = [] ∧ token = .comma then 1 else 0) + outerCommas (openAfter blocks token) rest

theorem length_tokenPieces_eq (blocks : List Bracket) (lexemes : List Lexeme) :
    (tokenPieces blocks lexemes).length = outerCommas blocks (lexemes.map Lexeme.token) + 1 := by
  induction lexemes generalizing blocks with
  | nil => rfl
  | cons lexeme rest induction =>
      rw [tokenPieces, List.map_cons, outerCommas]
      by_cases cut : blocks = [] ∧ lexeme.token = .comma
      · rcases cut with ⟨rfl, comma⟩
        rw [if_pos ⟨rfl, comma⟩, if_pos ⟨rfl, comma⟩, List.length_cons, induction, comma]
        have outside : openAfter [] .comma = [] := rfl
        rw [outside]
        omega
      · rw [if_neg cut, if_neg cut, List.length_modifyHead, induction]
        omega

theorem outerCommas_eq_count (blocks : List Bracket) (tokens : List Token) :
    outerCommas blocks tokens = (outerTokens blocks tokens).count .comma := by
  induction tokens generalizing blocks with
  | nil => rfl
  | cons token rest induction =>
      rw [outerCommas, outerTokens, induction]
      by_cases comma : token = .comma
      · subst comma
        have opens : Token.comma.opens? = none := rfl
        simp only [opens, and_true]
        split
        · rw [List.count_cons_self, Nat.add_comm]
        · rw [Nat.zero_add]
      · rw [if_neg (fun both => comma both.2), Nat.zero_add]
        split
        · rw [List.count_cons_of_ne comma]
        · rfl

theorem countP_isComma (components : List Component) :
    components.countP isComma = (components.filterMap Component.token?).count .comma := by
  rw [List.count, List.countP_filterMap]
  refine List.countP_congr fun component _ => ?_
  cases component with
  | block opening contents => simp [isComma, Component.token?]
  | token single => cases single <;> simp [isComma, Component.token?]

/-- The list is cut at the commas among its components. -/
theorem length_tokenPieces (list : String) :
    (tokenPieces [] (lexemes list.toList)).length =
      (Component.ofText list).countP isComma + 1 := by
  rw [length_tokenPieces_eq, ← tokens_eq_map_lexemes, outerCommas_eq_count, countP_isComma,
    Component.filterMap_ofText, List.count_filter (by decide)]

end Stylebook.Selector
