import Stylebook.Yaml.Token.Basic

/-!
Quoted scalars. Between single quotes a quote is written twice; between double quotes
a backslash starts an escape. Line breaks fold in both.
-/

namespace Stylebook.Yaml

def hexValue? (character : Char) : Option Nat :=
  if '0' ≤ character ∧ character ≤ '9' then some (character.toNat - '0'.toNat)
  else if 'a' ≤ character ∧ character ≤ 'f' then some (character.toNat - 'a'.toNat + 10)
  else if 'A' ≤ character ∧ character ≤ 'F' then some (character.toNat - 'A'.toNat + 10)
  else none

/-! ## Escapes -/

def simpleEscape? : Char → Option Char
  | '0' => some '\x00'
  | 'a' => some '\x07'
  | 'b' => some '\x08'
  | 't' => some '\t'
  | '\t' => some '\t'
  | 'n' => some '\n'
  | 'v' => some '\x0b'
  | 'f' => some '\x0c'
  | 'r' => some '\r'
  | 'e' => some '\x1b'
  | ' ' => some ' '
  | '"' => some '"'
  | '/' => some '/'
  | '\\' => some '\\'
  | 'N' => some '\u0085'
  | '_' => some '\u00a0'
  | 'L' => some '\u2028'
  | 'P' => some '\u2029'
  | _ => none

def escapeDigits? : Char → Option Nat
  | 'x' => some 2
  | 'u' => some 4
  | 'U' => some 8
  | _ => none

def hexNumber? (value : Nat) : Nat → List Char → Option Nat
  | 0, _ => some value
  | _ + 1, [] => none
  | count + 1, character :: rest =>
      match hexValue? character with
      | some digit => hexNumber? (16 * value + digit) count rest
      | none => none

def charOfCode? (code : Nat) : Option Char :=
  if code.isValidChar then some (Char.ofNat code) else none

/-! ## The scalar -/

/-- The state between the characters of a quoted scalar that began at `start`: its text
so far in reverse, and the gap since then. -/
structure QuotedState where
  start : Mark
  read : List Char := []
  gap : Gap := {}
  deriving Repr, Inhabited

namespace QuotedState

def add (state : QuotedState) (character : Char) : QuotedState :=
  { state with read := character :: (state.gap.text.reverse ++ state.read), gap := {} }

/-- The state after an escaped line break, which begins a gap that stands for nothing. -/
def escapeBreak (state : QuotedState) : QuotedState :=
  { state with read := state.gap.text.reverse ++ state.read, gap := { broken := true } }

def addBlank (state : QuotedState) (character : Char) : QuotedState :=
  { state with gap := state.gap.addBlank character }

def addBreak (state : QuotedState) (text : List Char) : QuotedState :=
  { state with gap := state.gap.addBreak text }

def text (state : QuotedState) : String :=
  String.ofList (state.gap.text.reverse ++ state.read).reverse

def fault (state : QuotedState) (activity : Activity) (problem : Problem) (mark : Mark) : Fault :=
  .during activity state.start problem mark

end QuotedState

def Mark.advance (mark : Mark) (count : Nat) : Mark :=
  { mark with index := mark.index + count, column := mark.column + count }

def quotedRest (single : Bool) (state : QuotedState) (mark : Mark) (text : List Char) :
    Except Fault (String × Cursor) :=
  match text with
  | [] => .error (state.fault .quotedScalar .endInQuotes mark)
  | '\r' :: '\n' :: rest => quotedRest single (state.addBreak ['\n']) (mark.nextLine 2) rest
  | character :: rest =>
      if isBreak character then
        quotedRest single (state.addBreak (Cursor.breakText character))
          (mark.nextLine character.utf8Size) rest
      else if isBlank character then
        quotedRest single (state.addBlank character) (mark.next character) rest
      else if mark.column == 0 && startsIndicator (character :: rest) then
        .error (state.fault .quotedScalar .documentIndicatorInQuotes mark)
      else if single then
        if character != '\'' then
          quotedRest single (state.add character) (mark.next character) rest
        else if rest.head? == some '\'' then
          quotedRest single (state.add '\'') (mark.advance 2) (rest.drop 1)
        else .ok (state.text, ⟨rest, mark.next character⟩)
      else if character == '"' then .ok (state.text, ⟨rest, mark.next character⟩)
      else if character != '\\' then
        quotedRest single (state.add character) (mark.next character) rest
      else
        match rest with
        | [] => .error (state.fault .escape .unknownEscape mark)
        | '\r' :: '\n' :: later =>
            quotedRest single state.escapeBreak ((mark.next character).nextLine 2) later
        | letter :: later =>
            if isBreak letter then
              quotedRest single state.escapeBreak
                ((mark.next character).nextLine letter.utf8Size) later
            else
              match simpleEscape? letter, escapeDigits? letter with
              | some meant, _ => quotedRest single (state.add meant) (mark.advance 2) later
              | none, none => .error (state.fault .escape .unknownEscape mark)
              | none, some digits =>
                  match hexNumber? 0 digits later with
                  | none => .error (state.fault .escape .hexDigitExpected (mark.advance 2))
                  | some code =>
                      match charOfCode? code with
                      | none => .error (state.fault .escape .badCodePoint (mark.advance 2))
                      | some meant =>
                          quotedRest single (state.add meant) (mark.advance (2 + digits))
                            (later.drop digits)
  termination_by text.length
  decreasing_by all_goals (simp only [List.length_cons, List.length_drop]; omega)

def quotedScalar (single : Bool) (cursor : Cursor) : Except Fault (String × Cursor) :=
  quotedRest single { start := cursor.mark } cursor.next.mark cursor.next.rest

end Stylebook.Yaml
