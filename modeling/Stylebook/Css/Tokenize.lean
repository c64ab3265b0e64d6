import Stylebook.Css.Token
import Stylebook.Decimal.Reading

/-!
Splitting CSS text into tokens. Each reader takes the text at the beginning of a part
and returns the part with the text after it, which is never longer than the text
before; that is why tokenizing ends.
-/

namespace Stylebook.Css

/-! ## Character classes -/

def isNewline (character : Char) : Bool :=
  character == '\n' || character == '\r' || character == '\x0c'

def isBlank (character : Char) : Bool :=
  character == ' ' || character == '\t' || isNewline character

def isNameStart (character : Char) : Bool :=
  character.isAlpha || character == '_' || character == '\x00' || character.toNat ≥ 0x80

def isNameCharacter (character : Char) : Bool :=
  isNameStart character || character.isDigit || character == '-'

def isUnprintable (character : Char) : Bool :=
  let code := character.toNat
  (0x01 ≤ code && code ≤ 0x08) || code == 0x0B || (0x0E ≤ code && code ≤ 0x1F) || code == 0x7F

def replacement : Char := '\ufffd'

def orReplacement (character : Char) : Char :=
  if character = '\x00' then replacement else character

def isEscape : List Char → Bool
  | [] => true
  | character :: _ => !isNewline character

/-- Whether a name begins here. A backslash after a minus sign is taken for an escape
without a look at what follows it; if that is none, the minus sign is the whole name. -/
def startsName : List Char → Bool
  | [] => false
  | '-' :: '-' :: _ => true
  | '-' :: '\\' :: _ => true
  | '-' :: character :: _ => isNameStart character
  | '\\' :: rest => isEscape rest
  | character :: _ => isNameStart character

def startsDigit : List Char → Bool
  | [] => false
  | character :: _ => character.isDigit

def startsNumber : List Char → Bool
  | '.' :: rest => startsDigit rest
  | rest => startsDigit rest

/-! ## Escapes -/

def dropBlank : List Char → List Char
  | '\r' :: '\n' :: rest => rest
  | character :: rest => if isBlank character then rest else character :: rest
  | [] => []

theorem length_dropBlank (text : List Char) : (dropBlank text).length ≤ text.length := by
  unfold dropBlank
  split
  · simp only [List.length_cons]; omega
  · split <;> simp
  · simp

/-- Up to `count` leading hexadecimal digits as a number after `value`, and the rest. -/
def takeHex (value : Nat) : Nat → List Char → Nat × List Char
  | 0, text => (value, text)
  | _ + 1, [] => (value, [])
  | count + 1, character :: rest =>
      match Decimal.digitValue? 16 character with
      | some digit => takeHex (16 * value + digit) count rest
      | none => (value, character :: rest)

theorem length_takeHex (value count : Nat) (text : List Char) :
    (takeHex value count text).2.length ≤ text.length := by
  fun_induction takeHex value count text with
  | case1 => simp
  | case2 => simp
  | case3 value count character rest digit found ih => simp only [List.length_cons]; omega
  | case4 => simp

def characterOfCode (code : Nat) : Char :=
  if code = 0 ∨ ¬ code.isValidChar then replacement else Char.ofNat code

/-- What an escape stands for, read after its backslash. A blank after hexadecimal
digits belongs to the escape. -/
def escape : List Char → Char × List Char
  | [] => (replacement, [])
  | character :: rest =>
      match Decimal.digitValue? 16 character with
      | some digit =>
          let (code, after) := takeHex digit 5 rest
          (characterOfCode code, dropBlank after)
      | none => (orReplacement character, rest)

theorem length_escape (text : List Char) : (escape text).2.length ≤ text.length := by
  unfold escape
  split
  · simp
  · next character rest =>
    split
    · next digit _ =>
      have := length_takeHex digit 5 rest
      have := length_dropBlank (takeHex digit 5 rest).2
      simp only [List.length_cons]
      omega
    · simp

/-! ## Names -/

def name : List Char → List Char × List Char
  | [] => ([], [])
  | character :: rest =>
      if character = '\\' then
        if isEscape rest then
          let (later, after) := name (escape rest).2
          ((escape rest).1 :: later, after)
        else ([], character :: rest)
      else if isNameCharacter character then
        let (later, after) := name rest
        (orReplacement character :: later, after)
      else ([], character :: rest)
  termination_by text => text.length
  decreasing_by
    · have := length_escape rest; simp only [List.length_cons]; omega
    · simp

theorem length_name (text : List Char) : (name text).2.length ≤ text.length := by
  fun_induction name text with
  | case1 => simp
  | case2 rest _ later after found ih =>
      have := length_escape rest
      rw [found] at ih
      simp only [List.length_cons] at *
      omega
  | case3 => simp
  | case4 character rest _ _ later after found ih =>
      rw [found] at ih
      simp only [List.length_cons] at *
      omega
  | case5 => simp

/-! ## Strings -/

/-- Reads on in a string up to its closing quote; `read` is its text in reverse. A
newline that is not escaped ends a bad string. -/
def stringRest (quote : Char) (read : List Char) : List Char → Token × List Char
  | [] => (.string (String.ofList read.reverse), [])
  | character :: rest =>
      if character = quote then (.string (String.ofList read.reverse), rest)
      else if isNewline character then (.badString, character :: rest)
      else if character = '\\' then
        if rest.isEmpty then (.string (String.ofList read.reverse), [])
        else if rest.head?.any isNewline then stringRest quote read (dropBlank rest)
        else stringRest quote ((escape rest).1 :: read) (escape rest).2
      else stringRest quote (orReplacement character :: read) rest
  termination_by text => text.length
  decreasing_by
    · have := length_dropBlank rest; simp only [List.length_cons]; omega
    · have := length_escape rest; simp only [List.length_cons]; omega
    · simp

theorem length_stringRest (quote : Char) (read text : List Char) :
    (stringRest quote read text).2.length ≤ text.length := by
  fun_induction stringRest quote read text with
  | case1 => simp
  | case2 => simp
  | case3 => simp
  | case4 => simp
  | case5 read rest _ _ _ _ ih =>
      have := length_dropBlank rest; simp only [List.length_cons]; omega
  | case6 read rest _ _ _ _ ih =>
      have := length_escape rest; simp only [List.length_cons]; omega
  | case7 => simp only [List.length_cons]; omega

/-! ## Addresses -/

/-- The text after a malformed address, which ends with a closing bracket that has no
backslash before it. -/
def afterBadUrl : List Char → List Char
  | [] => []
  | '\\' :: ')' :: rest => afterBadUrl rest
  | '\\' :: '\\' :: rest => afterBadUrl rest
  | character :: rest => if character = ')' then rest else afterBadUrl rest

theorem length_afterBadUrl (text : List Char) : (afterBadUrl text).length ≤ text.length := by
  fun_induction afterBadUrl text <;> simp_all <;> omega

def urlEnd (address : String) : List Char → Token × List Char
  | [] => (.url address, [])
  | character :: rest =>
      if character = ')' then (.url address, rest)
      else if isBlank character then urlEnd address rest
      else (.badUrl, afterBadUrl rest)

theorem length_urlEnd (address : String) (text : List Char) :
    (urlEnd address text).2.length ≤ text.length := by
  fun_induction urlEnd address text with
  | case1 => simp
  | case2 => simp
  | case3 => simp only [List.length_cons]; omega
  | case4 character rest _ _ =>
      have := length_afterBadUrl rest; simp only [List.length_cons]; omega

def urlRest (read : List Char) : List Char → Token × List Char
  | [] => (.url (String.ofList read.reverse), [])
  | character :: rest =>
      if character = ')' then (.url (String.ofList read.reverse), rest)
      else if isBlank character then urlEnd (String.ofList read.reverse) (character :: rest)
      else if isUnprintable character || character == '"' || character == '\'' ||
          character == '(' then
        (.badUrl, afterBadUrl rest)
      else if character = '\\' then
        if isEscape rest then urlRest ((escape rest).1 :: read) (escape rest).2
        else (.badUrl, afterBadUrl rest)
      else urlRest (orReplacement character :: read) rest
  termination_by text => text.length
  decreasing_by
    · have := length_escape rest; simp only [List.length_cons]; omega
    · simp

theorem length_urlRest (read text : List Char) : (urlRest read text).2.length ≤ text.length := by
  fun_induction urlRest read text with
  | case1 => simp
  | case2 => simp
  | case3 read character rest => exact length_urlEnd _ _
  | case4 read character rest =>
      have := length_afterBadUrl rest; simp only [List.length_cons]; omega
  | case5 read rest _ _ _ _ ih =>
      have := length_escape rest; simp only [List.length_cons]; omega
  | case6 read rest =>
      have := length_afterBadUrl rest; simp only [List.length_cons]; omega
  | case7 => simp only [List.length_cons]; omega

def isUrlName (name : List Char) : Bool := name.map Char.toLower == ['u', 'r', 'l']

/-- The token whose name begins with a character that was read, `rest` being the text
after it. An address in quotes makes a function of `url`. -/
def nameToken (first : Char) (rest : List Char) : Token × List Char :=
  let written := first :: (name rest).1
  match (name rest).2 with
  | '(' :: inside =>
      let address := inside.dropWhile isBlank
      if isUrlName written && address.head? != some '"' && address.head? != some '\'' then
        urlRest [] address
      else (.function (String.ofList written), inside)
  | after => (.identifier (String.ofList written), after)

theorem length_nameToken (first : Char) (rest : List Char) :
    (nameToken first rest).2.length ≤ rest.length := by
  have bound := length_name rest
  unfold nameToken
  simp only
  split
  · next inside found =>
    rw [found] at bound
    simp only [List.length_cons] at bound
    split
    · have := length_urlRest [] (inside.dropWhile isBlank)
      have := (List.dropWhile_sublist isBlank (l := inside)).length_le
      omega
    · simp only; omega
  · exact bound

/-! ## Numbers -/

def dropExponent : List Char → List Char
  | mark :: sign :: digit :: rest =>
      if mark = 'e' ∨ mark = 'E' then
        if sign.isDigit then (sign :: digit :: rest).dropWhile Char.isDigit
        else if (sign = '+' ∨ sign = '-') ∧ digit.isDigit then
          (digit :: rest).dropWhile Char.isDigit
        else mark :: sign :: digit :: rest
      else mark :: sign :: digit :: rest
  | [mark, digit] => if (mark = 'e' ∨ mark = 'E') ∧ digit.isDigit then [] else [mark, digit]
  | rest => rest

theorem length_dropExponent (text : List Char) : (dropExponent text).length ≤ text.length := by
  unfold dropExponent
  split
  · next mark sign digit rest =>
    have := (List.dropWhile_sublist Char.isDigit (l := sign :: digit :: rest)).length_le
    have := (List.dropWhile_sublist Char.isDigit (l := digit :: rest)).length_le
    simp only [List.length_cons] at *
    split
    · split
      · omega
      · split
        · omega
        · simp
    · simp
  · split <;> simp
  · simp

def dropFraction : List Char → List Char
  | '.' :: digit :: rest =>
      if digit.isDigit then rest.dropWhile Char.isDigit else '.' :: digit :: rest
  | rest => rest

theorem length_dropFraction (text : List Char) : (dropFraction text).length ≤ text.length := by
  unfold dropFraction
  split
  · next digit rest =>
    have := (List.dropWhile_sublist Char.isDigit (l := rest)).length_le
    split
    · simp only [List.length_cons]; omega
    · simp
  · simp

def numberToken (after : List Char) : Token × List Char :=
  match after with
  | '%' :: rest => (.percentage, rest)
  | after =>
      if startsName after then (.dimension (String.ofList (name after).1), (name after).2)
      else (.number, after)

theorem length_numberToken (after : List Char) :
    (numberToken after).2.length ≤ after.length := by
  have := length_name after
  unfold numberToken
  split
  · simp
  · split
    · exact this
    · simp

/-- The text after a number of which a sign or a digit was read. -/
def dropNumber (rest : List Char) : List Char :=
  dropExponent (dropFraction (rest.dropWhile Char.isDigit))

theorem length_dropNumber (rest : List Char) : (dropNumber rest).length ≤ rest.length := by
  unfold dropNumber
  have := length_dropExponent (dropFraction (rest.dropWhile Char.isDigit))
  have := length_dropFraction (rest.dropWhile Char.isDigit)
  have := (List.dropWhile_sublist Char.isDigit (l := rest)).length_le
  omega

def dropDecimals (rest : List Char) : List Char := dropExponent (rest.dropWhile Char.isDigit)

theorem length_dropDecimals (rest : List Char) : (dropDecimals rest).length ≤ rest.length := by
  unfold dropDecimals
  have := length_dropExponent (rest.dropWhile Char.isDigit)
  have := (List.dropWhile_sublist Char.isDigit (l := rest)).length_le
  omega

/-! ## Comments -/

def afterComment : List Char → List Char
  | [] => []
  | '*' :: '/' :: rest => rest
  | _ :: rest => afterComment rest

theorem length_afterComment (text : List Char) : (afterComment text).length ≤ text.length := by
  fun_induction afterComment text <;> simp_all <;> omega

/-! ## Tokens -/

def matcherToken (character : Char) : List Char → Token × List Char
  | '=' :: rest => (.matcher character, rest)
  | rest => (.delimiter character, rest)

theorem length_matcherToken (character : Char) (text : List Char) :
    (matcherToken character text).2.length ≤ text.length := by
  unfold matcherToken
  split <;> simp

def hashToken (rest : List Char) : Token × List Char :=
  if startsName rest || rest.head?.any isNameCharacter then
    (.hash (String.ofList (name rest).1), (name rest).2)
  else (.delimiter '#', rest)

theorem length_hashToken (rest : List Char) : (hashToken rest).2.length ≤ rest.length := by
  have := length_name rest
  unfold hashToken
  split
  · exact this
  · simp

def atToken (rest : List Char) : Token × List Char :=
  if startsName rest then (.atKeyword (String.ofList (name rest).1), (name rest).2)
  else (.delimiter '@', rest)

theorem length_atToken (rest : List Char) : (atToken rest).2.length ≤ rest.length := by
  have := length_name rest
  unfold atToken
  split
  · exact this
  · simp

def minusToken (rest : List Char) : Token × List Char :=
  if startsNumber rest then numberToken (dropNumber rest)
  else if rest.take 2 == ['-', '>'] then (.documentComment, rest.drop 2)
  else if startsName ('-' :: rest) then nameToken '-' rest
  else (.delimiter '-', rest)

theorem length_minusToken (rest : List Char) : (minusToken rest).2.length ≤ rest.length := by
  have := length_numberToken (dropNumber rest)
  have := length_dropNumber rest
  have := length_nameToken '-' rest
  unfold minusToken
  split
  · omega
  · split
    · simp
    · split
      · exact this
      · simp

def slashToken : List Char → Token × List Char
  | '*' :: inside => (.comment, afterComment inside)
  | rest => (.delimiter '/', rest)

theorem length_slashToken (rest : List Char) : (slashToken rest).2.length ≤ rest.length := by
  unfold slashToken
  split
  · next inside =>
    have := length_afterComment inside
    simp only [List.length_cons]
    omega
  · simp

def backslashToken (rest : List Char) : Token × List Char :=
  if isEscape rest then nameToken (escape rest).1 (escape rest).2
  else (.delimiter '\\', rest)

theorem length_backslashToken (rest : List Char) :
    (backslashToken rest).2.length ≤ rest.length := by
  have := length_nameToken (escape rest).1 (escape rest).2
  have := length_escape rest
  unfold backslashToken
  split
  · omega
  · simp

def plainToken (character : Char) (rest : List Char) : Token × List Char :=
  if character.isDigit then numberToken (dropNumber rest)
  else if isNameStart character then nameToken (orReplacement character) rest
  else (.delimiter character, rest)

theorem length_plainToken (character : Char) (rest : List Char) :
    (plainToken character rest).2.length ≤ rest.length := by
  have := length_numberToken (dropNumber rest)
  have := length_dropNumber rest
  have := length_nameToken (orReplacement character) rest
  unfold plainToken
  split
  · omega
  · split
    · exact this
    · simp

def nextToken (character : Char) (rest : List Char) : Token × List Char :=
  if isBlank character then (.blank, rest.dropWhile isBlank)
  else
    match character with
    | '"' => stringRest '"' [] rest
    | '\'' => stringRest '\'' [] rest
    | '#' => hashToken rest
    | '(' => (.opening .round, rest)
    | '[' => (.opening .square, rest)
    | '{' => (.opening .curly, rest)
    | ')' => (.closing .round, rest)
    | ']' => (.closing .square, rest)
    | '}' => (.closing .curly, rest)
    | ',' => (.comma, rest)
    | ':' => (.colon, rest)
    | ';' => (.semicolon, rest)
    | '$' => matcherToken '$' rest
    | '*' => matcherToken '*' rest
    | '^' => matcherToken '^' rest
    | '|' => matcherToken '|' rest
    | '~' => matcherToken '~' rest
    | '+' =>
        if startsNumber rest then numberToken (dropNumber rest) else (.delimiter '+', rest)
    | '.' =>
        if startsDigit rest then numberToken (dropDecimals rest) else (.delimiter '.', rest)
    | '-' => minusToken rest
    | '/' => slashToken rest
    | '<' =>
        if rest.take 3 == ['!', '-', '-'] then (.documentComment, rest.drop 3)
        else (.delimiter '<', rest)
    | '@' => atToken rest
    | '\\' => backslashToken rest
    | character => plainToken character rest

theorem length_nextToken (character : Char) (rest : List Char) :
    (nextToken character rest).2.length ≤ rest.length := by
  have ofNumber := length_numberToken (dropNumber rest)
  have ofDropNumber := length_dropNumber rest
  have ofDecimals := length_numberToken (dropDecimals rest)
  have ofDropDecimals := length_dropDecimals rest
  unfold nextToken
  split
  · exact (List.dropWhile_sublist isBlank).length_le
  · split
    · exact length_stringRest _ _ _
    · exact length_stringRest _ _ _
    · exact length_hashToken rest
    · simp
    · simp
    · simp
    · simp
    · simp
    · simp
    · simp
    · simp
    · simp
    · exact length_matcherToken _ _
    · exact length_matcherToken _ _
    · exact length_matcherToken _ _
    · exact length_matcherToken _ _
    · exact length_matcherToken _ _
    · split
      · omega
      · simp
    · split
      · omega
      · simp
    · exact length_minusToken rest
    · exact length_slashToken rest
    · split <;> simp
    · exact length_atToken rest
    · exact length_backslashToken rest
    · exact length_plainToken _ rest

/-- The tokens of a text behind those that were read before, which `read` holds in reverse. A text
may have too many tokens for a recursion that waits for those after each of them. -/
def tokensOnto (read : List Token) : List Char → List Token
  | [] => read.reverse
  | character :: rest =>
      tokensOnto ((nextToken character rest).1 :: read) (nextToken character rest).2
  termination_by text => text.length
  decreasing_by
    have := length_nextToken character rest
    simp only [List.length_cons]
    omega

def tokens (text : List Char) : List Token := tokensOnto [] text

theorem tokensOnto_append (before read : List Token) (text : List Char) :
    tokensOnto (read ++ before) text = before.reverse ++ tokensOnto read text := by
  fun_induction tokensOnto read text with
  | case1 => rw [tokensOnto, List.reverse_append]
  | case2 _ _ _ induction => rw [tokensOnto, ← induction, List.cons_append]

theorem tokens_nil : tokens [] = [] := by
  rw [tokens, tokensOnto, List.reverse_nil]

theorem tokens_cons (character : Char) (rest : List Char) : tokens (character :: rest) =
    (nextToken character rest).1 :: tokens (nextToken character rest).2 := by
  rw [tokens, tokensOnto, ← List.nil_append [_], tokensOnto_append, tokens]
  rfl

end Stylebook.Css
