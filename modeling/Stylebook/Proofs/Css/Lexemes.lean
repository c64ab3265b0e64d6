import Mathlib.Data.List.Basic
import Stylebook.Css.Component
import Stylebook.Proofs.Text.Trim

/-!
Lexemes: the tokens of a text, each with the part of the text that it was read from. The parts
in a row make up the text, and every reader leaves an end of the text that it was given. Commas
and brackets are written as they are; the other tokens hold quotes, brackets and commas only
behind a backslash, within quotes, in comments or in addresses.
-/

namespace Stylebook.Css

/-! ## Marks -/

def listMarks : List Char := ['"', '\'', '(', ')', '[', ']', ',']

/-- There is none of these characters in the text up to its first backslash. -/
def Unmarked : List Char → Prop
  | [] => True
  | character :: rest => character = '\\' ∨ character ∉ listMarks ∧ Unmarked rest

theorem Unmarked.append {left right : List Char} (ofLeft : Unmarked left)
    (ofRight : Unmarked right) : Unmarked (left ++ right) := by
  induction left with
  | nil => exact ofRight
  | cons head tail induction =>
      rcases ofLeft with backslash | ⟨plain, ofTail⟩
      · exact .inl backslash
      · exact .inr ⟨plain, induction ofTail⟩

theorem unmarked_of_forall {text : List Char} (plain : ∀ character ∈ text, character ∉ listMarks) :
    Unmarked text := by
  induction text with
  | nil => trivial
  | cons head tail induction =>
      rw [List.forall_mem_cons] at plain
      exact .inr ⟨plain.1, induction plain.2⟩

theorem Unmarked.not_mem_of_append {left right : List Char} {character : Char}
    (unmarked : Unmarked (left ++ character :: right)) (unescaped : '\\' ∉ left)
    (notBackslash : character ≠ '\\') : character ∉ listMarks := by
  induction left with
  | nil =>
      rcases unmarked with backslash | ⟨plain, _⟩
      · exact absurd backslash notBackslash
      · exact plain
  | cons head tail induction =>
      rw [List.mem_cons, not_or] at unescaped
      rcases unmarked with backslash | ⟨_, ofTail⟩
      · exact absurd backslash.symm unescaped.1
      · exact induction ofTail unescaped.2

theorem Unmarked.not_mem {text : List Char} (unmarked : Unmarked text) (unescaped : '\\' ∉ text) :
    ∀ character ∈ text, character ∉ listMarks := by
  intro character isCharacter
  rcases List.append_of_mem isCharacter with ⟨left, right, rfl⟩
  refine unmarked.not_mem_of_append ?_ ?_
  · exact fun inLeft => unescaped (List.mem_append_left _ inLeft)
  · intro backslash
    subst backslash
    exact unescaped isCharacter

/-! ## Reading -/

def Reads (text after : List Char) : Prop :=
  ∃ written, text = written ++ after ∧ Unmarked written

namespace Reads

variable {text between after : List Char}

theorem refl (text : List Char) : Reads text text := ⟨[], rfl, trivial⟩

theorem trans (first : Reads text between) (second : Reads between after) : Reads text after := by
  rcases first with ⟨left, rfl, ofLeft⟩
  rcases second with ⟨right, rfl, ofRight⟩
  exact ⟨left ++ right, (List.append_assoc left right after).symm, ofLeft.append ofRight⟩

theorem cons {character : Char} (plain : character ∉ listMarks) (later : Reads text after) :
    Reads (character :: text) after := by
  rcases later with ⟨written, rfl, unmarked⟩
  exact ⟨character :: written, rfl, .inr ⟨plain, unmarked⟩⟩

theorem escaped (suffix : after <:+ text) : Reads ('\\' :: text) after := by
  rcases suffix with ⟨written, rfl⟩
  exact ⟨'\\' :: written, rfl, .inl rfl⟩

theorem dropWhile {accept : Char → Bool}
    (plain : ∀ character, accept character = true → character ∉ listMarks) (text : List Char) :
    Reads text (text.dropWhile accept) := by
  refine ⟨text.takeWhile accept, List.takeWhile_append_dropWhile.symm, unmarked_of_forall ?_⟩
  exact fun character isTaken => plain character (List.mem_takeWhile_imp isTaken)

theorem suffix (reads : Reads text after) : after <:+ text := by
  rcases reads with ⟨written, rfl, _⟩
  exact List.suffix_append written after

end Reads

/-! ## Characters -/

theorem not_mem_listMarks_of_class {accept : Char → Bool}
    (rejects : listMarks.any accept = false) (character : Char)
    (accepted : accept character = true) : character ∉ listMarks := by
  intro isMark
  exact List.any_eq_false.mp rejects character isMark accepted

theorem not_mem_listMarks_of_isBlank : ∀ character, isBlank character = true →
    character ∉ listMarks :=
  not_mem_listMarks_of_class rfl

theorem not_mem_listMarks_of_isDigit : ∀ character, Char.isDigit character = true →
    character ∉ listMarks :=
  not_mem_listMarks_of_class rfl

theorem not_mem_listMarks_of_isNameCharacter : ∀ character, isNameCharacter character = true →
    character ∉ listMarks :=
  not_mem_listMarks_of_class rfl

/-! ## Readers -/

theorem suffix_dropBlank (text : List Char) : dropBlank text <:+ text := by
  unfold dropBlank
  split
  · exact ⟨['\r', '\n'], rfl⟩
  · split
    · exact List.suffix_cons _ _
    · exact List.suffix_rfl
  · exact List.suffix_rfl

theorem suffix_takeHex (value count : Nat) (text : List Char) :
    (takeHex value count text).2 <:+ text := by
  fun_induction takeHex value count text with
  | case1 => exact List.suffix_rfl
  | case2 => exact List.suffix_rfl
  | case3 value count character rest digit found induction =>
      exact induction.trans (List.suffix_cons _ _)
  | case4 => exact List.suffix_rfl

theorem suffix_escape (text : List Char) : (escape text).2 <:+ text := by
  unfold escape
  split
  · exact List.suffix_rfl
  · next character rest =>
    split
    · next digit _ =>
      exact ((suffix_dropBlank _).trans (suffix_takeHex digit 5 rest)).trans
        (List.suffix_cons character rest)
    · exact List.suffix_cons character rest

theorem reads_name (text : List Char) : Reads text (name text).2 := by
  fun_induction name text with
  | case1 => exact .refl []
  | case2 rest _ later after found induction =>
      rw [found] at induction
      exact .escaped (induction.suffix.trans (suffix_escape rest))
  | case3 => exact .refl _
  | case4 character rest _ accepted later after found induction =>
      rw [found] at induction
      exact induction.cons (not_mem_listMarks_of_isNameCharacter character accepted)
  | case5 => exact .refl _

theorem reads_dropExponent (text : List Char) : Reads text (dropExponent text) := by
  have digits := Reads.dropWhile not_mem_listMarks_of_isDigit
  unfold dropExponent
  split
  · next mark sign digit rest =>
    split
    · next exponent =>
      have plain : mark ∉ listMarks := by rcases exponent with rfl | rfl <;> decide
      split
      · exact (digits _).cons plain
      · split
        · next signed =>
          have signPlain : sign ∉ listMarks := by rcases signed.1 with rfl | rfl <;> decide
          exact ((digits _).cons signPlain).cons plain
        · exact .refl _
    · exact .refl _
  · next mark digit =>
    split
    · next exponent =>
      have plain : mark ∉ listMarks := by rcases exponent.1 with rfl | rfl <;> decide
      exact ((Reads.refl []).cons
        (not_mem_listMarks_of_isDigit digit exponent.2)).cons plain
    · exact .refl _
  · exact .refl _

theorem reads_dropFraction (text : List Char) : Reads text (dropFraction text) := by
  unfold dropFraction
  split
  · next digit rest =>
    split
    · next isDigit =>
      exact ((Reads.dropWhile not_mem_listMarks_of_isDigit rest).cons
        (not_mem_listMarks_of_isDigit digit isDigit)).cons (by decide)
    · exact .refl _
  · exact .refl _

theorem reads_dropDecimals (text : List Char) : Reads text (dropDecimals text) :=
  (Reads.dropWhile not_mem_listMarks_of_isDigit text).trans (reads_dropExponent _)

theorem reads_dropNumber (text : List Char) : Reads text (dropNumber text) :=
  ((Reads.dropWhile not_mem_listMarks_of_isDigit text).trans (reads_dropFraction _)).trans
    (reads_dropExponent _)

theorem suffix_afterComment (text : List Char) : afterComment text <:+ text := by
  fun_induction afterComment text with
  | case1 => exact List.suffix_rfl
  | case2 rest => exact ⟨['*', '/'], rfl⟩
  | case3 character rest _ induction => exact induction.trans (List.suffix_cons _ _)

theorem suffix_afterBadUrl (text : List Char) : afterBadUrl text <:+ text := by
  fun_induction afterBadUrl text with
  | case1 => exact List.suffix_rfl
  | case2 rest induction => exact induction.trans ⟨['\\', ')'], rfl⟩
  | case3 rest induction => exact induction.trans ⟨['\\', '\\'], rfl⟩
  | case4 => exact List.suffix_cons _ _
  | case5 character rest _ _ _ induction => exact induction.trans (List.suffix_cons _ _)

theorem suffix_urlEnd (address : String) (text : List Char) :
    (urlEnd address text).2 <:+ text := by
  fun_induction urlEnd address text with
  | case1 => exact List.suffix_rfl
  | case2 => exact List.suffix_cons _ _
  | case3 character rest _ _ induction => exact induction.trans (List.suffix_cons _ _)
  | case4 character rest _ _ => exact (suffix_afterBadUrl rest).trans (List.suffix_cons _ _)

theorem suffix_urlRest (read text : List Char) : (urlRest read text).2 <:+ text := by
  fun_induction urlRest read text with
  | case1 => exact List.suffix_rfl
  | case2 => exact List.suffix_cons _ _
  | case3 => exact suffix_urlEnd _ _
  | case4 read character rest => exact (suffix_afterBadUrl rest).trans (List.suffix_cons _ _)
  | case5 read rest _ _ _ _ induction =>
      exact (induction.trans (suffix_escape rest)).trans (List.suffix_cons _ _)
  | case6 read rest => exact (suffix_afterBadUrl rest).trans (List.suffix_cons _ _)
  | case7 read character rest _ _ _ _ induction => exact induction.trans (List.suffix_cons _ _)

/-! ## Spelling -/

def Bracket.openingMark : Bracket → Char
  | .round => '('
  | .square => '['
  | .curly => '{'

def Bracket.closingMark : Bracket → Char
  | .round => ')'
  | .square => ']'
  | .curly => '}'

def BeginsVisibly (text : List Char) : Prop :=
  ∃ first rest, text = first :: rest ∧ Text.isBlank first = false ∧ first ≠ ','

/-- What a string reads after its opening quote: all up to the next, or to the end of the text if
there is no other. -/
def QuotedBy (quote : Char) (after inside : List Char) : Prop :=
  (∃ content, inside = content ++ [quote] ∧ quote ∉ content) ∨ after = [] ∧ quote ∉ inside

def Spelled (after : List Char) : Token → List Char → Prop
  | .comma, written => written = [',']
  | .opening bracket, written => written = [bracket.openingMark]
  | .closing bracket, written => written = [bracket.closingMark]
  | .function _, written => ∃ name, written = name ++ ['('] ∧ Unmarked name
  | .string _, written => ∃ quote inside, (quote = '"' ∨ quote = '\'') ∧
      written = quote :: inside ∧ ('\\' ∉ inside → QuotedBy quote after inside)
  | .badString, written => BeginsVisibly written
  | .comment, written => BeginsVisibly written
  | .url _, written => BeginsVisibly written
  | .badUrl, written => BeginsVisibly written
  | _, written => Unmarked written

def ReadAs (text : List Char) (result : Token × List Char) : Prop :=
  ∃ written, text = written ++ result.2 ∧ Spelled result.2 result.1 written

theorem BeginsVisibly.of_append {written after : List Char}
    (begins : BeginsVisibly (written ++ after)) (nonempty : written ≠ []) :
    BeginsVisibly written := by
  rcases List.exists_cons_of_ne_nil nonempty with ⟨head, tail, rfl⟩
  rcases begins with ⟨first, rest, parts, visible⟩
  cases parts
  exact ⟨head, tail, rfl, visible⟩

theorem QuotedBy.cons {quote character : Char} {after inside : List Char}
    (other : character ≠ quote) (quoted : QuotedBy quote after inside) :
    QuotedBy quote after (character :: inside) := by
  rcases quoted with ⟨content, rfl, unquoted⟩ | ⟨atEnd, unquoted⟩
  · exact .inl ⟨character :: content, rfl, by simp [Ne.symm other, unquoted]⟩
  · exact .inr ⟨atEnd, by simp [Ne.symm other, unquoted]⟩

/-- Apart from a comma, a token whose text does not begin visibly has no mark in it, or has no
other than the bracket of a function. -/
theorem Spelled.begins_or_unmarked {after : List Char} {token : Token} {written : List Char}
    (spelled : Spelled after token written) (notComma : token ≠ .comma) :
    BeginsVisibly written ∨ Unmarked written ∨ ∃ name, written = name ++ ['('] ∧ Unmarked name := by
  cases token with
  | comma => exact absurd rfl notComma
  | opening bracket =>
      left
      rw [show written = [bracket.openingMark] from spelled]
      exact ⟨bracket.openingMark, [], rfl, by cases bracket <;> decide⟩
  | closing bracket =>
      left
      rw [show written = [bracket.closingMark] from spelled]
      exact ⟨bracket.closingMark, [], rfl, by cases bracket <;> decide⟩
  | string content =>
      left
      rcases spelled with ⟨quote, inside, isQuote, parts, _⟩
      exact ⟨quote, inside, parts, by rcases isQuote with rfl | rfl <;> decide⟩
  | function name => exact .inr (.inr spelled)
  | badString => exact .inl spelled
  | comment => exact .inl spelled
  | url address => exact .inl spelled
  | badUrl => exact .inl spelled
  | _ => exact .inr (.inl spelled)

/-- No other token than a comma has a comma behind nothing but blanks. -/
theorem Spelled.eq_comma {after : List Char} {token : Token} {blanks rest : List Char}
    (spelled : Spelled after token (blanks ++ ',' :: rest))
    (blank : ∀ character ∈ blanks, Text.isBlank character = true) : token = .comma := by
  by_contra notComma
  have unescaped : '\\' ∉ blanks := by
    intro backslash
    have isBlank := blank '\\' backslash
    cases isBlank
  have isMark : ',' ∈ listMarks := by decide
  rcases spelled.begins_or_unmarked notComma with begins | unmarked | ⟨name, parts, unmarked⟩
  · rcases begins with ⟨first, later, parts, visible, notComma⟩
    cases blanks with
    | nil =>
        cases parts
        exact notComma rfl
    | cons head tail =>
        cases parts
        rw [blank first List.mem_cons_self] at visible
        cases visible
  · exact unmarked.not_mem_of_append unescaped (by decide) isMark
  · rcases List.eq_nil_or_concat rest with rfl | ⟨inner, last, rfl⟩
    · have lasts := congrArg List.getLast? parts
      simp at lasts
    · have shorter : blanks ++ ',' :: inner = name := by
        have initial := congrArg List.dropLast parts
        rw [List.dropLast_concat, List.concat_eq_append, ← List.cons_append, ← List.append_assoc,
          List.dropLast_concat] at initial
        exact initial
      rw [← shorter] at unmarked
      exact unmarked.not_mem_of_append unescaped (by decide) isMark

/-- Blanks open no block. -/
theorem Spelled.opens_eq_none {after : List Char} {token : Token} {written : List Char}
    (spelled : Spelled after token written)
    (blank : ∀ character ∈ written, Text.isBlank character = true) : token.opens? = none := by
  cases token with
  | opening bracket =>
      have isBlank := blank bracket.openingMark (by
        rw [show written = [bracket.openingMark] from spelled]
        exact List.mem_cons_self)
      cases bracket <;> cases isBlank
  | function name =>
      rcases spelled with ⟨name, rfl, _⟩
      have isBlank := blank '(' (by simp)
      cases isBlank
  | _ => rfl

/-! ## Tokens -/

theorem readAs_numberToken {text after : List Char} (reads : Reads text after) :
    ReadAs text (numberToken after) := by
  unfold numberToken
  split
  · next rest => exact reads.trans ((Reads.refl rest).cons (by decide))
  · split
    · exact reads.trans (reads_name after)
    · exact reads

theorem readAs_matcherToken {character : Char} (plain : character ∉ listMarks)
    (text : List Char) : ReadAs (character :: text) (matcherToken character text) := by
  unfold matcherToken
  split
  · next rest => exact ((Reads.refl rest).cons (by decide)).cons plain
  · exact (Reads.refl _).cons plain

theorem readAs_hashToken (rest : List Char) : ReadAs ('#' :: rest) (hashToken rest) := by
  unfold hashToken
  split
  · exact (reads_name rest).cons (by decide)
  · exact (Reads.refl rest).cons (by decide)

theorem readAs_atToken (rest : List Char) : ReadAs ('@' :: rest) (atToken rest) := by
  unfold atToken
  split
  · exact (reads_name rest).cons (by decide)
  · exact (Reads.refl rest).cons (by decide)

theorem readAs_slashToken (rest : List Char) : ReadAs ('/' :: rest) (slashToken rest) := by
  unfold slashToken
  split
  · next inside =>
    rcases suffix_afterComment inside with ⟨written, parts⟩
    refine ⟨'/' :: '*' :: written, by simp [parts], ?_⟩
    exact ⟨'/', '*' :: written, rfl, by decide, by decide⟩
  · exact (Reads.refl _).cons (by decide)

private theorem urlEnd_isAddress (address : String) (text : List Char) :
    (urlEnd address text).1 = .badUrl ∨ ∃ content, (urlEnd address text).1 = .url content := by
  fun_induction urlEnd address text <;> simp_all

private theorem urlRest_isAddress (read text : List Char) :
    (urlRest read text).1 = .badUrl ∨ ∃ content, (urlRest read text).1 = .url content := by
  fun_induction urlRest read text <;> simp_all [urlEnd_isAddress]

/-- A name that is not the beginning of an address ends where it stops, or with the bracket that
makes it a function. -/
theorem readAs_nameToken {first : Char} {text rest : List Char} (reads : Reads text rest)
    (begins : first.toLower = 'u' → BeginsVisibly text) : ReadAs text (nameToken first rest) := by
  have ofName := reads.trans (reads_name rest)
  unfold nameToken
  simp only
  split
  · next inside found =>
    rw [found] at ofName
    rcases ofName with ⟨name, parts, unmarked⟩
    split
    · next isUrl =>
      -- Only the first letter of `url` matters here.
      have letter : first.toLower = 'u' := by
        simp only [Bool.and_eq_true, isUrlName, List.map_cons, beq_iff_eq, List.cons.injEq] at isUrl
        exact isUrl.1.1.1
      rcases (suffix_urlRest [] _).trans (List.dropWhile_suffix isBlank (l := inside)) with
        ⟨address, ofAddress⟩
      have whole : text = (name ++ '(' :: address) ++
          (urlRest [] (inside.dropWhile isBlank)).2 := by
        rw [parts, List.append_assoc, List.cons_append, ofAddress]
      refine ⟨_, whole, ?_⟩
      have visible := begins letter
      rw [whole] at visible
      have written := visible.of_append (by simp)
      rcases urlRest_isAddress [] (inside.dropWhile isBlank) with bad | ⟨content, isUrl⟩
      · rw [bad]
        exact written
      · rw [isUrl]
        exact written
    · exact ⟨name ++ ['('], by simp [parts], name, rfl, unmarked⟩
  · exact ofName

theorem readAs_minusToken (rest : List Char) : ReadAs ('-' :: rest) (minusToken rest) := by
  have minus : Reads ('-' :: rest) rest := (Reads.refl rest).cons (by decide)
  unfold minusToken
  split
  · exact readAs_numberToken (minus.trans (reads_dropNumber rest))
  · split
    · next arrow =>
      rw [beq_iff_eq] at arrow
      refine ⟨['-', '-', '>'], ?_, unmarked_of_forall (by simp [listMarks])⟩
      rw [← List.take_append_drop 2 rest, arrow]
      simp
    · split
      · exact readAs_nameToken minus (fun letter => absurd letter (by decide))
      · exact minus

theorem readAs_backslashToken (rest : List Char) :
    ReadAs ('\\' :: rest) (backslashToken rest) := by
  unfold backslashToken
  split
  · exact readAs_nameToken (.escaped (suffix_escape rest))
      (fun _ => ⟨'\\', rest, rfl, by decide, by decide⟩)
  · exact (Reads.refl rest).cons (by decide)

private theorem visible_of_toLower_eq {character : Char} (letter : character.toLower = 'u') :
    Text.isBlank character = false ∧ character ≠ ',' := by
  have isLetter : character = 'u' ∨ character = 'U' := by
    unfold Char.toLower at letter
    split at letter
    · right
      have code := congrArg Char.val letter
      apply Char.ext
      exact (UInt32.add_left_inj 32).mp code
    · exact .inl letter
  rcases isLetter with rfl | rfl <;> decide

theorem readAs_plainToken {character : Char} (plain : character ∉ listMarks) (rest : List Char) :
    ReadAs (character :: rest) (plainToken character rest) := by
  have one : Reads (character :: rest) rest := (Reads.refl rest).cons plain
  unfold plainToken
  split
  · exact readAs_numberToken (one.trans (reads_dropNumber rest))
  · split
    · refine readAs_nameToken one ?_
      intro letter
      have same : orReplacement character = character := by
        rw [orReplacement] at letter ⊢
        split at letter
        · exact absurd letter (by decide)
        · next written => exact if_neg written
      rw [same] at letter
      exact ⟨character, rest, rfl, visible_of_toLower_eq letter⟩
    · exact one

private theorem stringRest_spells (quote : Char) (read text : List Char) :
    ∃ inside, text = inside ++ (stringRest quote read text).2 ∧
      ((stringRest quote read text).1 = .badString ∨
        (∃ content, (stringRest quote read text).1 = .string content) ∧
          ('\\' ∉ inside → QuotedBy quote (stringRest quote read text).2 inside)) := by
  fun_induction stringRest quote read text with
  | case1 read => exact ⟨[], rfl, .inr ⟨⟨_, rfl⟩, fun _ => .inr ⟨rfl, List.not_mem_nil⟩⟩⟩
  | case2 read rest =>
      exact ⟨[quote], rfl, .inr ⟨⟨_, rfl⟩, fun _ => .inl ⟨[], rfl, List.not_mem_nil⟩⟩⟩
  | case3 => exact ⟨[], rfl, .inl rfl⟩
  | case4 read rest =>
      refine ⟨'\\' :: rest, by simp, .inr ⟨⟨_, rfl⟩, ?_⟩⟩
      exact fun unescaped => absurd List.mem_cons_self unescaped
  | case5 read rest _ _ _ _ induction =>
      rcases induction with ⟨inside, parts, isToken⟩
      rcases suffix_dropBlank rest with ⟨blank, ofRest⟩
      refine ⟨'\\' :: (blank ++ inside), ?_, isToken.imp_right fun isString => ⟨isString.1, ?_⟩⟩
      · rw [List.cons_append, List.append_assoc, ← parts, ofRest]
      · exact fun unescaped => absurd List.mem_cons_self unescaped
  | case6 read rest _ _ _ _ induction =>
      rcases induction with ⟨inside, parts, isToken⟩
      rcases suffix_escape rest with ⟨escaped, ofRest⟩
      refine ⟨'\\' :: (escaped ++ inside), ?_, isToken.imp_right fun isString => ⟨isString.1, ?_⟩⟩
      · rw [List.cons_append, List.append_assoc, ← parts, ofRest]
      · exact fun unescaped => absurd List.mem_cons_self unescaped
  | case7 read character rest other _ _ induction =>
      rcases induction with ⟨inside, parts, isToken⟩
      refine ⟨character :: inside, by rw [List.cons_append, ← parts],
        isToken.imp_right fun isString => ⟨isString.1, fun unescaped => ?_⟩⟩
      exact (isString.2 fun inInside => unescaped (List.mem_cons_of_mem _ inInside)).cons other

theorem readAs_stringRest {quote : Char} (isQuote : quote = '"' ∨ quote = '\'')
    (rest : List Char) : ReadAs (quote :: rest) (stringRest quote [] rest) := by
  rcases stringRest_spells quote [] rest with ⟨inside, parts, isToken⟩
  refine ⟨quote :: inside, by rw [List.cons_append, ← parts], ?_⟩
  rcases isToken with bad | ⟨⟨content, isString⟩, quoted⟩
  · rw [bad]
    exact ⟨quote, inside, rfl, by rcases isQuote with rfl | rfl <;> decide⟩
  · rw [isString]
    exact ⟨quote, inside, isQuote, rfl, quoted⟩

/-- Every token is spelled as its kind is, from the first character that is left. -/
theorem readAs_nextToken (character : Char) (rest : List Char) :
    ReadAs (character :: rest) (nextToken character rest) := by
  unfold nextToken
  split
  · next blank =>
    exact (Reads.dropWhile not_mem_listMarks_of_isBlank rest).cons
      (not_mem_listMarks_of_isBlank character blank)
  · split
    · exact readAs_stringRest (.inl rfl) rest
    · exact readAs_stringRest (.inr rfl) rest
    · exact readAs_hashToken rest
    · exact ⟨['('], rfl, rfl⟩
    · exact ⟨['['], rfl, rfl⟩
    · exact ⟨['{'], rfl, rfl⟩
    · exact ⟨[')'], rfl, rfl⟩
    · exact ⟨[']'], rfl, rfl⟩
    · exact ⟨['}'], rfl, rfl⟩
    · exact ⟨[','], rfl, rfl⟩
    · exact (Reads.refl rest).cons (by decide)
    · exact (Reads.refl rest).cons (by decide)
    · exact readAs_matcherToken (by decide) rest
    · exact readAs_matcherToken (by decide) rest
    · exact readAs_matcherToken (by decide) rest
    · exact readAs_matcherToken (by decide) rest
    · exact readAs_matcherToken (by decide) rest
    · split
      · exact readAs_numberToken ((reads_dropNumber rest).cons (by decide))
      · exact (Reads.refl rest).cons (by decide)
    · split
      · exact readAs_numberToken ((reads_dropDecimals rest).cons (by decide))
      · exact (Reads.refl rest).cons (by decide)
    · exact readAs_minusToken rest
    · exact readAs_slashToken rest
    · split
      · next arrow =>
        rw [beq_iff_eq] at arrow
        refine ⟨['<', '!', '-', '-'], ?_, unmarked_of_forall (by simp [listMarks])⟩
        nth_rewrite 1 [← List.take_append_drop 3 rest]
        rw [arrow]
        rfl
      · exact (Reads.refl rest).cons (by decide)
    · exact readAs_atToken rest
    · exact readAs_backslashToken rest
    · apply readAs_plainToken
      simp_all [listMarks]

/-! ## Lexemes -/

structure Lexeme where
  token : Token
  written : List Char
  deriving DecidableEq, Repr

def lexemes : List Char → List Lexeme
  | [] => []
  | character :: rest =>
      ⟨(nextToken character rest).1,
          (character :: rest).take (rest.length + 1 - (nextToken character rest).2.length)⟩ ::
        lexemes (nextToken character rest).2
  termination_by text => text.length
  decreasing_by
    have := length_nextToken character rest
    simp only [List.length_cons]
    omega

theorem tokens_eq_map_lexemes (text : List Char) :
    tokens text = (lexemes text).map Lexeme.token := by
  fun_induction lexemes text with
  | case1 => rw [tokens_nil, List.map_nil]
  | case2 character rest induction => rw [tokens_cons, List.map_cons, induction]

/-- A text is read as these lexemes: their parts in a row are the text, none is empty, and each is
the spelling of its token. -/
inductive Reading : List Char → List Lexeme → Prop
  | nil : Reading [] []
  | cons {token : Token} {written after : List Char} {later : List Lexeme}
      (spelled : Spelled after token written) (nonempty : written ≠ [])
      (rest : Reading after later) :
      Reading (written ++ after) (⟨token, written⟩ :: later)

theorem reading_lexemes (text : List Char) : Reading text (lexemes text) := by
  fun_induction lexemes text with
  | case1 => exact .nil
  | case2 character rest induction =>
      rcases readAs_nextToken character rest with ⟨written, parts, spelled⟩
      have length := congrArg List.length parts
      rw [List.length_append, List.length_cons] at length
      have taken : (character :: rest).take
          (rest.length + 1 - (nextToken character rest).2.length) = written := by
        rw [parts]
        exact List.take_left' (by omega)
      rw [taken]
      nth_rewrite 1 [parts]
      refine .cons spelled (List.ne_nil_of_length_pos ?_) induction
      have shorter := length_nextToken character rest
      omega

theorem Reading.eq_nil {text : List Char} {lexemes : List Lexeme} (reading : Reading text lexemes)
    (empty : text = []) : lexemes = [] := by
  cases reading with
  | nil => rfl
  | cons _ nonempty _ => exact absurd (List.append_eq_nil_iff.mp empty).1 nonempty

/-! ## Open blocks -/

def openAfter (blocks : List Bracket) (token : Token) : List Bracket :=
  match token.opens? with
  | some bracket => bracket :: blocks
  | none => if token.closes? = blocks.head? then blocks.tail else blocks

theorem openAfter_of_opens {token : Token} {bracket : Bracket}
    (opens : token.opens? = some bracket) (blocks : List Bracket) :
    openAfter blocks token = bracket :: blocks := by
  rw [openAfter, opens]

theorem openAfter_nil {token : Token} (opens : token.opens? = none) : openAfter [] token = [] := by
  rw [openAfter, opens]
  exact ite_self []

theorem openAfter_cons {token : Token} (opens : token.opens? = none) (inner : Bracket)
    (outer : List Bracket) :
    openAfter (inner :: outer) token =
      if token.closes? = some inner then outer else inner :: outer := by
  rw [openAfter, opens]
  rfl

theorem openAfter_of_neither {token : Token} (opens : token.opens? = none)
    (closes : token.closes? = none) (blocks : List Bracket) : openAfter blocks token = blocks := by
  cases blocks with
  | nil => exact openAfter_nil opens
  | cons inner outer => simp [openAfter_cons opens, closes]

end Stylebook.Css
