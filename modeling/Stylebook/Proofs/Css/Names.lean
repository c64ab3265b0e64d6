import Mathlib.Data.Bool.AllAny
import Stylebook.Css.Component
import Stylebook.Proofs.Text.Trim

/-!
Names: texts of ASCII letters, digits, hyphens and underscores that are one identifier each. They
are told by their first two characters. A name is the text of its identifier, also behind a full
stop or a parent reference, and before anything that ends it.
-/

namespace Stylebook.Css

structure IsName (text : List Char) : Prop where
  plain : ∀ character ∈ text, character.isAlphanum = true ∨ character = '-' ∨ character = '_'
  single : ∃ name, tokens text = [.identifier name]

/-! ## What ends a name -/

def stops : List Char := ['#', '.', '[', ':', ',', ' ', ')', ']']

/-- The text is at its end, or goes on with a character that ends a name. -/
def Stops (after : List Char) : Prop := ∀ character ∈ after.head?, character ∈ stops

theorem stops_cons {character : Char} (isStop : character ∈ stops) (rest : List Char) :
    Stops (character :: rest) := by
  intro first isFirst
  cases isFirst
  exact isStop

theorem stops_nil : Stops [] := fun _ none => nomatch none

def EndsName (after : List Char) : Prop :=
  ∀ character ∈ after.head?, isNameCharacter character = false ∧ character ≠ '\\'

theorem Stops.endsName {after : List Char} (isStop : Stops after) : EndsName after := by
  have all : ∀ character ∈ stops, isNameCharacter character = false ∧ character ≠ '\\' :=
    List.all_iff_forall_prop.mp rfl
  exact fun character isFirst => all character (isStop character isFirst)

theorem name_append {written after : List Char}
    (isName : ∀ character ∈ written, isNameCharacter character = true ∧ character ≠ '\x00')
    (ends : EndsName after) : name (written ++ after) = (written, after) := by
  induction written with
  | nil =>
      cases after with
      | nil => rw [List.nil_append, name]
      | cons first rest =>
          rcases ends first rfl with ⟨isOther, notBackslash⟩
          rw [List.nil_append, name, if_neg notBackslash, if_neg (by simp [isOther])]
  | cons first rest induction =>
      rw [List.forall_mem_cons] at isName
      rcases isName with ⟨⟨isFirst, notZero⟩, isRest⟩
      have notBackslash : first ≠ '\\' := by
        rintro rfl
        cases isFirst
      rw [List.cons_append, name, if_neg notBackslash, if_pos isFirst, induction isRest,
        orReplacement, if_neg notZero]

/-! ## Characters -/

theorem isNameCharacter_of_plain {character : Char}
    (plain : character.isAlphanum = true ∨ character = '-' ∨ character = '_') :
    isNameCharacter character = true ∧ character ≠ '\x00' := by
  rcases plain with alphanumeric | rfl | rfl
  · constructor
    · rw [Char.isAlphanum, Bool.or_eq_true] at alphanumeric
      rcases alphanumeric with isLetter | isDigit
      · simp [isNameCharacter, isNameStart, isLetter]
      · simp [isNameCharacter, isDigit]
    · rintro rfl
      cases alphanumeric
  · exact ⟨rfl, by decide⟩
  · exact ⟨rfl, by decide⟩

theorem isBlank_eq_false_of_plain {character : Char}
    (plain : character.isAlphanum = true ∨ character = '-' ∨ character = '_') :
    Text.isBlank character = false := by
  rcases plain with alphanumeric | rfl | rfl
  · have inRange : 48 ≤ character.toNat ∧ character.toNat ≤ 122 := by
      unfold Char.isAlphanum Char.isAlpha Char.isUpper Char.isLower Char.isDigit at alphanumeric
      simp only [Bool.or_eq_true, Bool.and_eq_true, decide_eq_true_eq, ge_iff_le,
        UInt32.le_iff_toNat_le] at alphanumeric
      change ((65 ≤ character.toNat ∧ character.toNat ≤ 90) ∨
        (97 ≤ character.toNat ∧ character.toNat ≤ 122)) ∨
          (48 ≤ character.toNat ∧ character.toNat ≤ 57) at alphanumeric
      omega
    simp only [Text.isBlank, Bool.or_eq_false_iff, Bool.and_eq_false_iff, decide_eq_false_iff_not,
      beq_eq_false_iff_ne]
    omega
  · rfl
  · rfl

/-- A character that is a blank between tokens has the Unicode property of blanks. -/
theorem isBlank_eq_false {character : Char} (visible : Text.isBlank character = false) :
    isBlank character = false := by
  apply Bool.eq_false_iff.mpr
  intro blank
  simp only [isBlank, isNewline, Bool.or_eq_true, beq_iff_eq] at blank
  rcases blank with (rfl | rfl) | (rfl | rfl) | rfl <;> cases visible

theorem isAlphanum_of_isAlpha {letter : Char} (isLetter : letter.isAlpha = true) :
    letter.isAlphanum = true := by
  rw [Char.isAlphanum, isLetter, Bool.true_or]

theorem isDigit_of_isAlpha {letter : Char} (isLetter : letter.isAlpha = true) :
    letter.isDigit = false := by
  unfold Char.isAlpha Char.isUpper Char.isLower at isLetter
  simp only [Bool.or_eq_true, Bool.and_eq_true, decide_eq_true_iff, ge_iff_le,
    UInt32.le_iff_toNat_le] at isLetter
  simp only [Char.isDigit, Bool.and_eq_false_iff, decide_eq_false_iff_not, ge_iff_le,
    UInt32.le_iff_toNat_le]
  have nine : '9'.val.toNat < 'A'.val.toNat := by decide
  have beforeLower : '9'.val.toNat < 'a'.val.toNat := by decide
  omega

theorem isNameStart_of_isAlpha {letter : Char} (isLetter : letter.isAlpha = true) :
    isNameStart letter = true := by
  rw [isNameStart, isLetter, Bool.true_or, Bool.true_or, Bool.true_or]

/-! ## First characters -/

/-- Letters and digits are none of the characters that tell a token by themselves. -/
theorem nextToken_of_isAlphanum {first : Char} (alphanumeric : first.isAlphanum = true)
    (rest : List Char) : nextToken first rest = plainToken first rest := by
  have other {character : Char} (isMark : character.isAlphanum = false) : first ≠ character := by
    rintro rfl
    rw [alphanumeric] at isMark
    cases isMark
  rw [nextToken, isBlank_eq_false (isBlank_eq_false_of_plain (.inl alphanumeric)),
    if_neg Bool.false_ne_true]
  all_goals exact other rfl

theorem nextToken_of_isAlpha {letter : Char} (isLetter : letter.isAlpha = true)
    (rest : List Char) : nextToken letter rest = nameToken letter rest := by
  have notZero : letter ≠ '\x00' := by
    rintro rfl
    cases isLetter
  rw [nextToken_of_isAlphanum (isAlphanum_of_isAlpha isLetter), plainToken,
    isDigit_of_isAlpha isLetter, if_neg Bool.false_ne_true,
    if_pos (isNameStart_of_isAlpha isLetter), orReplacement, if_neg notZero]

theorem nextToken_of_isDigit {digit : Char} (isDigit : digit.isDigit = true) (rest : List Char) :
    nextToken digit rest = numberToken (dropNumber rest) := by
  have alphanumeric : digit.isAlphanum = true := by
    rw [Char.isAlphanum, isDigit, Bool.or_true]
  rw [nextToken_of_isAlphanum alphanumeric, plainToken, isDigit, if_pos rfl]

theorem numberToken_ne_identifier (after : List Char) (name : String) :
    (numberToken after).1 ≠ .identifier name := by
  unfold numberToken
  split
  · simp
  · split <;> simp

theorem nameToken_of_plain {first : Char} {rest after : List Char} (plain : ∀ character ∈ rest,
    character.isAlphanum = true ∨ character = '-' ∨ character = '_') (isStop : Stops after) :
    nameToken first (rest ++ after) = (.identifier (String.ofList (first :: rest)), after) := by
  have isName : ∀ character ∈ rest, isNameCharacter character = true ∧ character ≠ '\x00' :=
    fun character member => isNameCharacter_of_plain (plain character member)
  rw [nameToken, name_append isName isStop.endsName]
  split
  next inside found =>
    replace found : after = '(' :: inside := found
    have bracket := isStop '(' (by rw [found]; rfl)
    exact absurd bracket (by decide)
  next => rfl

/-- A character that is a token whatever follows it. -/
theorem tokens_mark {character : Char} {token : Token}
    (isToken : ∀ rest, nextToken character rest = (token, rest)) (rest : List Char) :
    tokens (character :: rest) = token :: tokens rest := by
  rw [tokens_cons, isToken]

/-- A full stop before a digit would be the beginning of a number. -/
theorem tokens_stop_cons {after : List Char} (noDigit : startsDigit after = false) :
    tokens ('.' :: after) = .delimiter '.' :: tokens after := by
  have isChoice : nextToken '.' after =
      if startsDigit after then numberToken (dropDecimals after) else (.delimiter '.', after) := rfl
  rw [tokens_cons, isChoice, noDigit, if_neg Bool.false_ne_true]

theorem tokens_blank {rest : List Char} (visible : ∀ character ∈ rest.head?,
    isBlank character = false) : tokens (' ' :: rest) = .blank :: tokens rest := by
  have isBlankToken : nextToken ' ' rest = (.blank, rest.dropWhile isBlank) := rfl
  have noMore : rest.dropWhile isBlank = rest := by
    cases rest with
    | nil => rfl
    | cons first later => exact List.dropWhile_cons_of_neg (by simp [visible first rfl])
  rw [tokens_cons, isBlankToken, noMore]

/-- How a name begins: with a letter, with an underscore, or with a hyphen before one of these or
another hyphen. -/
def beginsName : List Char → Bool
  | '-' :: second :: _ => second.isAlpha || second == '_' || second == '-'
  | first :: _ => first.isAlpha || first == '_'
  | [] => false

theorem beginsName_cons {first : Char} (notMinus : first ≠ '-') (rest : List Char) :
    beginsName (first :: rest) = (first.isAlpha || first == '_') := by
  rw [beginsName]
  exact fun _ _ isMinus _ => notMinus isMinus

/-- What a minus sign begins depends on the character behind it, if it is not the first of `-->`. -/
theorem minusToken_cons {second : Char} {rest : List Char}
    (plain : second.isAlphanum = true ∨ second = '-' ∨ second = '_')
    (noArrow : rest.head? ≠ some '>') : minusToken (second :: rest) =
      if second.isDigit then numberToken (dropNumber (second :: rest))
      else if second == '-' || isNameStart second then nameToken '-' (second :: rest)
      else (.delimiter '-', second :: rest) := by
  have noPoint : second ≠ '.' := by
    rintro rfl
    simp at plain
  have noBackslash : second ≠ '\\' := by
    rintro rfl
    simp at plain
  have number : startsNumber (second :: rest) = second.isDigit := by
    rw [startsNumber, startsDigit]
    exact fun _ isPoint => noPoint (List.cons.inj isPoint).1
  have noComment : ((second :: rest).take 2 == ['-', '>']) = false := by
    cases rest with
    | nil => simp
    | cons third later => simpa using fun _ isArrow => noArrow (congrArg some isArrow)
  have begins : startsName ('-' :: second :: rest) = (second == '-' || isNameStart second) := by
    by_cases minus : second = '-'
    · rw [minus]
      rfl
    · rw [startsName, beq_eq_false_iff_ne.mpr minus, Bool.false_or]
      · exact minus
      · exact noBackslash
  rw [minusToken, number, noComment, begins, if_neg Bool.false_ne_true]

/-- A text that begins like a name is read as one, also before text that ends the name. -/
theorem nextToken_of_beginsName {first : Char} {rest after : List Char}
    (begins : beginsName (first :: rest) = true) (plain : ∀ character ∈ rest,
      character.isAlphanum = true ∨ character = '-' ∨ character = '_') (isStop : Stops after) :
    nextToken first (rest ++ after) = nameToken first (rest ++ after) := by
  by_cases minus : first = '-'
  · subst minus
    have isMinus : nextToken '-' (rest ++ after) = minusToken (rest ++ after) := rfl
    cases rest with
    | nil => cases begins
    | cons second later =>
        rcases List.forall_mem_cons.mp plain with ⟨plainSecond, plainLater⟩
        have noArrow : (later ++ after).head? ≠ some '>' := by
          cases later with
          | nil => exact fun isArrow => absurd (isStop '>' isArrow) (by decide)
          | cons third _ =>
              intro isArrow
              have plainThird := plainLater third List.mem_cons_self
              rw [Option.some.inj isArrow] at plainThird
              simp at plainThird
        have begun : second.isDigit = false ∧ (second == '-' || isNameStart second) = true := by
          rw [beginsName, Bool.or_eq_true, Bool.or_eq_true, beq_iff_eq, beq_iff_eq] at begins
          rcases begins with (isLetter | rfl) | rfl
          · refine ⟨isDigit_of_isAlpha isLetter, ?_⟩
            rw [isNameStart_of_isAlpha isLetter, Bool.or_true]
          · exact ⟨rfl, rfl⟩
          · exact ⟨rfl, rfl⟩
        rw [isMinus, List.cons_append, minusToken_cons plainSecond noArrow, begun.1, begun.2,
          if_neg Bool.false_ne_true, if_pos rfl]
  · rw [beginsName_cons minus, Bool.or_eq_true, beq_iff_eq] at begins
    rcases begins with isLetter | rfl
    · exact nextToken_of_isAlpha isLetter _
    · rfl

theorem beginsName_of_identifier {first : Char} {rest : List Char} {name : String}
    (plain : ∀ character ∈ first :: rest,
      character.isAlphanum = true ∨ character = '-' ∨ character = '_')
    (isIdentifier : (nextToken first rest).1 = .identifier name) :
    beginsName (first :: rest) = true := by
  rcases List.forall_mem_cons.mp plain with ⟨alphanumeric | rfl | rfl, plainRest⟩
  · have notMinus : first ≠ '-' := by
      rintro rfl
      simp at alphanumeric
    rw [Char.isAlphanum, Bool.or_eq_true] at alphanumeric
    rcases alphanumeric with isLetter | isDigit
    · rw [beginsName_cons notMinus, isLetter, Bool.true_or]
    · rw [nextToken_of_isDigit isDigit] at isIdentifier
      exact absurd isIdentifier (numberToken_ne_identifier _ name)
  · have isMinus : nextToken '-' rest = minusToken rest := rfl
    rw [isMinus] at isIdentifier
    cases rest with
    | nil => cases isIdentifier
    | cons second later =>
        rcases List.forall_mem_cons.mp plainRest with ⟨plainSecond, plainLater⟩
        have noArrow : later.head? ≠ some '>' := by
          intro isArrow
          have arrow := plainLater '>' (List.mem_of_head? isArrow)
          simp at arrow
        rw [minusToken_cons plainSecond noArrow] at isIdentifier
        split at isIdentifier
        · exact absurd isIdentifier (numberToken_ne_identifier _ name)
        next noDigit =>
        rcases plainSecond with alphanumeric | rfl | rfl
        · rw [Char.isAlphanum, Bool.or_eq_true, or_iff_left noDigit] at alphanumeric
          rw [beginsName, alphanumeric, Bool.true_or, Bool.true_or]
        · rfl
        · rfl
  · rfl

/-! ## Names -/

/-- A text is a name if its first character does not begin another token. -/
theorem isName_cons {first : Char} {rest : List Char} (plain : ∀ character ∈ first :: rest,
      character.isAlphanum = true ∨ character = '-' ∨ character = '_')
    (begins : nextToken first rest = nameToken first rest) : IsName (first :: rest) := by
  have read : nameToken first (rest ++ []) = (.identifier (String.ofList (first :: rest)), []) :=
    nameToken_of_plain (List.forall_mem_cons.mp plain).2 stops_nil
  rw [List.append_nil] at read
  refine ⟨plain, String.ofList (first :: rest), ?_⟩
  rw [tokens_cons, begins, read, tokens_nil]

/-- The names are the texts that begin like one. -/
theorem isName_iff {text : List Char} : IsName text ↔ beginsName text = true ∧
    ∀ character ∈ text, character.isAlphanum = true ∨ character = '-' ∨ character = '_' := by
  constructor
  · intro isName
    rcases isName.single with ⟨name, single⟩
    refine ⟨?_, isName.plain⟩
    cases text with
    | nil =>
        rw [tokens_nil] at single
        cases single
    | cons first rest =>
        rw [tokens_cons, List.cons.injEq] at single
        exact beginsName_of_identifier isName.plain single.1
  · rintro ⟨begins, plain⟩
    cases text with
    | nil => cases begins
    | cons first rest =>
        have read := nextToken_of_beginsName begins (List.forall_mem_cons.mp plain).2 stops_nil
        rw [List.append_nil] at read
        exact isName_cons plain read

namespace IsName

variable {text after : List Char}

theorem nonempty (isName : IsName text) : text ≠ [] := by
  rintro rfl
  cases (isName_iff.mp isName).1

theorem visible (isName : IsName text) :
    ∀ character ∈ text, Text.isBlank character = false :=
  fun character member => isBlank_eq_false_of_plain (isName.plain character member)

theorem tokens_append (isName : IsName text) (isStop : Stops after) :
    tokens (text ++ after) = .identifier (String.ofList text) :: tokens after := by
  have begins := (isName_iff.mp isName).1
  rcases List.exists_cons_of_ne_nil isName.nonempty with ⟨first, rest, rfl⟩
  have plain := (List.forall_mem_cons.mp isName.plain).2
  rw [List.cons_append, tokens_cons, nextToken_of_beginsName begins plain isStop,
    nameToken_of_plain plain isStop]

/-- A name does not begin with a digit, which would be the beginning of a number. -/
theorem startsDigit_append (isName : IsName text) (after : List Char) :
    startsDigit (text ++ after) = false := by
  rcases isName.single with ⟨name, single⟩
  rcases List.exists_cons_of_ne_nil isName.nonempty with ⟨first, rest, rfl⟩
  rw [tokens_cons, List.cons.injEq] at single
  apply Bool.eq_false_iff.mpr
  intro isDigit
  rw [nextToken_of_isDigit isDigit] at single
  exact numberToken_ne_identifier _ name single.1

theorem tokens_stop_append (isName : IsName text) (isStop : Stops after) :
    tokens ('.' :: (text ++ after)) =
      .delimiter '.' :: .identifier (String.ofList text) :: tokens after := by
  rw [tokens_stop_cons (isName.startsDigit_append after), isName.tokens_append isStop]

theorem tokens_reference_append (isName : IsName text) (isStop : Stops after) :
    tokens ('&' :: (text ++ after)) =
      .delimiter '&' :: .identifier (String.ofList text) :: tokens after := by
  rw [tokens_mark fun _ => rfl, isName.tokens_append isStop]

theorem tokens_hash_append (isName : IsName text) (isStop : Stops after) :
    tokens ('#' :: (text ++ after)) = .hash (String.ofList text) :: tokens after := by
  have isNameCharacter : ∀ character ∈ text,
      isNameCharacter character = true ∧ character ≠ '\x00' :=
    fun character member => isNameCharacter_of_plain (isName.plain character member)
  have goesOn : (text ++ after).head?.any Css.isNameCharacter = true := by
    rcases List.exists_cons_of_ne_nil isName.nonempty with ⟨first, rest, rfl⟩
    exact (isNameCharacter first List.mem_cons_self).1
  have isHash : nextToken '#' (text ++ after) = hashToken (text ++ after) := rfl
  rw [tokens_cons, isHash, hashToken, goesOn, Bool.or_true, if_pos rfl,
    name_append isNameCharacter isStop.endsName]

/-! A name at the end of a text. -/

theorem tokens_stop (isName : IsName text) :
    tokens ('.' :: text) = [.delimiter '.', .identifier (String.ofList text)] := by
  have read := isName.tokens_stop_append stops_nil
  rwa [List.append_nil, tokens_nil] at read

theorem tokens_reference (isName : IsName text) :
    tokens ('&' :: text) = [.delimiter '&', .identifier (String.ofList text)] := by
  have read := isName.tokens_reference_append stops_nil
  rwa [List.append_nil, tokens_nil] at read

end IsName

end Stylebook.Css
