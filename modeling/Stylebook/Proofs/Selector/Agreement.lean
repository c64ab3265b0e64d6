import Stylebook.Proofs.Selector.Tokens

/-!
Where the two ways to cut a selector list agree. They do exactly if the scan of the characters is
in step with the tokens. The scan looks neither for escapes nor for comments, addresses and curly
brackets, and takes any closing bracket for that of the innermost block; it is in step with every
text that has none of these.
-/

namespace Stylebook.Selector

open Css OpenMarks

/-! ## In step -/

/-- At a comma the scan has nothing open exactly if no block is open, and it cuts no other
token. -/
def InStep (marks : OpenMarks) (blocks : List Bracket) : List Lexeme → Prop
  | [] => True
  | lexeme :: rest =>
      (if lexeme.token = .comma then marks = {} ↔ blocks = []
        else Throughout KeepsWhole marks lexeme.written) ∧
      InStep (marks.afterAll lexeme.written) (openAfter blocks lexeme.token) rest

theorem openAfter_comma (blocks : List Bracket) : openAfter blocks .comma = blocks :=
  openAfter_of_neither rfl rfl blocks

/-- In step, both cut the text at the same commas. -/
theorem pieces_eq_tokenPieces {text : List Char} {lexemes : List Lexeme}
    (reading : Reading text lexemes) {marks : OpenMarks} {blocks : List Bracket}
    (inStep : InStep marks blocks lexemes) : pieces marks text = tokenPieces blocks lexemes := by
  induction reading generalizing marks blocks with
  | nil => rfl
  | @cons token written after later spelled _ rest induction =>
      rcases inStep with ⟨here, inStep⟩
      have equal := induction inStep
      rw [tokenPieces]
      by_cases comma : token = .comma
      · subst comma
        have isComma : written = [','] := spelled
        subst isComma
        rw [if_pos rfl] at here
        rw [openAfter_comma] at equal ⊢
        by_cases outside : blocks = []
        · rw [here.mpr outside] at equal ⊢
          rw [if_pos ⟨outside, rfl⟩, List.singleton_append, pieces_comma_cons, ← equal]
          rfl
        · have whole := keepsWhole_of_ne_empty (fun empty => outside (here.mp empty)) ','
          rw [if_neg (fun cut => outside cut.1), List.singleton_append,
            pieces_cons_of_keepsWhole whole, ← equal]
          rfl
      · rw [if_neg comma] at here
        rw [if_neg (fun cut => comma cut.2), pieces_append_of_keepsWhole here, ← equal]

/-! ## Out of step -/

theorem count_trim (text : List Char) : (Text.trim text).count ',' = text.count ',' := by
  rcases Text.exists_blanks_around_trim text with ⟨leading, trailing, parts, leadingBlank,
    trailingBlank⟩
  have noComma : ∀ {blanks : List Char}, (∀ character ∈ blanks, Text.isBlank character = true) →
      blanks.count ',' = 0 := by
    intro blanks blank
    rw [List.count_eq_zero]
    intro comma
    have isBlank := blank ',' comma
    cases isBlank
  nth_rewrite 2 [parts]
  rw [List.count_append, List.count_append, noComma leadingBlank, noComma trailingBlank]
  omega

theorem trimmedPieces_cons (piece : List Char) (later : List (List Char)) :
    trimmedPieces (piece :: later) =
      if Text.trim piece = [] then trimmedPieces later
      else Text.trim piece :: trimmedPieces later := by
  by_cases nothing : Text.trim piece = [] <;> simp [trimmedPieces, nothing]

/-- A member that ends at a comma is not the same as one that goes on over it. -/
theorem trimmedPieces_ne_of_cut {read piece : List Char} {later pieces : List (List Char)}
    (visible : ¬∀ character ∈ read ++ piece, Text.isBlank character = true)
    (goesOn : ∃ longer others, pieces = (piece ++ ',' :: longer) :: others) :
    trimmedPieces ((piece :: later).modifyHead (read ++ ·)) ≠
      trimmedPieces (pieces.modifyHead (read ++ ·)) := by
  rcases goesOn with ⟨longer, others, rfl⟩
  have more : (read ++ piece).count ',' < (read ++ (piece ++ ',' :: longer)).count ',' := by
    simp only [List.count_append, List.count_cons_self]
    omega
  have left : Text.trim (read ++ piece) ≠ [] := by rwa [ne_eq, Text.trim_eq_nil_iff]
  have right : Text.trim (read ++ (piece ++ ',' :: longer)) ≠ [] := by
    intro nothing
    have counted := count_trim (read ++ (piece ++ ',' :: longer))
    rw [nothing, List.count_nil] at counted
    omega
  rw [List.modifyHead_cons, List.modifyHead_cons, trimmedPieces_cons, trimmedPieces_cons,
    if_neg left, if_neg right]
  intro same
  have counted := congrArg (List.count ',') (List.cons.inj same).1
  rw [count_trim, count_trim] at counted
  omega

private theorem exists_cut {marks : OpenMarks} {text : List Char}
    (cut : ¬Throughout KeepsWhole marks text) :
    ∃ before after, text = before ++ ',' :: after ∧ Throughout KeepsWhole marks before ∧
      marks.afterAll before = {} := by
  induction text generalizing marks with
  | nil => exact absurd trivial cut
  | cons head tail induction =>
      by_cases whole : KeepsWhole marks head
      · have later : ¬Throughout KeepsWhole (marks.after head) tail :=
          fun throughout => cut ⟨whole, throughout⟩
        rcases induction later with ⟨before, after, rfl, kept, closed⟩
        exact ⟨head :: before, after, rfl, ⟨whole, kept⟩, closed⟩
      · rcases eq_empty_of_cutsAt (Bool.not_eq_false _ ▸ whole) with ⟨rfl, rfl⟩
        exact ⟨[], tail, rfl, trivial, rfl⟩

private theorem goesOn_of_modifyHead (piece after : List Char) {pieces : List (List Char)}
    (nonempty : pieces ≠ []) : ∃ longer others,
      pieces.modifyHead ((piece ++ ',' :: after) ++ ·) = (piece ++ ',' :: longer) :: others := by
  rcases List.exists_cons_of_ne_nil nonempty with ⟨first, others, rfl⟩
  exact ⟨after ++ first, others, by simp⟩

theorem tokenPieces_ne_nil (blocks : List Bracket) (lexemes : List Lexeme) :
    tokenPieces blocks lexemes ≠ [] := by
  apply List.ne_nil_of_length_pos
  rw [length_tokenPieces_eq]
  omega

/-- Both have read the same since the last cut, and make the same members of it and of the rest.
As long as it is blank, neither has anything open. -/
structure Aligned (read : List Char) (marks : OpenMarks) (blocks : List Bracket)
    (text : List Char) (lexemes : List Lexeme) : Prop where
  fresh : (∀ character ∈ read, Text.isBlank character = true) → marks = {} ∧ blocks = []
  same : trimmedPieces ((pieces marks text).modifyHead (read ++ ·)) =
    trimmedPieces ((tokenPieces blocks lexemes).modifyHead (read ++ ·))

private theorem modifyHead_nil_append (pieces : List (List Char)) :
    pieces.modifyHead ([] ++ ·) = pieces := by
  cases pieces <;> rfl

theorem aligned_nil {text : List Char} {lexemes : List Lexeme}
    (same : trimmedPieces (pieces {} text) = trimmedPieces (tokenPieces [] lexemes)) :
    Aligned [] {} [] text lexemes where
  fresh := fun _ => ⟨rfl, rfl⟩
  same := by rwa [modifyHead_nil_append, modifyHead_nil_append]

namespace Aligned

variable {read after : List Char} {marks : OpenMarks} {blocks : List Bracket}
  {later : List Lexeme}

private theorem cut_at_comma
    (aligned : Aligned read {} [] (',' :: after) (⟨.comma, [',']⟩ :: later)) :
    Aligned [] {} [] after later := by
  have same := aligned.same
  rw [pieces_comma_cons, tokenPieces, if_pos ⟨rfl, rfl⟩, List.modifyHead_cons,
    List.modifyHead_cons, trimmedPieces_cons, trimmedPieces_cons] at same
  apply aligned_nil
  split at same
  · exact same
  · exact (List.cons.inj same).2

private theorem pass_comma
    (aligned : Aligned read marks blocks (',' :: after) (⟨.comma, [',']⟩ :: later))
    (opened : marks ≠ {}) (inside : blocks ≠ []) :
    Aligned (read ++ [',']) (marks.after ',') blocks after later where
  fresh := by
    intro blank
    have isBlank := blank ',' (by simp)
    cases isBlank
  same := by
    have same := aligned.same
    rw [pieces_cons_of_keepsWhole (keepsWhole_of_ne_empty opened ','), tokenPieces,
      if_neg (fun cut => inside cut.1), openAfter_comma] at same
    simpa [List.modifyHead_modifyHead, Function.comp_def] using same

/-- Where only one of the two cuts, the members differ. -/
private theorem outside_iff
    (aligned : Aligned read marks blocks (',' :: after) (⟨.comma, [',']⟩ :: later)) :
    marks = {} ↔ blocks = [] := by
  have same := aligned.same
  have visible : ¬(marks = {} ∧ blocks = []) →
      ¬∀ character ∈ read ++ [], Text.isBlank character = true := by
    rw [List.append_nil]
    exact fun differ blank => differ (aligned.fresh blank)
  rw [tokenPieces, openAfter_comma] at same
  constructor
  · intro closed
    subst closed
    by_contra inside
    rw [pieces_comma_cons, if_neg (fun cut => inside cut.1)] at same
    exact trimmedPieces_ne_of_cut (visible fun nothing => inside nothing.2)
      (goesOn_of_modifyHead [] [] (tokenPieces_ne_nil blocks later)) same
  · intro outside
    subst outside
    by_contra opened
    rw [pieces_cons_of_keepsWhole (keepsWhole_of_ne_empty opened ','), if_pos ⟨rfl, rfl⟩] at same
    exact trimmedPieces_ne_of_cut (visible fun nothing => opened nothing.1)
      (goesOn_of_modifyHead [] [] (pieces_ne_nil _ after)) same.symm

/-- Both cut at a comma or neither does, and they stay aligned. -/
theorem at_comma (aligned : Aligned read marks blocks (',' :: after) (⟨.comma, [',']⟩ :: later)) :
    (marks = {} ↔ blocks = []) ∧ ∃ next, Aligned next (marks.after ',') blocks after later := by
  refine ⟨aligned.outside_iff, ?_⟩
  by_cases outside : blocks = []
  · have closed := aligned.outside_iff.mpr outside
    subst closed outside
    exact ⟨[], aligned.cut_at_comma⟩
  · exact ⟨_, aligned.pass_comma (fun closed => outside (aligned.outside_iff.mp closed)) outside⟩

variable {token : Token} {written : List Char}

/-- The scan cuts no other token. -/
private theorem keepsWhole (aligned : Aligned read marks blocks (written ++ after)
      (⟨token, written⟩ :: later))
    (spelled : Spelled after token written) (notComma : token ≠ .comma) :
    Throughout KeepsWhole marks written := by
  by_contra whole
  have same := aligned.same
  rcases exists_cut whole with ⟨before, behind, parts, kept, closed⟩
  rw [tokenPieces, if_neg (fun cut => notComma cut.2), parts, List.append_assoc,
    pieces_append_of_keepsWhole kept, closed, List.cons_append, pieces_comma_cons,
    List.modifyHead_cons, List.append_nil] at same
  refine trimmedPieces_ne_of_cut ?_
    (goesOn_of_modifyHead before behind (tokenPieces_ne_nil _ later)) same
  intro blank
  rw [parts] at spelled
  exact notComma (spelled.eq_comma fun character isBefore =>
    blank character (List.mem_append_right _ isBefore))

theorem at_token (aligned : Aligned read marks blocks (written ++ after)
      (⟨token, written⟩ :: later))
    (spelled : Spelled after token written) (notComma : token ≠ .comma) :
    Throughout KeepsWhole marks written ∧
      Aligned (read ++ written) (marks.afterAll written) (openAfter blocks token) after later := by
  have whole := aligned.keepsWhole spelled notComma
  refine ⟨whole, ?_, ?_⟩
  · intro blank
    rw [List.forall_mem_append] at blank
    rcases aligned.fresh blank.1 with ⟨rfl, rfl⟩
    exact ⟨wellQuoted_empty.afterAll_blanks blank.2, openAfter_nil (spelled.opens_eq_none blank.2)⟩
  · have same := aligned.same
    rw [tokenPieces, if_neg (fun cut => notComma cut.2),
      pieces_append_of_keepsWhole whole] at same
    simpa [List.modifyHead_modifyHead, Function.comp_def, List.append_assoc] using same

end Aligned

theorem inStep_of_aligned {text : List Char} {lexemes : List Lexeme}
    (reading : Reading text lexemes) {read : List Char} {marks : OpenMarks}
    {blocks : List Bracket} (aligned : Aligned read marks blocks text lexemes) :
    InStep marks blocks lexemes := by
  induction reading generalizing read marks blocks with
  | nil => trivial
  | @cons token written after later spelled _ rest induction =>
      rw [InStep]
      by_cases comma : token = .comma
      · subst comma
        have isComma : written = [','] := spelled
        subst isComma
        rcases aligned.at_comma with ⟨agree, next, aligned⟩
        rw [if_pos rfl, openAfter_comma]
        exact ⟨agree, induction aligned⟩
      · rcases aligned.at_token spelled comma with ⟨whole, aligned⟩
        rw [if_neg comma]
        exact ⟨whole, induction aligned⟩

/-! ## Familiar tokens -/

/-- The scan of the characters takes the token for something else: an address, a string that
ends with its line, or an opening curly bracket. -/
def isForeign : Token → Bool
  | .badString => true
  | .url _ => true
  | .badUrl => true
  | .opening .curly => true
  | _ => false

/-- The scan of the characters takes the token for what it is. Nothing in it is escaped, a
comment holds no marks, and a closing bracket closes the innermost block if any is open. -/
structure Familiar (blocks : List Bracket) (lexeme : Lexeme) : Prop where
  known : isForeign lexeme.token = false
  shown : if lexeme.token = .comment then ∀ character ∈ lexeme.written, character ∉ listMarks
    else '\\' ∉ lexeme.written
  closes : lexeme.token.closes? = none ∨ lexeme.token.closes? = some .curly ∨ blocks = [] ∨
    lexeme.token.closes? = blocks.head?

instance (blocks : List Bracket) (lexeme : Lexeme) : Decidable (Familiar blocks lexeme) :=
  have := lexeme.written.decidableBAll fun character => character ∉ listMarks
  decidable_of_iff
    (isForeign lexeme.token = false ∧
      (if lexeme.token = .comment then ∀ character ∈ lexeme.written, character ∉ listMarks
        else '\\' ∉ lexeme.written) ∧
      (lexeme.token.closes? = none ∨ lexeme.token.closes? = some .curly ∨ blocks = [] ∨
        lexeme.token.closes? = blocks.head?))
    ⟨fun ⟨known, shown, closes⟩ => ⟨known, shown, closes⟩,
      fun ⟨known, shown, closes⟩ => ⟨known, shown, closes⟩⟩

def AllFamiliar (blocks : List Bracket) : List Lexeme → Prop
  | [] => True
  | lexeme :: rest => Familiar blocks lexeme ∧ AllFamiliar (openAfter blocks lexeme.token) rest

instance decidableAllFamiliar (blocks : List Bracket) :
    (lexemes : List Lexeme) → Decidable (AllFamiliar blocks lexemes)
  | [] => .isTrue trivial
  | lexeme :: rest =>
      have := decidableAllFamiliar (openAfter blocks lexeme.token) rest
      inferInstanceAs (Decidable (Familiar blocks lexeme ∧ _))

example : AllFamiliar [] (lexemes ":is(.a, .b), [x=\"a,b\"] /* or */ > .c".toList) := by
  decide +kernel

theorem Familiar.unescaped {blocks : List Bracket} {lexeme : Lexeme}
    (familiar : Familiar blocks lexeme) (notComment : lexeme.token ≠ .comment) :
    '\\' ∉ lexeme.written := by
  have shown := familiar.shown
  rwa [if_neg notComment] at shown

theorem scan_of_not_mem_listMarks (depth : Nat) {text : List Char}
    (plain : ∀ character ∈ text, character ∉ listMarks) :
    Throughout KeepsWhole ⟨depth, none⟩ text ∧ afterAll ⟨depth, none⟩ text = ⟨depth, none⟩ := by
  induction text with
  | nil => exact ⟨trivial, rfl⟩
  | cons head tail induction =>
      rw [List.forall_mem_cons] at plain
      have notMark := plain.1
      simp only [listMarks, List.mem_cons, List.not_mem_nil, or_false, not_or] at notMark
      have stays : after ⟨depth, none⟩ head = ⟨depth, none⟩ := by simp [after, notMark]
      have whole : KeepsWhole ⟨depth, none⟩ head := by simp [KeepsWhole, cutsAt, notMark]
      rcases induction plain.2 with ⟨later, unchanged⟩
      refine ⟨⟨whole, ?_⟩, ?_⟩
      · rwa [stays]
      · rwa [afterAll_cons, stays]

private theorem scan_of_quotedBy {depth : Nat} {quote : Char}
    (isQuote : quote = '"' ∨ quote = '\'') {after inside : List Char}
    (quoted : QuotedBy quote after inside) :
    Throughout KeepsWhole ⟨depth, none⟩ (quote :: inside) ∧
      (afterAll ⟨depth, none⟩ (quote :: inside) = ⟨depth, none⟩ ∨ after = []) := by
  have opens : OpenMarks.after ⟨depth, none⟩ quote = ⟨depth, some quote⟩ := by
    simp [OpenMarks.after, isQuote]
  have whole : KeepsWhole ⟨depth, none⟩ quote := by
    rcases isQuote with rfl | rfl <;> simp [KeepsWhole, cutsAt]
  rw [Throughout, afterAll_cons, opens]
  rcases quoted with ⟨content, rfl, unquoted⟩ | ⟨atEnd, unquoted⟩
  · rw [throughout_append, afterAll_append, afterAll_of_quoted unquoted]
    refine ⟨⟨whole, keepsWhole_of_quoted unquoted, ?_, trivial⟩, .inl ?_⟩
    · simp [KeepsWhole, cutsAt]
    · simp [OpenMarks.after]
  · exact ⟨⟨whole, keepsWhole_of_quoted unquoted⟩, .inr atEnd⟩

private theorem scan_of_closing {blocks : List Bracket} {bracket : Bracket}
    {written : List Char} (familiar : Familiar blocks ⟨.closing bracket, written⟩)
    (noCurly : .curly ∉ blocks) :
    OpenMarks.after ⟨blocks.length, none⟩ bracket.closingMark =
      ⟨(openAfter blocks (.closing bracket)).length, none⟩ := by
  have closes : Token.closes? (.closing bracket) = some bracket := rfl
  cases blocks with
  | nil => cases bracket <;> rfl
  | cons inner outer =>
      rw [openAfter_cons rfl, closes]
      rw [List.mem_cons, not_or] at noCurly
      rcases familiar.closes with never | curly | outside | innermost
      · cases never
      · cases Option.some.inj curly
        rw [if_neg (fun same => noCurly.1 (Option.some.inj same))]
        rfl
      · cases outside
      · cases Option.some.inj innermost
        rw [if_pos rfl]
        cases bracket with
        | curly => exact absurd rfl noCurly.1
        | round => rfl
        | square => rfl

/-- The scan of a familiar token counts the blocks that it opens or closes, and cuts it
nowhere. -/
theorem Familiar.scan {blocks : List Bracket} {token : Token} {written after : List Char}
    (familiar : Familiar blocks ⟨token, written⟩) (spelled : Spelled after token written)
    (notComma : token ≠ .comma) (noCurly : .curly ∉ blocks) :
    Throughout KeepsWhole ⟨blocks.length, none⟩ written ∧
      (afterAll ⟨blocks.length, none⟩ written = ⟨(openAfter blocks token).length, none⟩ ∨
        after = []) := by
  have others : token.opens? = none → token.closes? = none →
      (∀ character ∈ written, character ∉ listMarks) →
      Throughout KeepsWhole ⟨blocks.length, none⟩ written ∧
        (afterAll ⟨blocks.length, none⟩ written = ⟨(openAfter blocks token).length, none⟩ ∨
          after = []) := by
    intro opens closes plain
    rw [openAfter_of_neither opens closes]
    exact ⟨(scan_of_not_mem_listMarks _ plain).1, .inl (scan_of_not_mem_listMarks _ plain).2⟩
  cases token with
  | comma => exact absurd rfl notComma
  | badString => cases familiar.known
  | url => cases familiar.known
  | badUrl => cases familiar.known
  | opening bracket =>
      rw [show written = [bracket.openingMark] from spelled, openAfter_of_opens rfl]
      cases bracket with
      | curly => cases familiar.known
      | round => exact ⟨⟨by simp [KeepsWhole, cutsAt, Bracket.openingMark], trivial⟩, .inl rfl⟩
      | square => exact ⟨⟨by simp [KeepsWhole, cutsAt, Bracket.openingMark], trivial⟩, .inl rfl⟩
  | closing bracket =>
      rw [show written = [bracket.closingMark] from spelled]
      refine ⟨⟨?_, trivial⟩, .inl (scan_of_closing familiar noCurly)⟩
      cases bracket <;> simp [KeepsWhole, cutsAt, Bracket.closingMark]
  | function name =>
      rcases spelled with ⟨name, rfl, unmarked⟩
      have unescaped : '\\' ∉ name :=
        fun backslash => familiar.unescaped (by simp) (List.mem_append_left _ backslash)
      rcases scan_of_not_mem_listMarks blocks.length (unmarked.not_mem unescaped) with
        ⟨whole, unchanged⟩
      rw [throughout_append, afterAll_append, unchanged, openAfter_of_opens rfl]
      exact ⟨⟨whole, by simp [KeepsWhole, cutsAt], trivial⟩, .inl rfl⟩
  | string content =>
      rcases spelled with ⟨quote, inside, isQuote, rfl, quoted⟩
      have unescaped : '\\' ∉ inside :=
        fun backslash => familiar.unescaped (by simp) (List.mem_cons_of_mem _ backslash)
      rw [openAfter_of_neither rfl rfl]
      exact scan_of_quotedBy isQuote (quoted unescaped)
  | comment => exact others rfl rfl familiar.shown
  | _ => exact others rfl rfl (Unmarked.not_mem spelled (familiar.unescaped (by simp)))

theorem Familiar.curly_not_mem {blocks : List Bracket} {lexeme : Lexeme}
    (familiar : Familiar blocks lexeme) (noCurly : .curly ∉ blocks) :
    .curly ∉ openAfter blocks lexeme.token := by
  cases opens : lexeme.token.opens? with
  | some bracket =>
      rw [openAfter_of_opens opens, List.mem_cons, not_or]
      refine ⟨?_, noCurly⟩
      rintro rfl
      rcases lexeme with ⟨token, written⟩
      cases token <;> cases opens
      cases familiar.known
  | none =>
      cases blocks with
      | nil =>
          rw [openAfter_nil opens]
          exact List.not_mem_nil
      | cons inner outer =>
          rw [List.mem_cons, not_or] at noCurly
          rw [openAfter_cons opens]
          split
          · exact noCurly.2
          · exact List.not_mem_cons_of_ne_of_not_mem noCurly.1 noCurly.2

/-- Familiar tokens keep the scan in step: its depth is the number of open blocks. -/
theorem inStep_of_allFamiliar {text : List Char} {lexemes : List Lexeme}
    (reading : Reading text lexemes) {blocks : List Bracket}
    (familiar : AllFamiliar blocks lexemes) (noCurly : .curly ∉ blocks) :
    InStep ⟨blocks.length, none⟩ blocks lexemes := by
  induction reading generalizing blocks with
  | nil => trivial
  | @cons token written after later spelled nonempty rest induction =>
      rcases familiar with ⟨here, familiar⟩
      have inStep := induction familiar (here.curly_not_mem noCurly)
      rw [InStep]
      by_cases comma : token = .comma
      · subst comma
        have isComma : written = [','] := spelled
        subst isComma
        rw [if_pos rfl]
        rw [openAfter_comma] at inStep ⊢
        refine ⟨⟨fun closed => ?_, fun outside => by rw [outside]; rfl⟩, inStep⟩
        exact List.eq_nil_of_length_eq_zero (congrArg OpenMarks.depth closed)
      · rw [if_neg comma]
        rcases here.scan spelled comma noCurly with ⟨whole, scanned | atEnd⟩
        · rw [scanned]
          exact ⟨whole, inStep⟩
        · rw [rest.eq_nil atEnd]
          exact ⟨whole, trivial⟩

/-! ## Agreement -/

private theorem split_eq_splitByTokens_iff (list : String) :
    split list = splitByTokens list ↔ InStep {} [] (lexemes list.toList) := by
  have reading := reading_lexemes list.toList
  have injective : Function.Injective (List.map String.ofList) :=
    List.map_injective_iff.mpr fun first second same => by
      rw [← String.toList_ofList (l := first), same, String.toList_ofList]
  rw [split, splitByTokens, injective.eq_iff, members_eq_trimmedPieces]
  constructor
  · intro same
    exact inStep_of_aligned reading (aligned_nil same)
  · intro inStep
    rw [pieces_eq_tokenPieces reading inStep]

/-- The two ways to cut a list give the same members exactly if they are in step, and they are
where all tokens are familiar. -/
theorem split_agrees (list : String) :
    (split list = splitByTokens list ↔ InStep {} [] (lexemes list.toList)) ∧
      (AllFamiliar [] (lexemes list.toList) → split list = splitByTokens list) := by
  refine ⟨split_eq_splitByTokens_iff list, fun familiar => ?_⟩
  rw [split_eq_splitByTokens_iff]
  exact inStep_of_allFamiliar (reading_lexemes list.toList) familiar List.not_mem_nil

/-- An escaped comma belongs to an identifier, and yet the list is cut at it. -/
theorem split_escapedComma :
    split "a\\,b" = ["a\\", "b"] ∧ splitByTokens "a\\,b" = ["a\\,b"] ∧
      split "a\\,b" ≠ splitByTokens "a\\,b" := by
  have cut : split "a\\,b" = ["a\\", "b"] := by decide
  have whole : splitByTokens "a\\,b" = ["a\\,b"] := by decide +kernel
  refine ⟨cut, whole, ?_⟩
  rw [cut, whole]
  decide

end Stylebook.Selector
