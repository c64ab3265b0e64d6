import Mathlib.Data.List.Basic
import Stylebook.Proofs.Text.Trim
import Stylebook.Selector.List

/-!
The scan of a selector list: what is open at each of its characters, and the members that
the list is cut into. A member is trimmed, holds no comma at which a list is cut, and is the
only member of itself. Members that leave nothing open can be joined and cut again.
-/

namespace Stylebook.Selector

open Text

namespace OpenMarks

/-! ## Scanning -/

def afterAll (marks : OpenMarks) (text : List Char) : OpenMarks := text.foldl after marks

@[simp] theorem afterAll_nil (marks : OpenMarks) : marks.afterAll [] = marks := rfl

@[simp] theorem afterAll_cons (marks : OpenMarks) (head : Char) (tail : List Char) :
    marks.afterAll (head :: tail) = (marks.after head).afterAll tail := rfl

theorem afterAll_append (marks : OpenMarks) (left right : List Char) :
    marks.afterAll (left ++ right) = (marks.afterAll left).afterAll right :=
  List.foldl_append

def Throughout (Allowed : OpenMarks → Char → Prop) (marks : OpenMarks) : List Char → Prop
  | [] => True
  | character :: rest =>
      Allowed marks character ∧ Throughout Allowed (marks.after character) rest

instance decidableThroughout (Allowed : OpenMarks → Char → Prop)
    [∀ marks character, Decidable (Allowed marks character)] (marks : OpenMarks) :
    (text : List Char) → Decidable (Throughout Allowed marks text)
  | [] => .isTrue trivial
  | character :: rest =>
      have := decidableThroughout Allowed (marks.after character) rest
      inferInstanceAs (Decidable (Allowed marks character ∧ _))

variable {Allowed : OpenMarks → Char → Prop}

theorem throughout_append (marks : OpenMarks) (left right : List Char) :
    Throughout Allowed marks (left ++ right) ↔
      Throughout Allowed marks left ∧ Throughout Allowed (marks.afterAll left) right := by
  induction left generalizing marks with
  | nil => simp [Throughout]
  | cons head tail induction => simp [Throughout, induction, and_assoc]

/-! ## Blanks -/

def WellQuoted (marks : OpenMarks) : Prop :=
  ∀ quote ∈ marks.quote, quote = '"' ∨ quote = '\''

theorem wellQuoted_empty : WellQuoted {} := by
  intro quote opened
  cases opened

theorem WellQuoted.after {marks : OpenMarks} (wellQuoted : marks.WellQuoted)
    (character : Char) : (marks.after character).WellQuoted := by
  rcases marks with ⟨depth, quote⟩
  cases quote with
  | none =>
      by_cases quotes : character = '"' ∨ character = '\''
      · simp [OpenMarks.after, quotes, WellQuoted]
      · simp only [OpenMarks.after, quotes, if_false]
        split
        · exact wellQuoted
        · split <;> exact wellQuoted
  | some quote =>
      by_cases closes : character = quote
      · simp [OpenMarks.after, closes, WellQuoted]
      · simpa [OpenMarks.after, closes] using wellQuoted

theorem WellQuoted.afterAll {marks : OpenMarks} (wellQuoted : marks.WellQuoted)
    (text : List Char) : (marks.afterAll text).WellQuoted := by
  induction text generalizing marks with
  | nil => exact wellQuoted
  | cons head tail induction => exact induction (wellQuoted.after head)

theorem WellQuoted.after_blank {marks : OpenMarks} (wellQuoted : marks.WellQuoted)
    {character : Char} (blank : isBlank character = true) : marks.after character = marks := by
  have notDouble := ne_of_blank blank '"' rfl
  have notSingle := ne_of_blank blank '\'' rfl
  rcases marks with ⟨depth, quote⟩
  cases quote with
  | none =>
      simp [OpenMarks.after, notDouble, notSingle, ne_of_blank blank '(' rfl,
        ne_of_blank blank '[' rfl, ne_of_blank blank ')' rfl, ne_of_blank blank ']' rfl]
  | some quote =>
      have stays : character ≠ quote := by
        rcases wellQuoted quote rfl with equal | equal
        · rwa [equal]
        · rwa [equal]
      simp [OpenMarks.after, stays]

theorem WellQuoted.afterAll_blanks {marks : OpenMarks} (wellQuoted : marks.WellQuoted)
    {text : List Char} (blank : ∀ character ∈ text, isBlank character = true) :
    marks.afterAll text = marks := by
  induction text with
  | nil => rfl
  | cons head tail induction =>
      rw [afterAll_cons, wellQuoted.after_blank (blank head List.mem_cons_self)]
      exact induction fun character member => blank character (List.mem_cons_of_mem _ member)

theorem WellQuoted.afterAll_trim {marks : OpenMarks} (wellQuoted : marks.WellQuoted)
    (text : List Char) : marks.afterAll (trim text) = marks.afterAll text := by
  rcases exists_blanks_around_trim text with ⟨leading, trailing, parts, leadingBlank,
    trailingBlank⟩
  have unchanged := wellQuoted.afterAll_blanks leadingBlank
  calc
    marks.afterAll (trim text) = (marks.afterAll leading).afterAll (trim text) := by
      rw [unchanged]
    _ = ((marks.afterAll leading).afterAll (trim text)).afterAll trailing := by
      rw [((wellQuoted.afterAll leading).afterAll _).afterAll_blanks trailingBlank]
    _ = marks.afterAll text := by
      rw [← afterAll_append, ← afterAll_append, ← List.append_assoc, ← parts]

theorem WellQuoted.throughout_trim {marks : OpenMarks} (wellQuoted : marks.WellQuoted)
    {text : List Char} (throughout : Throughout Allowed marks text) :
    Throughout Allowed marks (trim text) := by
  rcases exists_blanks_around_trim text with ⟨leading, trailing, parts, leadingBlank, _⟩
  rw [parts, throughout_append, throughout_append,
    wellQuoted.afterAll_blanks leadingBlank] at throughout
  exact throughout.1.2

/-! ## Cuts -/

def KeepsWhole (marks : OpenMarks) (character : Char) : Prop :=
  marks.cutsAt character = false

instance (marks : OpenMarks) (character : Char) : Decidable (KeepsWhole marks character) :=
  inferInstanceAs (Decidable (_ = _))

/-- A list is cut only where nothing is open. -/
theorem eq_empty_of_cutsAt {marks : OpenMarks} {character : Char}
    (cut : marks.cutsAt character = true) : marks = {} ∧ character = ',' := by
  rcases marks with ⟨depth, quote⟩
  simp only [cutsAt, Bool.and_eq_true, beq_iff_eq] at cut
  rcases cut with ⟨⟨comma, level⟩, unquoted⟩
  subst level unquoted
  exact ⟨rfl, comma⟩

theorem keepsWhole_of_ne_empty {marks : OpenMarks} (opened : marks ≠ {}) (character : Char) :
    KeepsWhole marks character :=
  Bool.eq_false_iff.mpr fun cut => opened (eq_empty_of_cutsAt cut).1

/-! ## Within quotes -/

theorem afterAll_of_quoted {depth : Nat} {quote : Char} {text : List Char}
    (inside : quote ∉ text) : afterAll ⟨depth, some quote⟩ text = ⟨depth, some quote⟩ := by
  induction text with
  | nil => rfl
  | cons head tail induction =>
      rw [List.mem_cons, not_or] at inside
      have stays : after ⟨depth, some quote⟩ head = ⟨depth, some quote⟩ :=
        if_neg (Ne.symm inside.1)
      rw [afterAll_cons, stays, induction inside.2]

theorem keepsWhole_of_quoted {depth : Nat} {quote : Char} {text : List Char}
    (inside : quote ∉ text) : Throughout KeepsWhole ⟨depth, some quote⟩ text := by
  induction text with
  | nil => trivial
  | cons head tail induction =>
      rw [List.mem_cons, not_or] at inside
      have stays : after ⟨depth, some quote⟩ head = ⟨depth, some quote⟩ :=
        if_neg (Ne.symm inside.1)
      refine ⟨by simp [KeepsWhole, cutsAt], ?_⟩
      rw [stays]
      exact induction inside.2

end OpenMarks

open OpenMarks

/-! ## Pieces -/

theorem pieces_ne_nil (marks : OpenMarks) (text : List Char) : pieces marks text ≠ [] := by
  cases text with
  | nil => simp [pieces]
  | cons head tail =>
      rw [pieces]
      split
      · simp
      · split <;> simp

theorem pieces_cons_of_keepsWhole {marks : OpenMarks} {head : Char}
    (whole : KeepsWhole marks head) (tail : List Char) :
    pieces marks (head :: tail) = (pieces (marks.after head) tail).modifyHead (head :: ·) := by
  rw [pieces, whole]
  cases later : pieces (marks.after head) tail with
  | nil => exact absurd later (pieces_ne_nil _ _)
  | cons piece rest => rfl

theorem pieces_comma_cons (text : List Char) : pieces {} (',' :: text) = [] :: pieces {} text := by
  rw [pieces]
  rfl

theorem pieces_append_of_keepsWhole {marks : OpenMarks} {left : List Char}
    (whole : Throughout KeepsWhole marks left) (right : List Char) :
    pieces marks (left ++ right) = (pieces (marks.afterAll left) right).modifyHead (left ++ ·) := by
  induction left generalizing marks with
  | nil => cases equal : pieces marks right <;> simp [equal]
  | cons head tail induction =>
      rw [List.cons_append, pieces_cons_of_keepsWhole whole.1, induction whole.2,
        List.modifyHead_modifyHead]
      rfl

theorem pieces_of_keepsWhole {marks : OpenMarks} {text : List Char}
    (whole : Throughout KeepsWhole marks text) : pieces marks text = [text] := by
  have equal := pieces_append_of_keepsWhole whole []
  rw [List.append_nil] at equal
  simpa [pieces, List.modifyHead] using equal

/-- What holds of the pieces of a text because of what holds of the text where its scan
begins. It is enough to look at one character before the rest of a text, and at the same
character before a piece of that rest. -/
theorem forall_pieces (OfText OfPiece : OpenMarks → List Char → Prop) (empty : OfPiece {} [])
    (nil : ∀ marks, OfText marks [] → OfPiece marks [])
    (tail : ∀ marks character rest, OfText marks (character :: rest) →
      OfText (marks.after character) rest)
    (cons : ∀ marks character rest piece, KeepsWhole marks character →
      OfText marks (character :: rest) → OfPiece (marks.after character) piece →
      OfPiece marks (character :: piece))
    (text : List Char) : ∀ marks, OfText marks text → ∃ first later,
      pieces marks text = first :: later ∧ OfPiece marks first ∧
        ∀ piece ∈ later, OfPiece {} piece := by
  induction text with
  | nil =>
      intro marks good
      exact ⟨[], [], rfl, nil marks good, by simp⟩
  | cons head rest induction =>
      intro marks good
      rcases induction (marks.after head) (tail marks head rest good) with
        ⟨first, later, equal, firstGood, laterGood⟩
      by_cases cut : marks.cutsAt head = true
      · rcases eq_empty_of_cutsAt cut with ⟨rfl, rfl⟩
        refine ⟨[], first :: later, ?_, empty, ?_⟩
        · rw [← equal]
          exact pieces_comma_cons rest
        · intro piece member
          rcases List.mem_cons.mp member with rfl | member
          · exact firstGood
          · exact laterGood piece member
      · have whole : KeepsWhole marks head := Bool.eq_false_iff.mpr cut
        refine ⟨head :: first, later, ?_,
          cons marks head rest first whole good firstGood, laterGood⟩
        rw [pieces_cons_of_keepsWhole whole, equal]
        rfl

theorem forall_mem_pieces (OfText OfPiece : OpenMarks → List Char → Prop) (empty : OfPiece {} [])
    (nil : ∀ marks, OfText marks [] → OfPiece marks [])
    (tail : ∀ marks character rest, OfText marks (character :: rest) →
      OfText (marks.after character) rest)
    (cons : ∀ marks character rest piece, KeepsWhole marks character →
      OfText marks (character :: rest) → OfPiece (marks.after character) piece →
      OfPiece marks (character :: piece))
    {text : List Char} (good : OfText {} text) : ∀ piece ∈ pieces {} text, OfPiece {} piece := by
  rcases forall_pieces OfText OfPiece empty nil tail cons text {} good with
    ⟨first, later, equal, firstGood, laterGood⟩
  rw [equal]
  exact List.forall_mem_cons.mpr ⟨firstGood, laterGood⟩

theorem keepsWhole_of_mem_pieces {text piece : List Char} (member : piece ∈ pieces {} text) :
    Throughout KeepsWhole {} piece :=
  forall_mem_pieces (fun _ _ => True) (Throughout KeepsWhole) trivial
    (fun _ _ => trivial) (fun _ _ _ _ => trivial)
    (fun _ _ _ _ whole _ rest => ⟨whole, rest⟩) trivial piece member

theorem throughout_of_mem_pieces {Allowed : OpenMarks → Char → Prop} {text piece : List Char}
    (throughout : Throughout Allowed {} text) (member : piece ∈ pieces {} text) :
    Throughout Allowed {} piece :=
  forall_mem_pieces (Throughout Allowed) (Throughout Allowed) trivial
    (fun _ good => good) (fun _ _ _ good => good.2)
    (fun _ _ _ _ _ good rest => ⟨good.1, rest⟩) throughout piece member

theorem closed_of_mem_pieces {text piece : List Char} (closed : afterAll {} text = {})
    (member : piece ∈ pieces {} text) : afterAll {} piece = {} :=
  forall_mem_pieces (fun marks text => marks.afterAll text = {})
    (fun marks piece => marks.afterAll piece = {}) rfl
    (fun _ good => good) (fun _ _ _ good => good)
    (fun _ _ _ _ _ _ rest => rest) closed piece member

private theorem closed_of_pieces_cons (marks : OpenMarks) (text : List Char) :
    ∃ first later, pieces marks text = first :: later ∧
      (later ≠ [] → marks.afterAll first = {}) ∧
        ∀ piece ∈ later.dropLast, afterAll {} piece = {} := by
  induction text generalizing marks with
  | nil => exact ⟨[], [], rfl, fun more => absurd rfl more, by simp⟩
  | cons head tail induction =>
      by_cases cut : marks.cutsAt head = true
      · rcases eq_empty_of_cutsAt cut with ⟨rfl, rfl⟩
        rcases induction {} with ⟨first, later, equal, firstClosed, laterClosed⟩
        refine ⟨[], first :: later, ?_, fun _ => rfl, ?_⟩
        · rw [← equal]
          exact pieces_comma_cons tail
        · intro piece member
          by_cases last : later = []
          · simp [last] at member
          · rw [List.dropLast_cons_of_ne_nil last] at member
            rcases List.mem_cons.mp member with rfl | member
            · exact firstClosed last
            · exact laterClosed piece member
      · have whole : KeepsWhole marks head := Bool.eq_false_iff.mpr cut
        rcases induction (marks.after head) with
          ⟨first, later, equal, firstClosed, laterClosed⟩
        refine ⟨head :: first, later, ?_, firstClosed, laterClosed⟩
        rw [pieces_cons_of_keepsWhole whole, equal]
        rfl

/-- A list is cut where nothing is open, so only the last piece may leave something open. -/
theorem closed_of_mem_dropLast_pieces {text piece : List Char}
    (member : piece ∈ (pieces {} text).dropLast) : afterAll {} piece = {} := by
  rcases closed_of_pieces_cons {} text with
    ⟨first, later, equal, firstClosed, laterClosed⟩
  rw [equal] at member
  by_cases last : later = []
  · simp [last] at member
  · rw [List.dropLast_cons_of_ne_nil last] at member
    rcases List.mem_cons.mp member with rfl | member
    · exact firstClosed last
    · exact laterClosed piece member

/-! ## Members -/

theorem mem_members {text member : List Char} :
    member ∈ members text ↔ (∃ piece ∈ pieces {} text, trim piece = member) ∧ member ≠ [] := by
  simp [members]

structure IsMember (text : List Char) : Prop where
  nonempty : text ≠ []
  trimmed : IsTrimmed text
  whole : Throughout KeepsWhole {} text

theorem isMember_of_mem_members {text member : List Char} (isMember : member ∈ members text) :
    IsMember member := by
  rcases mem_members.mp isMember with ⟨⟨piece, ofPieces, rfl⟩, nonempty⟩
  exact ⟨nonempty, trim_isTrimmed piece,
    wellQuoted_empty.throughout_trim (keepsWhole_of_mem_pieces ofPieces)⟩

theorem throughout_of_mem_members {Allowed : OpenMarks → Char → Prop}
    {text member : List Char} (throughout : Throughout Allowed {} text)
    (isMember : member ∈ members text) : Throughout Allowed {} member := by
  rcases mem_members.mp isMember with ⟨⟨piece, ofPieces, rfl⟩, _⟩
  exact wellQuoted_empty.throughout_trim (throughout_of_mem_pieces throughout ofPieces)

theorem closed_of_mem_members {text member : List Char} (closed : afterAll {} text = {})
    (isMember : member ∈ members text) : afterAll {} member = {} := by
  rcases mem_members.mp isMember with ⟨⟨piece, ofPieces, rfl⟩, _⟩
  rw [wellQuoted_empty.afterAll_trim]
  exact closed_of_mem_pieces closed ofPieces

private theorem mem_dropLast_of_mem_dropLast_filter {α : Type} {keeps : α → Bool}
    {values : List α} {value : α} (member : value ∈ (values.filter keeps).dropLast) :
    value ∈ values.dropLast := by
  rcases List.eq_nil_or_concat values with rfl | ⟨init, last, rfl⟩
  · cases member
  · rw [List.concat_eq_append, List.dropLast_concat]
    rw [List.concat_eq_append, List.filter_append] at member
    by_cases kept : keeps last = true
    · rw [List.filter_cons_of_pos kept, List.filter_nil, List.dropLast_concat] at member
      exact List.mem_of_mem_filter member
    · rw [List.filter_cons_of_neg kept, List.filter_nil, List.append_nil] at member
      exact List.mem_of_mem_filter (List.dropLast_subset _ member)

theorem closed_of_mem_dropLast_members {text member : List Char}
    (isMember : member ∈ (members text).dropLast) : afterAll {} member = {} := by
  have trimmed := mem_dropLast_of_mem_dropLast_filter isMember
  rw [← List.map_dropLast] at trimmed
  rcases List.mem_map.mp trimmed with ⟨piece, ofPieces, rfl⟩
  rw [wellQuoted_empty.afterAll_trim]
  exact closed_of_mem_dropLast_pieces ofPieces

theorem members_of_isMember {text : List Char} (isMember : IsMember text) :
    members text = [text] := by
  rw [members, pieces_of_keepsWhole isMember.whole, List.map_singleton,
    isMember.trimmed.trim_eq]
  exact List.filter_eq_self.mpr (by simp [isMember.nonempty])

theorem members_blank_cons {head : Char} (blank : isBlank head = true) (text : List Char) :
    members (head :: text) = members text := by
  have whole : KeepsWhole {} head := by
    simp [KeepsWhole, cutsAt, ne_of_blank blank ',' rfl]
  rw [members, pieces_cons_of_keepsWhole whole, wellQuoted_empty.after_blank blank]
  cases equal : pieces {} text with
  | nil => exact absurd equal (pieces_ne_nil _ _)
  | cons piece later => simp [members, equal, trim_blank_cons blank]

/-- The first member of a list ends at the first comma that is left outside of it. -/
theorem members_append_comma {left : List Char} (isMember : IsMember left)
    (closed : afterAll {} left = {}) (right : List Char) :
    members (left ++ ',' :: right) = left :: members right := by
  rw [members, pieces_append_of_keepsWhole isMember.whole, closed, pieces_comma_cons]
  simp [members, isMember.trimmed.trim_eq, isMember.nonempty]

theorem members_comma_cons (text : List Char) : members (',' :: text) = members text := by
  rw [members, pieces_comma_cons]
  rfl

/-- Nothing is left of a list only if it holds nothing but blanks and commas. -/
theorem members_eq_nil_iff (text : List Char) :
    members text = [] ↔ ∀ character ∈ text, isBlank character = true ∨ character = ',' := by
  induction text with
  | nil => simp [members, pieces, trim, trimStart, trimEnd]
  | cons head tail induction =>
      rw [List.forall_mem_cons]
      by_cases comma : head = ','
      · rw [comma, members_comma_cons, induction]
        simp
      · by_cases blank : isBlank head = true
        · rw [members_blank_cons blank, induction]
          simp [blank]
        · -- The first piece begins with the character, so something is left of it.
          have whole : KeepsWhole {} head := by simp [KeepsWhole, cutsAt, comma]
          have kept : members (head :: tail) ≠ [] := by
            rw [members, pieces_cons_of_keepsWhole whole]
            cases equal : pieces (OpenMarks.after {} head) tail with
            | nil => exact absurd equal (pieces_ne_nil _ _)
            | cons piece later =>
                have visible : trim (head :: piece) ≠ [] := by
                  intro nothing
                  exact blank ((trim_eq_nil_iff _).mp nothing head List.mem_cons_self)
                simp [visible]
          simp [kept, comma, blank]

/-- Members are joined so that cutting the list gives them back. Only the last of them may
leave something open. -/
theorem members_joined : ∀ {parts : List (List Char)}, (∀ part ∈ parts, IsMember part) →
    (∀ part ∈ parts.dropLast, afterAll {} part = {}) → members (joined parts) = parts
  | [], _, _ => by decide
  | [part], isMember, _ => by
      have alone : joined [part] = part := by simp [joined, List.intercalate]
      rw [alone]
      exact members_of_isMember (isMember part List.mem_cons_self)
  | part :: next :: rest, isMember, closed => by
      have later : members (joined (next :: rest)) = next :: rest := members_joined
        (fun other member => isMember other (List.mem_cons_of_mem _ member))
        (fun other member => closed other (List.mem_cons_of_mem _ member))
      have separated : joined (part :: next :: rest) =
          part ++ ',' :: ' ' :: joined (next :: rest) := by
        simp [joined, List.intercalate]
      rw [separated, members_append_comma (isMember part List.mem_cons_self)
        (closed part List.mem_cons_self), members_blank_cons rfl, later]

/-- A list that is put together from its members has the same members. -/
theorem members_joined_members (text : List Char) :
    members (joined (members text)) = members text :=
  members_joined (fun _ => isMember_of_mem_members) fun _ => closed_of_mem_dropLast_members

/-! ## Splitting -/

theorem length_split (list : String) : (split list).length = (members list.toList).length :=
  List.length_map _

theorem mem_split {list member : String} :
    member ∈ split list ↔ member.toList ∈ members list.toList := by
  constructor
  · intro isMember
    rcases List.mem_map.mp isMember with ⟨characters, isMember, rfl⟩
    rwa [String.toList_ofList]
  · intro isMember
    exact List.mem_map.mpr ⟨member.toList, isMember, String.ofList_toList⟩

theorem forall_mem_split_iff (list : String) (Holds : List Char → Prop) :
    (∀ member ∈ split list, Holds member.toList) ↔
      ∀ member ∈ members list.toList, Holds member := by
  simp [split, String.toList_ofList]

end Stylebook.Selector
