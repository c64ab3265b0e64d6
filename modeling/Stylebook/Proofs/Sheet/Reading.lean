import Mathlib.Data.List.Infix
import Stylebook.Sheet.Basic

/-!
Reading a style sheet back from its text. Nothing in the text is escaped. But no line of a
declaration can be taken for the end of a rule, and a property ends at the first colon with a space
behind it, whatever its value holds. So the text tells the selectors and declarations of the rules,
if they have no line feeds and no property has a colon with a space behind it.
-/

namespace Stylebook

/-! ## Lines -/

def linesOf (text : List Char) : List (List Char) := (text.splitOn '\n').dropLast

theorem linesOf_flatMap {lines : List (List Char)} (unbroken : ∀ line ∈ lines, '\n' ∉ line) :
    linesOf (lines.flatMap fun line => line ++ ['\n']) = lines := by
  have separated : ∀ lines : List (List Char), (lines.flatMap fun line => line ++ ['\n']) =
      ['\n'].intercalate (lines ++ [[]]) := by
    intro lines
    induction lines with
    | nil => rfl
    | cons line rest induction =>
        rcases List.exists_cons_of_ne_nil (List.append_ne_nil_of_right_ne_nil rest
          (List.cons_ne_nil ([] : List Char) [])) with ⟨next, later, isCons⟩
        rw [List.flatMap_cons, induction, List.cons_append, isCons, List.intercalate_cons_cons]
  have allUnbroken : ∀ line ∈ lines ++ [[]], '\n' ∉ line := by
    rw [List.forall_mem_append, List.forall_mem_singleton]
    exact ⟨unbroken, List.not_mem_nil⟩
  rw [linesOf, separated, List.splitOn_intercalate '\n' allUnbroken (by simp),
    List.dropLast_concat]

/-! ## Declarations -/

/-- A text up to its first colon with a space behind it, and the text after these two. -/
def cutAtColon : List Char → List Char × List Char
  | ':' :: ' ' :: rest => ([], rest)
  | character :: rest => (character :: (cutAtColon rest).1, (cutAtColon rest).2)
  | [] => ([], [])

theorem cutAtColon_append {property : List Char} (plain : ¬[':', ' '] <:+: property)
    (value : List Char) : cutAtColon (property ++ ':' :: ' ' :: value) = (property, value) := by
  induction property with
  | nil => rfl
  | cons character rest induction =>
      have later := induction fun infixed => plain (infixed.trans (List.suffix_cons _ _).isInfix)
      rw [List.cons_append, cutAtColon, later]
      intro after isColon isCut
      cases rest with
      | nil => exact absurd (List.cons.inj isCut).1 (by decide)
      | cons next rest =>
          rw [isColon, (List.cons.inj isCut).1] at plain
          exact plain (List.prefix_append [':', ' '] rest).isInfix

namespace Declaration

def line (declaration : Declaration) : List Char := ("  " ++ declaration.text ++ ";").toList

def ofLine (line : List Char) : Declaration :=
  let (property, value) := cutAtColon (line.drop 2).dropLast
  ⟨String.ofList property, String.ofList value⟩

variable {declaration : Declaration}

theorem line_eq : declaration.line =
    ' ' :: ' ' :: (declaration.property.toList ++ ':' :: ' ' :: declaration.value.toList ++
      [';']) := by
  simp [line, text]

theorem ofLine_line (plain : ¬[':', ' '] <:+: declaration.property.toList) :
    ofLine declaration.line = declaration := by
  rw [ofLine, line_eq, List.drop_succ_cons, List.drop_succ_cons, List.drop_zero,
    List.dropLast_concat, cutAtColon_append plain]
  simp

end Declaration

/-! ## Rules -/

namespace Rule

def content (rule : Rule) : String × List Declaration := (rule.selector, rule.declarations)

structure IsPlain (rule : Rule) : Prop where
  selector : '\n' ∉ rule.selector.toList
  property : ∀ declaration ∈ rule.declarations, '\n' ∉ declaration.property.toList
  value : ∀ declaration ∈ rule.declarations, '\n' ∉ declaration.value.toList
  unpaired : ∀ declaration ∈ rule.declarations, ¬[':', ' '] <:+: declaration.property.toList

instance (rule : Rule) : Decidable rule.IsPlain :=
  decidable_of_iff
    ('\n' ∉ rule.selector.toList ∧
      ∀ declaration ∈ rule.declarations, '\n' ∉ declaration.property.toList ∧
        '\n' ∉ declaration.value.toList ∧ ¬[':', ' '] <:+: declaration.property.toList)
    ⟨fun ⟨selector, each⟩ => ⟨selector, fun d member => (each d member).1,
      fun d member => (each d member).2.1, fun d member => (each d member).2.2⟩,
    fun plain => ⟨plain.selector, fun d member => ⟨plain.property d member, plain.value d member,
      plain.unpaired d member⟩⟩⟩

def lastLine : List Char := ['\x7d']

theorem map_toList_lines (rule : Rule) : rule.lines.map String.toList =
    (rule.selector.toList ++ [' ', '\x7b']) ::
      (rule.declarations.map Declaration.line ++ [lastLine]) := by
  simp [lines, lastLine, Declaration.line, Function.comp_def]

theorem IsPlain.unbroken {rule : Rule} (plain : rule.IsPlain) :
    ∀ line ∈ rule.lines.map String.toList, '\n' ∉ line := by
  rw [map_toList_lines, List.forall_mem_cons, List.forall_mem_append, List.forall_mem_singleton,
    List.forall_mem_map]
  refine ⟨?_, fun declaration member => ?_, by decide⟩
  · simp [plain.selector]
  · simp [Declaration.line_eq, plain.property declaration member, plain.value declaration member]

/-- The contents of the rules that are written in some lines. Up to the line that ends it, the
lines of a rule after the first are its declarations, and behind it there is an empty line. -/
def contentsOfLines : List (List Char) → List (String × List Declaration)
  | [] => []
  | first :: rest =>
      (String.ofList (first.take (first.length - 2)),
          (rest.takeWhile (· != lastLine)).map Declaration.ofLine) ::
        contentsOfLines ((rest.dropWhile (· != lastLine)).drop 2)
  termination_by lines => lines.length
  decreasing_by
    have shorter := (List.dropWhile_sublist (l := rest) (· != lastLine)).length_le
    rw [List.length_drop, List.length_cons]
    omega

theorem contentsOfLines_lines {rule : Rule} (plain : rule.IsPlain) (after : List (List Char)) :
    contentsOfLines (rule.lines.map String.toList ++ after) =
      rule.content :: contentsOfLines (after.drop 1) := by
  have inside : ∀ line ∈ rule.declarations.map Declaration.line, (line != lastLine) = true := by
    rw [List.forall_mem_map]
    intro declaration _
    rw [Declaration.line_eq]
    rfl
  have declarations : (rule.declarations.map Declaration.line).map Declaration.ofLine =
      rule.declarations := by
    rw [List.map_map, List.map_congr_left (g := id), List.map_id]
    exact fun declaration member => Declaration.ofLine_line (plain.unpaired declaration member)
  have selector : (rule.selector.toList ++ [' ', '\x7b']).take
      ((rule.selector.toList ++ [' ', '\x7b']).length - 2) = rule.selector.toList := by
    rw [List.length_append]
    exact List.take_left
  rw [map_toList_lines, List.cons_append, contentsOfLines, selector, List.append_assoc,
    List.takeWhile_append_of_pos inside, List.dropWhile_append_of_pos inside,
    List.singleton_append, List.takeWhile_cons_of_neg (by simp), List.append_nil, declarations,
    List.dropWhile_cons_of_neg (by simp), String.ofList_toList, content]
  rfl

end Rule

/-! ## Sheets -/

namespace Sheet

def linesOfRules : List Rule → List (List Char)
  | [] => []
  | [last] => last.lines.map String.toList
  | rule :: next :: rest => rule.lines.map String.toList ++ [] :: linesOfRules (next :: rest)

def contentsOfCss (text : String) : List (String × List Declaration) :=
  Rule.contentsOfLines (linesOf text.toList)

theorem toList_css_rule (rule : Rule) :
    rule.css.toList = (rule.lines.map String.toList).flatMap fun line => line ++ ['\n'] := by
  simp [Rule.css, String.toList_join, List.flatMap_map]

theorem toList_css (sheet : Sheet) :
    sheet.css.toList = (linesOfRules sheet.rules).flatMap fun line => line ++ ['\n'] := by
  rw [css, String.toList_intercalate, List.map_map]
  induction sheet.rules with
  | nil => rfl
  | cons rule rest induction =>
      cases rest with
      | nil => simp [linesOfRules, toList_css_rule]
      | cons next rest =>
          rw [List.map_cons, List.map_cons, List.intercalate_cons_cons, ← List.map_cons, induction,
            linesOfRules, List.flatMap_append, List.flatMap_cons, Function.comp, toList_css_rule,
            List.append_assoc]
          rfl

theorem unbroken_linesOfRules {rules : List Rule} (plain : ∀ rule ∈ rules, rule.IsPlain) :
    ∀ line ∈ linesOfRules rules, '\n' ∉ line := by
  induction rules with
  | nil => exact fun _ member => absurd member List.not_mem_nil
  | cons rule rest induction =>
      rw [List.forall_mem_cons] at plain
      cases rest with
      | nil => exact plain.1.unbroken
      | cons next rest =>
          rw [linesOfRules, List.forall_mem_append, List.forall_mem_cons]
          exact ⟨plain.1.unbroken, List.not_mem_nil, induction plain.2⟩

theorem contentsOfLines_linesOfRules {rules : List Rule} (plain : ∀ rule ∈ rules, rule.IsPlain) :
    Rule.contentsOfLines (linesOfRules rules) = rules.map Rule.content := by
  induction rules with
  | nil => rw [linesOfRules, Rule.contentsOfLines, List.map_nil]
  | cons rule rest induction =>
      rw [List.forall_mem_cons] at plain
      cases rest with
      | nil =>
          have single := Rule.contentsOfLines_lines plain.1 []
          rwa [List.append_nil, List.drop_nil, Rule.contentsOfLines] at single
      | cons next rest =>
          rw [linesOfRules, Rule.contentsOfLines_lines plain.1, List.drop_succ_cons,
            List.drop_zero, induction plain.2, ← List.map_cons]

theorem css_of_contents {sheet other : Sheet}
    (same : sheet.rules.map Rule.content = other.rules.map Rule.content) :
    sheet.css = other.css := by
  have byContent (rules : List Rule) : rules.map Rule.css =
      (rules.map Rule.content).map fun content => Rule.css ⟨content.1, content.2, []⟩ := by
    rw [List.map_map]
    rfl
  rw [css, css, byContent, same, ← byContent]

/-- The selectors and declarations of the rules are read back from the text of a style sheet, so
two style sheets have the same text just if they have the same rules in the same order. -/
theorem contents_of_css {sheet other : Sheet} (plain : ∀ rule ∈ sheet.rules, rule.IsPlain)
    (otherPlain : ∀ rule ∈ other.rules, rule.IsPlain) :
    contentsOfCss sheet.css = sheet.rules.map Rule.content ∧
      (sheet.css = other.css ↔ sheet.rules.map Rule.content = other.rules.map Rule.content) := by
  have read {sheet : Sheet} (plain : ∀ rule ∈ sheet.rules, rule.IsPlain) :
      contentsOfCss sheet.css = sheet.rules.map Rule.content := by
    rw [contentsOfCss, toList_css, linesOf_flatMap (unbroken_linesOfRules plain),
      contentsOfLines_linesOfRules plain]
  refine ⟨read plain, fun same => ?_, css_of_contents⟩
  rw [← read plain, same, read otherPlain]

/-- A sheet with a selector that reads as the end of a rule, and one that reads as a declaration. -/
def bracketSelectors : Sheet :=
  ⟨[⟨"\x7d", [⟨"a:", "b: c;\x7d"⟩], []⟩, ⟨"  x: y;", [⟨"", "\x7d"⟩], []⟩]⟩

theorem contents_of_bracketSelectors :
    contentsOfCss bracketSelectors.css =
        [("\x7d", [⟨"a:", "b: c;\x7d"⟩]), ("  x: y;", [⟨"", "\x7d"⟩])] ∧
      bracketSelectors.css ≠ css ⟨[⟨"\x7d", [⟨"a", ": b: c;\x7d"⟩], []⟩]⟩ := by
  have read := @contents_of_css bracketSelectors
    ⟨[⟨"\x7d", [⟨"a", ": b: c;\x7d"⟩], []⟩]⟩ (by decide) (by decide)
  exact ⟨read.1, fun same => absurd (read.2.1 same) (by decide)⟩

end Sheet

end Stylebook
