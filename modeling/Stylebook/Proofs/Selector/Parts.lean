import Stylebook.Proofs.Selector.Reading
import Stylebook.Selector.Profile

/-!
The parts of a selector list of the grammar, which are those that its components are read as.
-/

namespace Stylebook.Selector

open Css

def InCompound (part : Part) : Prop := part ≠ .comma ∧ part ≠ .boundary

/-! ## Reading parts -/

theorem withPart_append (before read : List Part) (part? : Option Part) :
    withPart (read ++ before) part? = withPart read part? ++ before := by
  cases part? <;> rfl

theorem partsOnto_append (before read : List Part) (components : List Component) :
    partsOnto (read ++ before) components = before.reverse ++ partsOnto read components := by
  induction read, components using partsOnto.induct (fun _ => True) with
  | case1 | case2 | case3 | case4 | case5 | case6 => trivial
  | case7 | case8 | case10 | case11 => simp [partsOnto]
  | case9 _ _ _ induction => exact induction
  | case12 _ _ _ induction => exact induction
  | case13 _ _ _ notLast notColons _ induction =>
      rw [partsOnto, partsOnto, withPart_append, induction] <;> assumption
  | case14 _ _ _ _ _ _ _ _ _ induction =>
      rw [partsOnto, partsOnto, withPart_append, induction] <;> assumption

section

variable {component next : Component} (rest : List Component)

theorem partsOnto_singleton (part : Part) (components : List Component) :
    partsOnto [part] components = part :: parts components :=
  partsOnto_append [part] [] components

theorem parts_nil : parts [] = [] := rfl

theorem parts_stop : parts (.token (.delimiter '.') :: next :: rest) = .classLike :: parts rest :=
  partsOnto_singleton .classLike rest

theorem parts_colons :
    parts (.token .colon :: .token .colon :: next :: rest) = .typeLike :: parts rest :=
  partsOnto_singleton .typeLike rest

theorem partsOnto_withPart (part? : Option Part) :
    partsOnto (withPart [] part?) rest = part?.toList ++ parts rest := by
  cases part? with
  | none => rfl
  | some part => exact partsOnto_singleton part rest

theorem parts_colon_cons (single : next ≠ .token .colon) :
    parts (.token .colon :: next :: rest) = (pseudo? next).toList ++ parts rest := by
  rw [parts, partsOnto, partsOnto_withPart]
  · exact fun isColon _ => single isColon
  · exact fun _ _ isColon _ => single isColon

theorem parts_cons (noStop : component ≠ .token (.delimiter '.'))
    (noColon : component ≠ .token .colon) :
    parts (component :: rest) = (Part.ofComponent? component).toList ++ parts rest := by
  rw [parts, partsOnto, partsOnto_withPart]
  all_goals intros; contradiction

end

namespace Grammar

/-! ## Parts -/

/-- A pseudo-element that may be written with one colon, in letters of either case. -/
def Name.isElement (name : Name) : Bool :=
  ["before", "after", "first-line", "first-letter"].contains
    (String.ofList (name.text.map Char.toLower))

def Head.part : Head → Part
  | .type _ => .typeLike
  | .universal => .universal

def Combinator.parts : Combinator → List Part
  | .descendant => [.boundary]
  | _ => [.boundary, .boundary, .boundary]

mutual

def Simple.part : Simple → Part
  | .id _ => .idLike
  | .className _ => .classLike
  | .attribute _ => .classLike
  | .pseudoClass name => if name.isElement then .typeLike else .classLike
  | .pseudoElement _ => .typeLike
  | .function .anywhere _ => .plain
  | .function _ argument => .list argument.parts

def Simples.parts : Simples → List Part
  | .nil => []
  | .cons first rest => first.part :: rest.parts

def Compound.parts : Compound → List Part
  | .headed head rest => head.part :: rest.parts
  | .bare first rest => first.part :: rest.parts

def Complex.parts : Complex → List Part
  | .last compound => compound.parts
  | .combined compound combinator rest => compound.parts ++ (combinator.parts ++ rest.parts)

def Selectors.parts : Selectors → List Part
  | .last member => member.parts
  | .listed member rest => member.parts ++ .comma :: .boundary :: rest.parts

end

theorem Head.parts_components (head : Head) (rest : List Component) :
    Selector.parts (head.component :: rest) = head.part :: Selector.parts rest := by
  cases head <;> simp [component, part, Name.token, parts_cons, Part.ofComponent?]

theorem Combinator.parts_components (combinator : Combinator) (rest : List Component) :
    Selector.parts (combinator.components ++ rest) = combinator.parts ++ Selector.parts rest := by
  cases combinator <;> simp [components, parts, parts_cons, Part.ofComponent?]

theorem Name.pseudo_token (name : Name) :
    pseudo? name.token = some (if name.isElement then .typeLike else .classLike) := by
  rw [token, pseudo?, lowerName, String.toList_ofList]
  rfl

theorem parts_colon {next : Component} {part : Part} (isPart : pseudo? next = some part)
    (rest : List Component) : Selector.parts (.token .colon :: next :: rest) =
      part :: Selector.parts rest := by
  have notColon : next ≠ .token .colon := by
    rintro rfl
    cases isPart
  rw [parts_colon_cons rest notColon, isPart, Option.toList_some, List.singleton_append]

theorem Function.pseudo_block (kind : Function) (contents : List Component) :
    pseudo? (.block (.function (String.ofList kind.text)) contents) =
      some (if kind = .anywhere then .plain else .list (Selector.parts contents)) := by
  rw [pseudo?, lowerName, String.toList_ofList]
  cases kind <;> rfl

mutual

theorem Simple.parts_components (rest : List Component) : (simple : Simple) →
    Selector.parts (simple.components ++ rest) = simple.part :: Selector.parts rest
  | .id name => by
      simp [Simple.components, Simple.part, parts_cons, Part.ofComponent?]
  | .className name => by
      simp [Simple.components, Simple.part, parts_stop]
  | .attribute name => by
      simp [Simple.components, Simple.part, parts_cons, Part.ofComponent?]
  | .pseudoClass name => parts_colon name.pseudo_token rest
  | .pseudoElement name => by
      simp [Simple.components, Simple.part, parts_colons]
  | .function kind argument => by
      have inside := argument.parts_components []
      rw [List.append_nil, parts_nil, List.append_nil] at inside
      have isPart := kind.pseudo_block argument.components
      rw [inside] at isPart
      refine (parts_colon isPart rest).trans ?_
      cases kind <;> rfl

theorem Simples.parts_components (rest : List Component) : (simples : Simples) →
    Selector.parts (simples.components ++ rest) = simples.parts ++ Selector.parts rest
  | .nil => rfl
  | .cons first later => by
      rw [Simples.components, Simples.parts, List.append_assoc, first.parts_components,
        later.parts_components, List.cons_append]

theorem Compound.parts_components (rest : List Component) : (compound : Compound) →
    Selector.parts (compound.components ++ rest) = compound.parts ++ Selector.parts rest
  | .headed head later => by
      rw [Compound.components, Compound.parts, List.cons_append, head.parts_components,
        later.parts_components, List.cons_append]
  | .bare first later => by
      rw [Compound.components, Compound.parts, List.append_assoc, first.parts_components,
        later.parts_components, List.cons_append]

theorem Complex.parts_components (rest : List Component) : (selector : Complex) →
    Selector.parts (selector.components ++ rest) = selector.parts ++ Selector.parts rest
  | .last compound => compound.parts_components rest
  | .combined compound combinator later => by
      rw [Complex.components, Complex.parts, List.append_assoc, List.append_assoc,
        compound.parts_components, combinator.parts_components, later.parts_components,
        List.append_assoc, List.append_assoc]

theorem Selectors.parts_components (rest : List Component) : (selectors : Selectors) →
    Selector.parts (selectors.components ++ rest) = selectors.parts ++ Selector.parts rest
  | .last member => member.parts_components rest
  | .listed member later => by
      have separated (after : List Component) :
          Selector.parts (.token .comma :: .token .blank :: after) =
            .comma :: .boundary :: Selector.parts after := by
        simp [parts_cons, Part.ofComponent?]
      rw [Selectors.components, Selectors.parts, List.append_assoc, List.cons_append,
        List.cons_append, member.parts_components, separated, later.parts_components,
        List.append_assoc]
      rfl

end

/-! ## Parts of a compound -/

theorem Simple.inCompound_part (simple : Simple) : InCompound simple.part := by
  cases simple with
  | pseudoClass name =>
      rw [part]
      split <;> exact ⟨Part.noConfusion, Part.noConfusion⟩
  | function kind argument =>
      cases kind <;> exact ⟨Part.noConfusion, Part.noConfusion⟩
  | _ => exact ⟨Part.noConfusion, Part.noConfusion⟩

theorem Head.inCompound_part (head : Head) : InCompound head.part := by
  cases head <;> exact ⟨Part.noConfusion, Part.noConfusion⟩

end Grammar

end Stylebook.Selector
