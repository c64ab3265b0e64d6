import Stylebook.Analysis.Cluster
import Stylebook.Selector.Profile
import Stylebook.Sheet.Basic

/-!
Measures of a style sheet: its size, how much of it is repeated, and what its selectors
cost.
-/

namespace Stylebook

/-! ## Size and repetition -/

/-- `coveredDeclarations` counts those of rules that belong to a cluster, and
`estimatedSelectorCount` the rules that would be left if each cluster were one rule. -/
structure Metrics where
  totalDeclarations : Nat := 0
  coveredDeclarations : Nat := 0
  duplicationRatio : Float := 0.0
  selectorCount : Nat := 0
  estimatedSelectorCount : Nat := 0
  averageSpecificity : Float := 0.0
  maximumSpecificity : Nat := 0
  deriving Repr, Inhabited

def ratio (part whole : Nat) : Float :=
  if whole = 0 then 0.0 else part.toFloat / whole.toFloat

def Rule.weight (rule : Rule) : Nat :=
  (Selector.Profile.ofSelector rule.selector).specificity.weight.toNat

def weightSum (weights : List Nat) : Float :=
  weights.foldl (fun sum weight => sum + weight.toFloat) 0.0

def savedRules (sources : List NodePath) (cluster : Cluster) : Nat :=
  (cluster.occurrences.filter fun occurrence => sources.contains occurrence.path).length - 1

def Metrics.ofSheet (sheet : Sheet) (clusters : List Cluster) : Metrics :=
  if sheet.isEmpty then {}
  else
    let clustered := (clusters.flatMap Cluster.occurrences).map Occurrence.path
    let covered := Sheet.mk (sheet.rules.filter fun rule => clustered.contains rule.source)
    let sources := sheet.rules.map Rule.source
    let saved := clusters.foldr (fun cluster count => savedRules sources cluster + count) 0
    let weights := sheet.rules.map Rule.weight
    { totalDeclarations := sheet.declarationCount
      coveredDeclarations := covered.declarationCount
      duplicationRatio := ratio covered.declarationCount sheet.declarationCount
      selectorCount := sheet.size
      estimatedSelectorCount := sheet.size - saved
      averageSpecificity := weightSum weights / weights.length.toFloat
      maximumSpecificity := weights.foldl Nat.max 0 }

/-! ## Cost -/

structure Performance where
  estimatedRenderCost : Nat := 0
  longestSelectorChain : Nat := 0
  universalSelectors : Nat := 0
  deriving DecidableEq, Repr, Inhabited

def Performance.ofSheet (sheet : Sheet) : Performance :=
  sheet.rules.foldl
    (fun total rule =>
      let profile := Selector.Profile.ofSelector rule.selector
      { estimatedRenderCost :=
          total.estimatedRenderCost + profile.compounds * max rule.declarations.length 1
        longestSelectorChain := max total.longestSelectorChain profile.compounds
        universalSelectors := total.universalSelectors + profile.universal })
    {}

end Stylebook
