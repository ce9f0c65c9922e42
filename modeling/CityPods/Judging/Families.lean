import CityPods.Judging.Ledger
import Mathlib.Data.String.Basic

/-! # Families of models

A judge never shares a family with what it judges.
-/

namespace CityPods.Judging

open Foundation

/-- A lane, with the models in it and the named slots that they stand in. -/
structure LaneConfig where
  models : List String
  nonempty : models ≠ []
  slots : Dict String (List String) := []

/-- The route that the recipes are built from. -/
def LaneConfig.primaryModel (lane : LaneConfig) : String := lane.models.head lane.nonempty

def ruleFamily : String := "rule"

def unknownFamily : String := "unknown"

/-- The configured families, and the aliases of the model names. -/
structure Families where
  families : Dict String String
  aliases : Dict String String := []

/-- Follow the aliases until a name that has none, or that was seen. As many steps as there
are aliases suffice. -/
def canonicalFrom (aliases : Dict String String) : (steps : Nat) → List String → String → String
  | 0, _, current => current
  | steps + 1, seen, current =>
      if current ∈ seen then current
      else
        match aliases.get? current with
        | none => current
        | some next => canonicalFrom aliases steps (current :: seen) next

def canonicalModel (aliases : Dict String String) (model : String) : String :=
  canonicalFrom aliases aliases.length [] model

/-- Without the name of the backend before the first colon. -/
def normalizeModel (aliases : Dict String String) (model : String) : String :=
  let head := model.toList.takeWhile fun char => char ≠ ':'
  let rest := model.toList.drop (head.length + 1)
  canonicalModel aliases (if '/' ∉ head ∧ rest ≠ [] then String.ofList rest else model)

def familyOf (families : Families) : Option String → String
  | none => ruleFamily
  | some model =>
      if model = "" ∨ "rule:".toList.isPrefixOf model.toList then ruleFamily
      else
        match families.families.get? model with
        | some family => family
        | none =>
            (families.families.get? (normalizeModel families.aliases model)).getD unknownFamily

/-- The lane's model is in one of the families. -/
def memberOf (families : Families) (excluded : List String) (model : String) : Bool :=
  excluded.any fun family => families.families.get? model = some family

/-- The slots in the order of their names; a lane without slots is one. -/
def siblingSlots (sibling : LaneConfig) : List (List String) :=
  if sibling.slots = [] then [sibling.models] else Dict.values (Dict.sortKeys sibling.slots)

/-- Every active sibling of the first slot that has one independent of the producer, or of
all the slots. -/
def siblingCandidates (families : Families) (producerModel : Option String) (sibling : LaneConfig)
    (allowAllSlots : Bool) : List String :=
  let producer := familyOf families producerModel
  if producer = unknownFamily then []
  else if allowAllSlots then sibling.models.filter fun model => !memberOf families [producer] model
  else
    (((siblingSlots sibling).map fun models => models.filter fun model =>
      decide (model ∈ sibling.models) && !memberOf families [producer] model).find?
        fun found => found ≠ []).getD []

/-- The name of the first slot that the model stands in. -/
def slotOf (sibling : LaneConfig) (model : String) : String :=
  (((Dict.sortKeys sibling.slots).find? fun slot => decide (model ∈ slot.2)).map Prod.fst).getD ""

def chooseSiblingCandidates (families : Families) (producerModels : List (Option String))
    (sibling : LaneConfig) (allowAllSlots : Bool) : List String :=
  let producers := producerModels.map (familyOf families)
  if unknownFamily ∈ producers then []
  else
    match sibling.models.filter fun model => !memberOf families producers model with
    | [] => []
    | first :: rest =>
        if allowAllSlots then first :: rest
        else (first :: rest).filter fun model => slotOf sibling model = slotOf sibling first

variable {families : Families} {sibling : LaneConfig} {allowAllSlots : Bool} {model : String}

theorem siblingCandidates_active {producerModel : Option String}
    (candidate : model ∈ siblingCandidates families producerModel sibling allowAllSlots) :
    model ∈ sibling.models := by
  simp only [siblingCandidates] at candidate
  split at candidate
  · cases candidate
  split at candidate
  · exact (List.mem_filter.mp candidate).1
  cases search : List.find? (fun found => decide (found ≠ [])) _ with
  | none =>
      rw [search] at candidate
      cases candidate
  | some found =>
      rw [search] at candidate
      obtain ⟨models, _, same⟩ := List.mem_map.mp (List.mem_of_find?_eq_some search)
      have active := (List.mem_filter.mp (same.symm ▸ candidate : model ∈ List.filter _ models)).2
      exact of_decide_eq_true ((Bool.and_eq_true _ _).mp active).1

theorem chooseSiblingCandidates_active {producerModels : List (Option String)}
    (candidate : model ∈ chooseSiblingCandidates families producerModels sibling allowAllSlots) :
    model ∈ sibling.models := by
  simp only [chooseSiblingCandidates] at candidate
  split at candidate
  · cases candidate
  split at candidate
  · cases candidate
  · next first rest independent =>
    have active : ∀ other ∈ first :: rest, other ∈ sibling.models := fun other member =>
      (List.mem_filter.mp (independent ▸ member)).1
    split at candidate
    · exact active model candidate
    · exact active model (List.mem_filter.mp candidate).1

/-- The first active adjudicator independent of both the producer and the sibling. -/
def adjudicatorFor (families : Families) (producerModel siblingModel : Option String)
    (adjudicator : LaneConfig) : Option String :=
  let producer := familyOf families producerModel
  if producer = unknownFamily then none
  else
    let excluded := producer :: siblingModel.toList.map fun model => familyOf families (some model)
    adjudicator.models.find? fun model => !memberOf families excluded model

end CityPods.Judging
