import Mathlib.Data.List.Nodup
import Mathlib.Data.List.ReduceOption
import Mathlib.Logic.Function.Basic

/-! # Settling records

A sweep visits items, each of which names a record. An active record is reported,
and settled where the sweep decides so; what it becomes is active no more. Sweeps
that visit the same active records agree, whatever their order and whatever else
they visit.
-/

namespace CityPods.Foundation.Settling

structure Rules (ι κ ν ο : Type) where
  key : ι → κ
  active : ν → Bool
  settle : ι → ν → Option ν
  outcome : ι → ν → ο
  settled : ∀ item value after, settle item value = some after → active after = false

namespace Rules

section

variable {ι κ ν ο : Type} (rules : Rules ι κ ν ο) (state : κ → Option ν) (item : ι)

def activeAt : Option ν := (state (rules.key item)).filter rules.active

def report : Option ο := (rules.activeAt state item).map (rules.outcome item)

/-- The same sweep with nothing settled. -/
def dry : Rules ι κ ν ο :=
  { rules with
    settle := fun _ _ => none
    settled := by
      rintro _ _ _ ⟨⟩ }

end

section

variable {ι κ ν ο : Type} [DecidableEq κ] (rules : Rules ι κ ν ο)

def visit (state : κ → Option ν) (item : ι) : κ → Option ν :=
  match (rules.activeAt state item).bind (rules.settle item) with
  | some after => Function.update state (rules.key item) (some after)
  | none => state

def after (state : κ → Option ν) (items : List ι) : κ → Option ν := items.foldl rules.visit state

def reports : (κ → Option ν) → List ι → List (Option ο)
  | _, [] => []
  | state, item :: rest => rules.report state item :: reports (rules.visit state item) rest

end

section

variable {ι κ ν ο : Type} (rules : Rules ι κ ν ο) (state : κ → Option ν)

/-- An active record is visited once. -/
def Apart (items : List ι) : Prop :=
  items.Pairwise fun first second =>
    rules.key first = rules.key second → rules.activeAt state first = none

end

section

variable {ι κ ν ο : Type} {rules : Rules ι κ ν ο} {state other : κ → Option ν} {item : ι}

theorem activeAt_congr (same : state (rules.key item) = other (rules.key item)) :
    rules.activeAt state item = rules.activeAt other item := by
  rw [activeAt, activeAt, same]

theorem report_congr (same : state (rules.key item) = other (rules.key item)) :
    rules.report state item = rules.report other item := by
  rw [report, report, activeAt_congr same]

theorem inactive_of_none (found : rules.activeAt state item = none) (value : ν)
    (stored : state (rules.key item) = some value) : rules.active value = false := by
  rw [activeAt, stored] at found
  simpa using found

theorem Apart.congr {items : List ι}
    (sameItems : ∀ item ∈ items, state (rules.key item) = other (rules.key item))
    (apart : rules.Apart state items) : rules.Apart other items :=
  List.Pairwise.imp_of_mem (fun first _ inactive same => by
    rw [← activeAt_congr (sameItems _ first)]
    exact inactive same) apart

theorem Apart.nodup {items : List ι} (apart : rules.Apart state items) :
    (items.filter fun item => (rules.activeAt state item).isSome).Nodup := by
  refine List.Pairwise.imp_of_mem ?_ (apart.filter _)
  rintro first _ member _ inactive rfl
  have active := (List.mem_filter.mp member).2
  rw [inactive rfl] at active
  cases active

@[simp] theorem dry_activeAt : rules.dry.activeAt state item = rules.activeAt state item := rfl

@[simp] theorem dry_report : rules.dry.report state item = rules.report state item := rfl

end

section

variable {ι κ ν ο : Type} [DecidableEq κ] {rules : Rules ι κ ν ο} {state other : κ → Option ν}
  {item : ι} {items more : List ι} {key : κ}

@[simp] theorem after_nil : rules.after state [] = state := rfl

@[simp] theorem after_cons :
    rules.after state (item :: items) = rules.after (rules.visit state item) items := rfl

theorem after_append :
    rules.after state (items ++ more) = rules.after (rules.after state items) more :=
  List.foldl_append

theorem reports_append : rules.reports state (items ++ more) =
    rules.reports state items ++ rules.reports (rules.after state items) more := by
  induction items generalizing state with
  | nil => rfl
  | cons item rest induction =>
      rw [List.cons_append, reports, reports, induction, List.cons_append, after_cons]

theorem visit_of_inactive (inactive : rules.activeAt state item = none) :
    rules.visit state item = state := by
  rw [visit, inactive, Option.bind_none]

theorem visit_other (different : rules.key item ≠ key) : rules.visit state item key = state key := by
  unfold visit
  cases (rules.activeAt state item).bind (rules.settle item) with
  | none => rfl
  | some after => exact Function.update_of_ne (Ne.symm different) _ _

theorem visit_eq_of_apart {next : ι}
    (apart : rules.key item = rules.key next → rules.activeAt state item = none) :
    rules.visit state item (rules.key next) = state (rules.key next) := by
  by_cases same : rules.key item = rules.key next
  · rw [visit_of_inactive (apart same)]
  · exact visit_other same

theorem visit_congr (sameItem : state (rules.key item) = other (rules.key item))
    (same : state key = other key) : rules.visit state item key = rules.visit other item key := by
  unfold visit
  rw [activeAt_congr sameItem]
  cases (rules.activeAt other item).bind (rules.settle item) with
  | none => exact same
  | some after => simp only [Function.update_apply, same]

/-- A sweep looks at no records but those that its items name. -/
theorem after_congr (sameItems : ∀ item ∈ items, state (rules.key item) = other (rules.key item))
    (same : state key = other key) : rules.after state items key = rules.after other items key := by
  induction items generalizing state other with
  | nil => exact same
  | cons item rest induction =>
      have here := sameItems item List.mem_cons_self
      exact induction (fun next member =>
        visit_congr here (sameItems next (List.mem_cons_of_mem _ member))) (visit_congr here same)

theorem reports_congr
    (sameItems : ∀ item ∈ items, state (rules.key item) = other (rules.key item)) :
    rules.reports state items = rules.reports other items := by
  induction items generalizing state other with
  | nil => rfl
  | cons item rest induction =>
      have here := sameItems item List.mem_cons_self
      rw [reports, reports, report_congr here, induction fun next member =>
        visit_congr here (sameItems next (List.mem_cons_of_mem _ member))]

/-- A record that no item names is as it was. -/
theorem after_other (foreign : ∀ item ∈ items, rules.key item ≠ key) :
    rules.after state items key = state key := by
  induction items generalizing state with
  | nil => rfl
  | cons item rest induction =>
      rw [after_cons, induction fun next member => foreign next (List.mem_cons_of_mem _ member)]
      exact visit_other (foreign item List.mem_cons_self)

/-! ### What is visited apart is judged by what was there -/

theorem Apart.visit (apart : rules.Apart state (item :: items)) :
    rules.Apart (rules.visit state item) items := by
  obtain ⟨first, rest⟩ := List.pairwise_cons.mp apart
  refine rest.imp_of_mem fun left _ inactive same => ?_
  rw [activeAt_congr (visit_eq_of_apart (first _ left))]
  exact inactive same

theorem Apart.after (apart : rules.Apart state (items ++ more)) :
    rules.Apart (rules.after state items) more := by
  induction items generalizing state with
  | nil => exact apart
  | cons item rest induction => exact induction apart.visit

theorem report_after (apart : rules.Apart state (items ++ more)) (member : item ∈ more) :
    rules.report (rules.after state items) item = rules.report state item := by
  induction items generalizing state with
  | nil => rfl
  | cons first rest induction =>
      rw [after_cons, induction apart.visit]
      exact report_congr (visit_eq_of_apart
        ((List.pairwise_cons.mp apart).1 item (List.mem_append_right _ member)))

theorem reports_eq (apart : rules.Apart state items) :
    rules.reports state items = items.map (rules.report state) := by
  induction items generalizing state with
  | nil => rfl
  | cons item rest induction =>
      rw [reports, induction apart.visit, List.map_cons]
      refine congrArg _ (List.map_congr_left fun next member => ?_)
      exact report_congr (visit_eq_of_apart ((List.pairwise_cons.mp apart).1 next member))

theorem after_of_inactive (inactive : ∀ value, state key = some value → rules.active value = false) :
    rules.after state items key = state key := by
  induction items generalizing state with
  | nil => rfl
  | cons item rest induction =>
      have same : rules.visit state item key = state key := by
        by_cases here : rules.key item = key
        · have none_ : rules.activeAt state item = none := by
            rw [activeAt, here]
            cases stored : state key with
            | none => rfl
            | some value => rw [Option.filter_some, inactive value stored, if_neg Bool.false_ne_true]
          rw [visit_of_inactive none_]
        · exact visit_other here
      rw [after_cons, induction, same]
      intro value stored
      rw [same] at stored
      exact inactive value stored

/-- What becomes of an active record that is visited. -/
theorem after_of_mem (apart : rules.Apart state items) (member : item ∈ items) {value : ν}
    (active : rules.activeAt state item = some value) :
    rules.after state items (rules.key item) = some ((rules.settle item value).getD value) := by
  induction items generalizing state with
  | nil => cases member
  | cons first rest induction =>
      rw [after_cons]
      obtain ⟨early, _⟩ := List.pairwise_cons.mp apart
      rcases List.mem_cons.mp member with rfl | later
      · obtain ⟨stored, test⟩ := Option.filter_eq_some_iff.mp active
        have foreign : ∀ next ∈ rest, rules.key next ≠ rules.key item := by
          intro next inside same
          have inactive := early next inside same.symm
          rw [active] at inactive
          cases inactive
        rw [after_other foreign, visit, active, Option.bind_some]
        cases rules.settle item value with
        | none => exact stored
        | some after => exact Function.update_self _ _ _
      · refine induction apart.visit later ?_
        rw [activeAt_congr (visit_eq_of_apart (early item later))]
        exact active

theorem activeAt_after (apart : rules.Apart state items) (member : item ∈ items) :
    rules.activeAt (rules.after state items) item =
      (rules.activeAt state item).filter fun value => (rules.settle item value).isNone := by
  cases found : rules.activeAt state item with
  | none =>
      rw [activeAt_congr (after_of_inactive (inactive_of_none found)), found]
      rfl
  | some value =>
      have active := (Option.filter_eq_some_iff.mp found).2
      rw [activeAt, after_of_mem apart member found, Option.filter_some, Option.filter_some]
      cases settled : rules.settle item value with
      | none =>
          rw [Option.getD_none, if_pos active]
          rfl
      | some after =>
          have inactive : ¬ rules.active after = true := by
            rw [rules.settled item value after settled]
            exact Bool.false_ne_true
          rw [Option.getD_some, if_neg inactive, if_neg (by simp)]

/-- Two sweeps with the same active items settle every record alike. -/
theorem after_eq (first : rules.Apart state items) (second : rules.Apart state more)
    (same : ∀ item, (rules.activeAt state item).isSome = true → (item ∈ items ↔ item ∈ more)) :
    rules.after state items = rules.after state more := by
  funext key
  by_cases visited : ∃ item ∈ items ++ more, rules.key item = key
  · obtain ⟨item, member, rfl⟩ := visited
    cases found : rules.activeAt state item with
    | none =>
        have inactive := inactive_of_none found
        rw [after_of_inactive inactive, after_of_inactive inactive]
    | some value =>
        have listed := same item (by rw [found]; rfl)
        have both : item ∈ items ∧ item ∈ more := by
          rcases List.mem_append.mp member with left | right
          · exact ⟨left, listed.mp left⟩
          · exact ⟨listed.mpr right, right⟩
        rw [after_of_mem first both.1 found, after_of_mem second both.2 found]
  · have foreign : ∀ item ∈ items ++ more, rules.key item ≠ key :=
      fun item member here => visited ⟨item, member, here⟩
    rw [after_other fun item member => foreign item (List.mem_append_left _ member),
      after_other fun item member => foreign item (List.mem_append_right _ member)]

theorem reports_perm (first : rules.Apart state items) (second : rules.Apart state more)
    (same : ∀ item, (rules.activeAt state item).isSome = true → (item ∈ items ↔ item ∈ more)) :
    (rules.reports state items).reduceOption.Perm (rules.reports state more).reduceOption := by
  have ofActive (items : List ι) (apart : rules.Apart state items) :
      (rules.reports state items).reduceOption =
        (items.filter fun item => (rules.activeAt state item).isSome).filterMap
          (rules.report state) := by
    rw [reports_eq apart, List.reduceOption, List.filterMap_map, List.filterMap_filter]
    refine List.filterMap_congr fun item _ => ?_
    rw [Function.id_comp, report]
    cases rules.activeAt state item <;> rfl
  rw [ofActive items first, ofActive more second]
  refine List.Perm.filterMap _ ((List.perm_ext_iff_of_nodup first.nodup second.nodup).mpr ?_)
  intro item
  rw [List.mem_filter, List.mem_filter]
  constructor
  · rintro ⟨listed, active⟩
    exact ⟨(same item active).mp listed, active⟩
  · rintro ⟨listed, active⟩
    exact ⟨(same item active).mpr listed, active⟩

/-! ### Sweeps that settle nothing -/

@[simp] theorem dry_visit : rules.dry.visit state item = state := by
  unfold visit
  cases rules.dry.activeAt state item <;> rfl

theorem dry_after : rules.dry.after state items = state := by
  induction items with
  | nil => rfl
  | cons item rest induction => rw [after_cons, dry_visit, induction]

theorem dry_reports (apart : rules.Apart state items) :
    rules.dry.reports state items = rules.reports state items :=
  (@reports_eq _ _ _ _ _ rules.dry _ _ apart).trans (reports_eq apart).symm

end

end Rules

end CityPods.Foundation.Settling
