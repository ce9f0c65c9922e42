import Mathlib.Data.Nat.Basic
import Mathlib.Data.Prod.Lex
import Mathlib.Order.MinMax
import Mathlib.Order.WellFounded

/-! # Searching for a threshold

A threshold is known between two bounds, of which either may be missing. A probe
at or below the threshold is a new lower bound, and one above it is a new upper
bound. Probes that fall strictly between the known bounds settle every search.
-/

namespace CityPods.Foundation

structure Bounds where
  lower : Option Nat := none
  upper : Option Nat := none
deriving DecidableEq

namespace Bounds

def Around (threshold : Nat) (bounds : Bounds) : Prop :=
  (∀ lower ∈ bounds.lower, lower ≤ threshold) ∧ ∀ upper ∈ bounds.upper, threshold < upper

def Splits (probe : Nat) (bounds : Bounds) : Prop :=
  (∀ lower ∈ bounds.lower, lower < probe) ∧ ∀ upper ∈ bounds.upper, probe < upper

def learn (threshold probe : Nat) (bounds : Bounds) : Bounds :=
  if probe ≤ threshold then { bounds with lower := some probe }
  else { bounds with upper := some probe }

theorem around_none (threshold : Nat) : Around threshold {} := by
  constructor <;> rintro _ ⟨⟩

variable {threshold : Nat} {bounds : Bounds}

theorem Around.learn (around : bounds.Around threshold)
    (probe : Nat) : (bounds.learn threshold probe).Around threshold := by
  unfold Bounds.learn
  split
  next reached =>
    refine ⟨fun lower known => ?_, around.2⟩
    cases known
    exact reached
  next refused =>
    refine ⟨around.1, fun upper known => ?_⟩
    cases known
    exact Nat.lt_of_not_le refused

/-- How many bounds are missing, and how far the others are from the threshold. -/
def unknown (threshold : Nat) (bounds : Bounds) : Nat ×ₗ Nat :=
  toLex ((if bounds.lower = none then 1 else 0) + (if bounds.upper = none then 1 else 0),
    (threshold - bounds.lower.getD threshold) + (bounds.upper.getD threshold - threshold))

theorem learn_unknown {probe : Nat} (around : bounds.Around threshold)
    (splits : bounds.Splits probe) :
    (bounds.learn threshold probe).unknown threshold < bounds.unknown threshold := by
  obtain ⟨lower, upper⟩ := bounds
  unfold Bounds.learn
  by_cases reached : probe ≤ threshold
  · rw [if_pos reached]
    cases lower with
    | none =>
        apply Prod.Lex.left
        simp
    | some lower =>
        have above : lower < probe := splits.1 lower rfl
        apply Prod.Lex.right
        simp only [Option.getD_some]
        omega
  · rw [if_neg reached]
    cases upper with
    | none =>
        apply Prod.Lex.left
        simp
    | some upper =>
        have below : probe < upper := splits.2 upper rfl
        apply Prod.Lex.right
        simp only [Option.getD_some]
        omega

/-! ## Runs of a search -/

section

variable (threshold : Nat) (probe : Bounds → Nat)

def search : Nat → Bounds → Bounds
  | 0, bounds => bounds
  | steps + 1, bounds => search steps (bounds.learn threshold (probe bounds))

theorem search_around (steps : Nat) {bounds : Bounds} (around : bounds.Around threshold) :
    (search threshold probe steps bounds).Around threshold := by
  induction steps generalizing bounds with
  | zero => exact around
  | succ steps induction => exact induction (around.learn (probe bounds))

theorem search_succ (steps : Nat) (bounds : Bounds) :
    search threshold probe (steps + 1) bounds =
      (search threshold probe steps bounds).learn threshold
        (probe (search threshold probe steps bounds)) := by
  induction steps generalizing bounds with
  | zero => rfl
  | succ steps induction => exact induction (bounds.learn threshold (probe bounds))

theorem exists_settled {settled : Bounds → Prop} {bounds : Bounds}
    (around : bounds.Around threshold)
    (splits : ∀ steps, (∀ earlier ≤ steps, ¬ settled (search threshold probe earlier bounds)) →
      (search threshold probe steps bounds).Splits (probe (search threshold probe steps bounds))) :
    ∃ steps, settled (search threshold probe steps bounds) ∧
      ∀ earlier < steps, ¬ settled (search threshold probe earlier bounds) := by
  have wellFounded : WellFounded fun first second : Bounds =>
      first.unknown threshold < second.unknown threshold :=
    InvImage.wf _ wellFounded_lt
  induction bounds using wellFounded.induction with
  | h bounds induction =>
    by_cases done : settled bounds
    · exact ⟨0, done, fun earlier impossible => absurd impossible (Nat.not_lt_zero _)⟩
    · have first : bounds.Splits (probe bounds) := splits 0 fun earlier within => by
        cases Nat.le_zero.mp within
        exact done
      obtain ⟨steps, reached, before⟩ := induction (bounds.learn threshold (probe bounds))
        (learn_unknown around first) (around.learn (probe bounds))
        (fun steps open_ => splits (steps + 1) fun earlier within => by
          cases earlier with
          | zero => exact done
          | succ earlier => exact open_ earlier (Nat.le_of_succ_le_succ within))
      refine ⟨steps + 1, reached, fun earlier within => ?_⟩
      cases earlier with
      | zero => exact done
      | succ earlier => exact before earlier (Nat.lt_of_succ_lt_succ within)

end

end Bounds

end CityPods.Foundation

/-! ## The earliest time at which limits hold

A limit is a predicate on times. A time is the first one for a limit when the limit
holds from then on and at no earlier time of a grid.
-/

namespace CityPods.Foundation.Earliest

variable {τ : Type*} [LinearOrder τ] {grid : τ → Prop}

/-- From `start` on, `first` is when `holds` begins for good, and no time of the grid
before it will do. -/
structure First (grid holds : τ → Prop) (start first : τ) : Prop where
  le : start ≤ first
  sound : ∀ time, first ≤ time → holds time
  least : ∀ time, grid time → start ≤ time → time < first → ¬ holds time

variable {holds : τ → Prop} {start : τ}

theorem First.unlimited (always : ∀ time, start ≤ time → holds time) :
    First grid holds start start where
  le := le_refl start
  sound := always
  least := fun _ _ late early => absurd early (not_lt.mpr late)

theorem First.threshold {opening : τ} (opens : ∀ time, start ≤ time → opening ≤ time → holds time)
    (shut : ∀ time, grid time → start ≤ time → time < opening → ¬ holds time) :
    First grid holds start (max start opening) where
  le := le_max_left _ _
  sound := fun time late => opens time ((le_max_left _ _).trans late) ((le_max_right _ _).trans late)
  least := fun time whole late early =>
    shut time whole late ((lt_max_iff.mp early).resolve_left (not_lt.mpr late))

variable {others : τ → Prop}

/-- One limit after another: the second is met from where the first one is. -/
theorem First.and {middle last : τ}
    (first : First grid holds start middle) (second : First grid others middle last) :
    First grid (fun time => holds time ∧ others time) start last where
  le := first.le.trans second.le
  sound := fun time late => ⟨first.sound time (second.le.trans late), second.sound time late⟩
  least := fun time whole late early both => by
    rcases lt_or_ge time middle with before | after
    · exact first.least time whole late before both.1
    · exact second.least time whole after early both.2

theorem First.congr {first : τ} (limit : First grid holds start first)
    (same : ∀ time, start ≤ time → (holds time ↔ others time)) : First grid others start first where
  le := limit.le
  sound := fun time late => (same time (limit.le.trans late)).mp (limit.sound time late)
  least := fun time whole late early held =>
    limit.least time whole late early ((same time late).mpr held)

end CityPods.Foundation.Earliest
