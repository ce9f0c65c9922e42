import Mathlib.Data.List.Induction
import Mathlib.Order.Basic

/-! # Line endings

The same lines written with one terminator or with two. A line feed that follows a
carriage return is one ending with it.
-/

namespace CityPods.Foundation.LineEndings

variable {α : Type} [DecidableEq α] (cr lf : α)

/-- The second text is the first with a carriage return written before some of its
bare line feeds. `after` says that a carriage return comes right before both. -/
inductive Widened : Bool → List α → List α → Prop
  | nil (after : Bool) : Widened after [] []
  | keep (after : Bool) (symbol : α) {narrow wide : List α} :
      Widened (decide (symbol = cr)) narrow wide → Widened after (symbol :: narrow) (symbol :: wide)
  | widen {narrow wide : List α} :
      Widened false narrow wide → Widened false (lf :: narrow) (cr :: lf :: wide)

/-- A carriage return before every bare line feed. -/
def crlf (after : Bool) : List α → List α
  | [] => []
  | symbol :: rest =>
      if symbol = lf ∧ after = false then cr :: lf :: crlf false rest
      else symbol :: crlf (decide (symbol = cr)) rest

/-- Every ending as a line feed. One that follows a carriage return of the line's own
text stays, since what is left without its carriage return would be the same ending. -/
def bare (after : Bool) : List α → List α
  | [] => []
  | symbol :: rest =>
      if symbol = cr ∧ after = false ∧ rest.head? = some lf then bare false rest
      else symbol :: bare (decide (symbol = cr)) rest

variable {cr lf}

theorem Widened.refl (after : Bool) (text : List α) : Widened cr lf after text text := by
  induction text generalizing after with
  | nil => exact .nil after
  | cons symbol rest induction => exact .keep after symbol (induction _)

variable {after : Bool} {narrow wide : List α}

theorem Widened.length_le (widened : Widened cr lf after narrow wide) :
    narrow.length ≤ wide.length := by
  induction widened with
  | nil => exact Nat.le_refl 0
  | keep after symbol _ induction => simpa using induction
  | widen _ induction =>
      simp only [List.length_cons]
      omega

theorem widened_crlf (after : Bool) (text : List α) : Widened cr lf after text (crlf cr lf after text) := by
  induction text generalizing after with
  | nil => exact .nil after
  | cons symbol rest induction =>
      rw [crlf]
      split
      next feed =>
        obtain ⟨rfl, rfl⟩ := feed
        exact .widen (induction false)
      next => exact .keep after symbol (induction _)

theorem bare_feed (differ : lf ≠ cr) (after : Bool) (rest : List α) :
    bare cr lf after (lf :: rest) = lf :: bare cr lf false rest := by
  rw [bare, if_neg fun both => differ both.1, decide_eq_false differ]

theorem bare_widened (differ : lf ≠ cr) (after : Bool) (text : List α) :
    Widened cr lf after (bare cr lf after text) text := by
  induction text using List.twoStepInduction generalizing after with
  | nil => exact .nil after
  | singleton symbol =>
      rw [bare, if_neg (by simp)]
      exact .keep after symbol (.nil _)
  | cons_cons symbol next rest twice once =>
      rw [bare]
      split
      next ending =>
        obtain ⟨rfl, rfl, head⟩ := ending
        obtain rfl := Option.some.inj head
        rw [bare_feed differ]
        exact .widen (twice false)
      next => exact .keep after symbol (once next _)

/-- Whether a carriage return comes right before what follows a text. -/
def afterText (cr : α) (after : Bool) (text : List α) : Bool :=
  (text.getLast?.map fun symbol => decide (symbol = cr)).getD after

@[simp] theorem afterText_nil (after : Bool) : afterText cr after [] = after := rfl

@[simp] theorem afterText_cons (after : Bool) (symbol : α) (text : List α) :
    afterText cr after (symbol :: text) = afterText cr (decide (symbol = cr)) text := by
  cases text with
  | nil => rfl
  | cons next rest => rw [afterText, afterText, List.getLast?_cons_cons, List.getLast?_cons]; rfl

theorem Widened.prepend (shared : List α)
    (widened : Widened cr lf (afterText cr after shared) narrow wide) :
    Widened cr lf after (shared ++ narrow) (shared ++ wide) := by
  induction shared generalizing after with
  | nil => exact widened
  | cons symbol rest induction =>
      rw [afterText_cons] at widened
      exact .keep after symbol (induction widened)

end CityPods.Foundation.LineEndings
