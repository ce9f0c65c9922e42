import CityPods.Foundation.RelyGuarantee

/-! # Tasks that raise

Code over some interface that returns a value or raises an error, and the rules
by which it is followed beside other calls.
-/

namespace CityPods.Foundation

abbrev Raising (I : Interface) (ε α : Type) : Type := ExceptT ε (Task I) α

namespace Raising

variable {I : Interface} {ε α β : Type}

/-- One operation, whose reply is a value or an error. -/
def perform (op : I.Op) (outcome : I.Reply op → Except ε α) : Raising I ε α :=
  ExceptT.mk (.perform op fun reply => .done (outcome reply))

/-- The outcome of the session as a value: the `try` of its caller. -/
def attempt (session : Raising I ε α) : Raising I ε (Except ε α) :=
  ExceptT.mk (session.run.bind fun outcome => .done (.ok outcome))

theorem attempt_bind (session : Raising I ε α) (rest : Except ε α → Raising I ε β) :
    (session.attempt >>= rest).run = session.run.bind fun outcome => (rest outcome).run :=
  Task.bind_assoc ..

variable {W : World I} {bargain : Bargain W}

/-- Whatever the others do, the session keeps its guarantee, and its outcome
keeps the promise. -/
def Safe (W : World I) (bargain : Bargain W) (promise : Except ε α → W.State → Prop)
    (session : Raising I ε α) (state : W.State) : Prop :=
  session.run.Safe W bargain promise state

variable {promise : Except ε α → W.State → Prop} {promised : Except ε β → W.State → Prop}
  {state : W.State}

theorem safe_pure {result : α} (kept : ∀ later, bargain.rely none state later →
    promise (.ok result) later) :
    (pure result : Raising I ε α).Safe W bargain promise state :=
  kept

theorem safe_throw {error : ε} (kept : ∀ later, bargain.rely none state later →
    promise (.error error) later) :
    (throw error : Raising I ε α).Safe W bargain promise state :=
  kept

variable {session : Raising I ε α}

theorem Safe.weaken {weaker : Except ε α → W.State → Prop}
    (safe : session.Safe W bargain promise state)
    (implies : ∀ outcome later, promise outcome later → weaker outcome later) :
    session.Safe W bargain weaker state :=
  Task.Safe.weaken safe implies

theorem Safe.map {function : α → β}
    (safe : session.Safe W bargain (fun outcome => promised (outcome.map function)) state) :
    (function <$> session).Safe W bargain promised state := by
  have mapped : (function <$> session).run =
      session.run.bind fun outcome => .done (outcome.map function) := by
    refine congrArg session.run.bind ?_
    funext outcome
    cases outcome <;> rfl
  unfold Safe
  rw [mapped]
  exact Task.Safe.map safe

variable {rest : α → Raising I ε β}

theorem Safe.bind (safe : session.Safe W bargain promise state)
    (continued : ∀ result later, promise (.ok result) later →
      (rest result).Safe W bargain promised later)
    (raised : ∀ error later, promise (.error error) later →
      ∀ last, bargain.rely none later last → promised (.error error) last) :
    (session >>= rest).Safe W bargain promised state := by
  refine Task.Safe.bind safe ?_
  intro outcome later kept
  cases outcome with
  | ok result => exact continued result later kept
  | error error => exact raised error later kept

theorem Safe.attempt {rest : Except ε α → Raising I ε β}
    (safe : session.Safe W bargain promise state)
    (continued : ∀ outcome later, promise outcome later →
      (rest outcome).Safe W bargain promised later) :
    (session.attempt >>= rest).Safe W bargain promised state := by
  unfold Safe
  rw [attempt_bind]
  exact Task.Safe.bind safe continued

variable {op : I.Op} {outcome : I.Reply op → Except ε α}

/-- An operation whose reply is examined by its caller. -/
theorem safe_tried {rest : Except ε α → Raising I ε β}
    (answered : ∀ later, bargain.rely (some op) state later → ∀ choice reply after,
      bargain.assumes op later choice → W.answer later op choice = some (reply, after) →
        bargain.guarantee later after ∧ (rest (outcome reply)).Safe W bargain promised after) :
    ((perform op outcome).attempt >>= rest).Safe W bargain promised state :=
  answered

theorem safe_perform (answered : ∀ later, bargain.rely (some op) state later → ∀ choice reply after,
      bargain.assumes op later choice → W.answer later op choice = some (reply, after) →
        bargain.guarantee later after ∧
          (∀ result, outcome reply = .ok result → (rest result).Safe W bargain promised after) ∧
          ∀ error, outcome reply = .error error →
            ∀ last, bargain.rely none after last → promised (.error error) last) :
    (perform op outcome >>= rest).Safe W bargain promised state := by
  intro later passed choice reply after assumed replied
  obtain ⟨guaranteed, continued, raised⟩ := answered later passed choice reply after assumed replied
  refine ⟨guaranteed, ?_⟩
  cases settled : outcome reply with
  | ok result =>
      have next := continued result settled
      show Task.Safe W bargain promised ((Task.done (outcome reply)).bind _) after
      rw [settled]
      exact next
  | error error =>
      show Task.Safe W bargain promised ((Task.done (outcome reply)).bind _) after
      rw [settled]
      exact raised error settled

end Raising

end CityPods.Foundation
