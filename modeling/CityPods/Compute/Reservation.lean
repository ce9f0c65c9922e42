import CityPods.Compute.Ledger
import CityPods.Foundation.History

/-! # Reservations against the shared ledger

Every reservation, settlement and release is a read-modify-write of one object
by compare-and-swap. A stored object is represented by what its readers parse it
to.
-/

namespace CityPods.Compute

open Foundation

def budgetStateKey : String := "state/compute_budget.json"

def maxAttempts : Nat := 8

inductive Stored
  | budget (budget : Budget)
  | corrupt

/-- An absent or corrupt ledger is an empty one. -/
def parse (now : DateTime) : Option Stored → Budget
  | some (.budget budget) => budget
  | _ => { month := monthKey now }

abbrev BudgetProgram := Program String Stored Empty Empty

def loadBudgetCas (now : DateTime) : BudgetProgram (Budget × Option ETag) := do
  match ← Program.getBytes budgetStateKey with
  | none => return (parse now none, none)
  | some (data, etag) => return (parse now (some data), some etag)

/-- Returns the committed budget, or `none` where the conflict is raised. -/
def mutateBudget (mutate : Budget → Budget) (now : DateTime) :
    Nat → BudgetProgram (Option Budget)
  | 0 => return none
  | attempts + 1 => do
      let (budget, etag) ← loadBudgetCas now
      let mutated := mutate (budget.rollMonth now)
      let landed ← Program.putCas budgetStateKey (.budget mutated.serialize)
        (writeCondition etag)
      if landed then return some mutated
      mutateBudget mutate now attempts

structure Reservation where
  owner : String
  backend : String
  est : ℚ
  cap : ℚ
  maxInflight : Nat
  cycle : Option String
  now : DateTime

def reserveIfAvailable (request : Reservation) : Nat → BudgetProgram Bool
  | 0 => return false
  | attempts + 1 => do
      let (loaded, etag) ← loadBudgetCas request.now
      let budget := loaded.rollMonth request.now
      if !budget.available request.backend request.cap request.maxInflight request.est
          request.cycle then
        return false
      let reserved := budget.reserve request.owner request.backend request.est request.cycle
      let landed ← Program.putCas budgetStateKey (.budget reserved.serialize)
        (writeCondition etag)
      if landed then return true
      reserveIfAvailable request attempts

inductive Call
  | reserveIfAvailable (request : Reservation)
  | releaseReservation (owner backend : String) (cycle : Option String) (now : DateTime)
  | settleReservation (owner backend : String) (actual : Option ℚ) (cycle : Option String)
      (report : RuntimeReport) (now : DateTime)
  | observeRuntimeEstimate (key : String) (audioSeconds actualRuntimeSeconds : ℚ)
      (estimatedRuntimeSeconds defaultSecondsPerAudioSecond : Option ℚ) (now : DateTime)

namespace Call

def now : Call → DateTime
  | .reserveIfAvailable request => request.now
  | .releaseReservation _ _ _ now => now
  | .settleReservation _ _ _ _ _ now => now
  | .observeRuntimeEstimate _ _ _ _ _ now => now

/-- What the call makes of a loaded ledger when it commits. -/
def mutate : Call → Budget → Budget
  | .reserveIfAvailable request, budget =>
      budget.reserve request.owner request.backend request.est request.cycle
  | .releaseReservation owner backend cycle _, budget => budget.release owner backend cycle
  | .settleReservation owner backend actual cycle report now, budget =>
      budget.settle owner backend actual cycle report now
  | .observeRuntimeEstimate key audioSeconds actualRuntimeSeconds estimatedRuntimeSeconds
      defaultSecondsPerAudioSecond now, budget =>
      budget.observeRuntime key audioSeconds actualRuntimeSeconds estimatedRuntimeSeconds
        defaultSecondsPerAudioSecond now

/-- The check a call makes on the ledger it is about to replace. -/
def admits : Call → Budget → Bool
  | .reserveIfAvailable request, budget =>
      budget.available request.backend request.cap request.maxInflight request.est request.cycle
  | _, _ => true

end Call

inductive Reply
  | reserved (success : Bool)
  | mutated (budget : Option Budget)

def programOf : Call → BudgetProgram Reply
  | .reserveIfAvailable request => do
      return .reserved (← reserveIfAvailable request maxAttempts)
  | call => do return .mutated (← mutateBudget call.mutate call.now maxAttempts)

@[reducible] def service : Service String Stored Empty Empty DateTime where
  Call := Call
  Result := Reply
  program := programOf
  mayStart now call := decide (call.now = now)

/-- The ledger a call works on, given the stored object it read. -/
def loaded (call : Call) (before : Option Stored) : Budget :=
  (parse call.now before).rollMonth call.now

/-- A call writes the ledger at most once, over one that passes its check. -/
def budgetContract (call : Call) : Contract String Stored Empty Empty α where
  writes own key before after _ :=
    own = [] ∧ key = budgetStateKey ∧ call.admits (loaded call before) = true ∧
      after = some (.budget (call.mutate (loaded call before)).serialize)

section

variable {call : Call} {known : Knowledge String Stored}

theorem meets_loadBudgetCas_bind {own : Writes String Stored}
    {contract : Contract String Stored Empty Empty α} {now : DateTime}
    {rest : Budget × Option ETag → BudgetProgram α} :
    ((loadBudgetCas now).bind rest).Meets contract known own ↔
      (rest (parse now none, none)).Meets contract known own ∧
        ∀ data etag, (rest (parse now (some data), some etag)).Meets contract
          (known.learn budgetStateKey data etag) own := Iff.rfl

/-- The conditional write that ends each attempt, over what was just read. -/
theorem meets_commit (stored : Option (Stored × ETag)) {value : Stored}
    {next : Bool → BudgetProgram α}
    (permitted : call.admits (loaded call (stored.map Prod.fst)) = true)
    (same : value = .budget (call.mutate (loaded call (stored.map Prod.fst))).serialize)
    (informed : ∀ data etag, stored = some (data, etag) → known budgetStateKey data etag)
    (succeeded : ∀ own, (next true).Meets (budgetContract call) known own)
    (failed : (next false).Meets (budgetContract call) known []) :
    (Program.put budgetStateKey value (writeCondition (stored.map Prod.snd)) next).Meets
      (budgetContract call) known [] := by
  subst same
  refine ⟨fun before allows => ?_, succeeded _, fun _ => failed⟩
  rw [allows.eq_read informed]
  exact ⟨rfl, rfl, permitted, rfl⟩

theorem informed_none (data : Stored) (etag : ETag) (read : none = some (data, etag)) :
    known budgetStateKey data etag := by
  cases read

theorem informed_learn {value : Stored} {tag : ETag} (data : Stored) (etag : ETag)
    (read : some (value, tag) = some (data, etag)) :
    known.learn budgetStateKey value tag budgetStateKey data etag := by
  cases read
  exact .inr ⟨rfl, rfl, rfl⟩

theorem mutateBudget_meets (free : ∀ budget, call.admits budget = true) (attempts : Nat) :
    (mutateBudget call.mutate call.now attempts).Meets (budgetContract call) known [] := by
  induction attempts generalizing known with
  | zero => trivial
  | succ attempts induction =>
      refine meets_loadBudgetCas_bind.mpr ⟨?_, fun data etag => ?_⟩
      · exact meets_commit none (free _) rfl informed_none (fun _ => trivial) induction
      · exact meets_commit (some (data, etag)) (free _) rfl informed_learn (fun _ => trivial)
          induction

theorem reserveIfAvailable_meets (request : Reservation) (attempts : Nat) :
    (reserveIfAvailable request attempts).Meets
      (budgetContract (.reserveIfAvailable request)) known [] := by
  induction attempts generalizing known with
  | zero => trivial
  | succ attempts induction =>
      have attempt (stored : Option (Stored × ETag)) {known : Knowledge String Stored}
          (informed : ∀ data etag, stored = some (data, etag) →
            known budgetStateKey data etag) :
          Program.Meets (budgetContract (.reserveIfAvailable request)) known [] (do
            let budget := loaded (.reserveIfAvailable request) (stored.map Prod.fst)
            if !budget.available request.backend request.cap request.maxInflight request.est
                request.cycle then
              return false
            let reserved := budget.reserve request.owner request.backend request.est request.cycle
            let landed ← Program.putCas budgetStateKey (.budget reserved.serialize)
              (writeCondition (stored.map Prod.snd))
            if landed then return true
            reserveIfAvailable request attempts) := by
        cases permitted : (loaded (.reserveIfAvailable request)
            (stored.map Prod.fst)).available request.backend request.cap request.maxInflight
              request.est request.cycle with
        | false => simp [permitted, budgetContract]
        | true =>
            simp only [permitted, Bool.not_true, Bool.false_eq_true, if_false]
            exact meets_commit stored permitted rfl informed (fun _ => trivial) induction
      exact meets_loadBudgetCas_bind.mpr ⟨attempt none informed_none,
        fun data etag => attempt (some (data, etag)) informed_learn⟩

end

theorem budgetContract_bind {call : Call} {program : BudgetProgram α} {rest : α → BudgetProgram β}
    (meets : program.Meets (budgetContract call) Knowledge.none [])
    (continues : ∀ more own result, (rest result).Meets (budgetContract call) more own) :
    (program.bind rest).Meets (budgetContract call) Knowledge.none [] :=
  meets.bind (fun _ _ _ _ _ permitted => permitted)
    fun more own result _ _ => continues more own result

theorem programOf_meets (call : Call) :
    (programOf call).Meets (budgetContract call) Knowledge.none [] := by
  cases call with
  | reserveIfAvailable request =>
      exact budgetContract_bind (reserveIfAvailable_meets request _) fun _ _ _ => trivial
  | _ => exact budgetContract_bind (mutateBudget_meets (fun _ => rfl) _) fun _ _ _ => trivial

end CityPods.Compute
