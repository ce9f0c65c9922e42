import CityPods.Compute.Accounts

/-! # The free-tier cap

The accounts of a run are read off its history. While reservations are accepted
in the order of their cycles, the stored ledger keeps its relation to them, and
no cycle is charged beyond the cap.
-/

namespace CityPods.Compute

open Foundation

/-! ## What a call does to one backend's ledger -/

def ledgerIn (budget : Budget) (backend : String) : BackendLedger :=
  (budget.backends.get? backend).getD {}

def ledgerOf (backend : String) : Option Stored → BackendLedger
  | some (.budget budget) => ledgerIn budget backend
  | _ => {}

/-- The reservation that cleanup by `owner` naming `cycle` finds. -/
def reservedFor (led : BackendLedger) (owner : String) (cycle : Option String) : Option ℚ :=
  if Budget.cleans led cycle then led.inflight.get? owner else none

section

variable {budget : Budget} {backend name owner : String} {cycle : Option String}

theorem ledgerIn_setLedger_same (led : BackendLedger) :
    ledgerIn (budget.setLedger backend led) backend = led := by
  simp [ledgerIn, Budget.setLedger]

theorem ledgerIn_setLedger_other (led : BackendLedger) (different : name ≠ backend) :
    ledgerIn (budget.setLedger name led) backend = ledgerIn budget backend := by
  simp [ledgerIn, Budget.setLedger, Dict.get?_set_other _ _ different.symm]

theorem ledgerIn_serialize : ledgerIn budget.serialize backend = { ledgerIn budget backend with
      inflight := (ledgerIn budget backend).inflight.sortKeys } := by
  simp only [ledgerIn, Budget.serialize, Dict.get?_sortKeys, Dict.get?_mapValues]
  cases budget.backends.get? backend <;> rfl

theorem ledgerIn_observeReport (report : RuntimeReport) (now : DateTime) :
    ledgerIn (budget.observeReport report now) backend = ledgerIn budget backend := by
  unfold Budget.observeReport
  split
  · split <;> rfl
  · rfl

theorem ledgerIn_settle (actual : Option ℚ) (report : RuntimeReport) (now : DateTime) :
    ledgerIn (budget.settle owner backend actual cycle report now) backend =
      match reservedFor (ledgerIn budget backend) owner cycle with
      | none => ledgerIn budget backend
      | some reserved =>
          { ledgerIn budget backend with
            inflight := (ledgerIn budget backend).inflight.erase owner
            usedUnits := (ledgerIn budget backend).settledUnits reserved actual } := by
  unfold Budget.settle
  cases present : budget.backends.get? backend with
  | none => simp [ledgerIn, present, reservedFor]
  | some led =>
      have same : ledgerIn budget backend = led := by simp [ledgerIn, present]
      rw [same]
      by_cases cleaned : Budget.cleans led cycle = true
      · cases held : led.inflight.get? owner with
        | none => simp [reservedFor, cleaned, held, same]
        | some reserved =>
            simp [reservedFor, cleaned, held, ledgerIn_observeReport, ledgerIn_setLedger_same]
      · simp [reservedFor, cleaned, same]

theorem ledgerIn_release :
    ledgerIn (budget.release owner backend cycle) backend =
      match reservedFor (ledgerIn budget backend) owner cycle with
      | none => ledgerIn budget backend
      | some reserved =>
          { ledgerIn budget backend with
            inflight := (ledgerIn budget backend).inflight.erase owner
            usedUnits := max 0 ((ledgerIn budget backend).usedUnits - reserved) } := by
  unfold Budget.release
  cases present : budget.backends.get? backend with
  | none => simp [ledgerIn, present, reservedFor]
  | some led =>
      have same : ledgerIn budget backend = led := by simp [ledgerIn, present]
      rw [same]
      by_cases cleaned : Budget.cleans led cycle = true
      · cases held : led.inflight.get? owner with
        | none => simp [reservedFor, cleaned, held, same]
        | some reserved => simp [reservedFor, cleaned, held, ledgerIn_setLedger_same]
      · simp [reservedFor, cleaned, same]

theorem ledgerIn_settle_other (different : name ≠ backend) (actual : Option ℚ)
    (report : RuntimeReport) (now : DateTime) :
    ledgerIn (budget.settle owner name actual cycle report now) backend =
      ledgerIn budget backend := by
  unfold Budget.settle
  split
  · rfl
  · split
    · split
      · rfl
      · rw [ledgerIn_observeReport, ledgerIn_setLedger_other _ different]
    · rfl

theorem ledgerIn_release_other (different : name ≠ backend) :
    ledgerIn (budget.release owner name cycle) backend = ledgerIn budget backend := by
  unfold Budget.release
  split
  · rfl
  · split
    · split
      · rfl
      · exact ledgerIn_setLedger_other _ different
    · rfl

end

/-! ## The accounts of a history -/

/-- The accounts after a call has replaced a ledger that held `led`. -/
def Call.account (backend : String) (led : BackendLedger) (accounts : List Account) :
    Call → List Account
  | .reserveIfAvailable request =>
      if request.backend = backend then
        ⟨request.owner, request.now, request.cycle.getD (monthKey request.now), request.est,
          true⟩ :: accounts
      else accounts
  | .releaseReservation owner name cycle _ =>
      if name = backend ∧ (reservedFor led owner cycle).isSome = true then
        accounts.map (closeAccount owner (some 0))
      else accounts
  | .settleReservation owner name actual cycle _ _ =>
      if name = backend ∧ (reservedFor led owner cycle).isSome = true then
        accounts.map (closeAccount owner actual)
      else accounts
  | .observeRuntimeEstimate _ _ _ _ _ _ => accounts

/-- The reservations accepted in `history`, newest first. -/
def accountsOf (backend : String) : List (Event service) → List Account
  | [] => []
  | event :: older =>
      event.call.account backend (ledgerOf backend (event.before.map Prod.fst))
        (accountsOf backend older)

theorem ledgerIn_loaded (call : Call) (before : Option Stored) (backend : String) :
    ledgerIn (loaded call before) backend = ledgerOf backend before := by
  cases before with
  | none => rfl
  | some stored => cases stored <;> rfl

variable {budget : Budget} {named : String}

theorem ledger_named {backend : String} (nonempty : named ≠ "") :
    budget.ledger backend (some named) =
      if (ledgerIn budget backend).cycleKey = named then ledgerIn budget backend
      else { cycleKey := named } := by
  have target : budget.targetCycle (some named) = named := by
    simp [Budget.targetCycle, nonempty]
  by_cases same : (ledgerIn budget backend).cycleKey = named
  · rw [if_pos same]
    exact if_pos (same.trans target.symm)
  · rw [if_neg same]
    refine (if_neg fun equal => same (equal.trans target)).trans ?_
    rw [target]

/-! ## One committed call -/

section

variable {cap : ℚ} {maxInflight : Nat} {backend : String} {accounts : List Account}
  {budget : Budget}

/-- An admitted reservation, in the ledger's cycle or in one without accounts. -/
theorem Capped.reserve (capped : Capped cap maxInflight (ledgerIn budget backend) accounts)
    (capNonneg : 0 ≤ cap) {owner : String} {est : ℚ} (now : DateTime) (nonneg : 0 ≤ est)
    (nonempty : named ≠ "")
    (room : budget.available backend cap maxInflight est (some named) = true)
    (fresh : ∀ account ∈ accounts, account.owner ≠ owner)
    (opens : named ≠ (ledgerIn budget backend).cycleKey →
      ∀ account ∈ accounts, account.cycle ≠ named) :
    Capped cap maxInflight (ledgerIn (budget.reserve owner backend est (some named)) backend)
      (⟨owner, now, named, est, true⟩ :: accounts) := by
  obtain ⟨units, slots⟩ := Bool.and_eq_true_iff.mp room
  replace units := of_decide_eq_true units
  replace slots := of_decide_eq_true slots
  unfold BackendLedger.inflightCount at slots
  rw [Budget.reserve, ledgerIn_setLedger_same]
  rw [ledger_named nonempty] at units slots ⊢
  by_cases same : (ledgerIn budget backend).cycleKey = named
  · subst same
    rw [if_pos rfl] at units slots ⊢
    exact capped.accept now nonneg fresh units slots
  · rw [if_neg same] at units slots ⊢
    have rolled := capped.rollOver now capNonneg nonneg fresh (opens fun equal => same equal.symm)
      (by simpa using units) slots
    simpa [Dict.set] using rolled

theorem Capped.settle (capped : Capped cap maxInflight (ledgerIn budget backend) accounts)
    (capNonneg : 0 ≤ cap) {owner : String} {actual : Option ℚ} {cycle : Option String}
    (report : RuntimeReport) (now : DateTime)
    (bounded : ∀ cost, actual = some cost → ∀ account ∈ accounts, account.owner = owner →
      account.outstanding = true → cost ≤ account.charge) :
    Capped cap maxInflight
      (ledgerIn (budget.settle owner backend actual cycle report now) backend)
      (if (reservedFor (ledgerIn budget backend) owner cycle).isSome = true then
        accounts.map (closeAccount owner actual) else accounts) := by
  rw [ledgerIn_settle]
  cases found : reservedFor (ledgerIn budget backend) owner cycle with
  | none => simpa using capped
  | some reserved =>
      have held : (ledgerIn budget backend).inflight.get? owner = some reserved := by
        unfold reservedFor at found
        split at found
        · exact found
        · cases found
      have within : actual.getD reserved ≤ reserved := by
        cases actual with
        | none => exact le_refl _
        | some cost =>
            obtain ⟨account, member, rfl, current, outstanding⟩ := capped.tracked _ _ held
            have backed := capped.backed account member current outstanding
            rw [held] at backed
            have same := Option.some.inj backed
            exact (bounded cost rfl account member rfl outstanding).trans same.ge
      simp only [Option.isSome_some, if_true]
      refine capped.close capNonneg held within ?_
      cases actual with
      | none => exact .inr ⟨rfl, rfl⟩
      | some cost => exact .inl rfl

theorem Capped.release (capped : Capped cap maxInflight (ledgerIn budget backend) accounts)
    (capNonneg : 0 ≤ cap) {owner : String} {cycle : Option String} :
    Capped cap maxInflight (ledgerIn (budget.release owner backend cycle) backend)
      (if (reservedFor (ledgerIn budget backend) owner cycle).isSome = true then
        accounts.map (closeAccount owner (some 0)) else accounts) := by
  rw [ledgerIn_release]
  cases found : reservedFor (ledgerIn budget backend) owner cycle with
  | none => simpa using capped
  | some reserved =>
      have held : (ledgerIn budget backend).inflight.get? owner = some reserved := by
        unfold reservedFor at found
        split at found
        · exact found
        · cases found
      have nonneg : 0 ≤ reserved := by
        obtain ⟨account, member, rfl, current, outstanding⟩ := capped.tracked _ _ held
        have backed := capped.backed account member current outstanding
        rw [held] at backed
        exact (capped.nonneg account member outstanding).trans (Option.some.inj backed).ge
      simp only [Option.isSome_some, if_true]
      exact capped.close capNonneg held nonneg (.inl (by simp))

end

/-- The cycle keys of a backend are never empty. -/
theorem cycleKey_ne_empty (now : DateTime) (rollover : Nat) : cycleKey now rollover ≠ "" := by
  intro empty
  have lists := congrArg String.toList empty
  rw [cycleKey, DateTime.formatDate_toList] at lists
  simp at lists

theorem cycleStart_microsecond (now : DateTime) (rollover : Nat) :
    (cycleStart now rollover).microsecond = 0 := by
  simp only [cycleStart]
  split
  · rfl
  · split <;> rfl

variable {rollover : Nat}

/-- Different cycles have different keys. -/
theorem cycleStart_eq_of_key {first second : DateTime}
    (same : cycleKey first rollover = cycleKey second rollover) :
    cycleStart first rollover = cycleStart second rollover := by
  obtain ⟨years, months, days⟩ := DateTime.formatDate_injective same
  apply DateTime.fields_injective
  simp [DateTime.fields, years, months, days, cycleStart_microsecond]

/-! ## Runs -/

def Call.reservation? (backend : String) : Call → Option Reservation
  | .reserveIfAvailable request => if request.backend = backend then some request else none
  | _ => none

def Call.settlement? (backend : String) : Call → Option (String × ℚ)
  | .settleReservation owner name (some cost) _ _ _ =>
      if name = backend then some (owner, cost) else none
  | _ => none

variable {backend : String} {call : Call}

theorem Call.mem_reservation? {request : Reservation} :
    request ∈ call.reservation? backend ↔
      call = .reserveIfAvailable request ∧ request.backend = backend := by
  cases call with
  | reserveIfAvailable other =>
      simp only [Call.reservation?, Option.mem_def, Call.reserveIfAvailable.injEq]
      constructor
      · intro found
        split at found
        · next name =>
            cases found
            exact ⟨rfl, name⟩
        · cases found
      · rintro ⟨rfl, name⟩
        rw [if_pos name]
  | _ => simp [Call.reservation?]

/-- The calls of a run, in the order of their starts, as one backend sees them:
its configured limits and cycle keys, one owner per reservation, and settlements
within the reserved estimates. -/
structure Discipline (backend : String) (cap : ℚ) (maxInflight rollover : Nat)
    (calls : List Call) : Prop where
  agreed : ∀ call ∈ calls, ∀ request ∈ call.reservation? backend,
    request.cap = cap ∧ request.maxInflight = maxInflight ∧
      request.cycle = some (cycleKey request.now rollover) ∧ 0 ≤ request.est
  distinct : calls.Pairwise fun first second => ∀ request ∈ first.reservation? backend,
    ∀ other ∈ second.reservation? backend, request.owner ≠ other.owner
  settled : ∀ call ∈ calls, ∀ settlement ∈ call.settlement? backend, ∀ holder ∈ calls,
    ∀ request ∈ holder.reservation? backend, request.owner = settlement.1 →
      settlement.2 ≤ request.est

/-- No reservation is accepted for an earlier cycle than one accepted before it. -/
def InCycleOrder (backend : String) (rollover : Nat) (history : List (Event service)) : Prop :=
  history.Pairwise fun newer older => ∀ request ∈ newer.call.reservation? backend,
    ∀ earlier ∈ older.call.reservation? backend,
      cycleStart earlier.now rollover ≤ cycleStart request.now rollover

theorem Discipline.same_call {cap : ℚ} {maxInflight : Nat}
    {calls : List Call} (discipline : Discipline backend cap maxInflight rollover calls)
    {i j : Nat} {first second : Call} {request other : Reservation}
    (firstMade : calls[i]? = some first) (secondMade : calls[j]? = some second)
    (requested : request ∈ first.reservation? backend)
    (otherRequested : other ∈ second.reservation? backend)
    (owned : request.owner = other.owner) : i = j := by
  obtain ⟨firstInside, rfl⟩ := List.getElem?_eq_some_iff.mp firstMade
  obtain ⟨secondInside, rfl⟩ := List.getElem?_eq_some_iff.mp secondMade
  have ordered := List.pairwise_iff_getElem.mp discipline.distinct
  rcases Nat.lt_trichotomy i j with before | same | after
  · exact absurd owned (ordered i j firstInside secondInside before request requested other
      otherRequested)
  · exact same
  · exact absurd owned.symm (ordered j i secondInside firstInside after other otherRequested
      request requested)

/-- The writes of `history` were made by these calls. -/
def IssuedBy (calls : List Call) (history : List (Event service)) : Prop :=
  ∀ event ∈ history, calls[event.worker]? = some event.call

/-- The write of a reservation in `history` opened the account. -/
def Opened (backend : String) (rollover : Nat) (history : List (Event service))
    (account : Account) : Prop :=
  ∃ event ∈ history, ∃ request ∈ event.call.reservation? backend,
    account.owner = request.owner ∧ account.now = request.now ∧ account.cycle = cycleKey request.now rollover ∧
    (account.outstanding = true → account.charge = request.est)

variable {account : Account}

theorem Opened.cons {history : List (Event service)}
    (opened : Opened backend rollover history account)
    (event : Event service) : Opened backend rollover (event :: history) account := by
  obtain ⟨old, member, opened⟩ := opened
  exact ⟨old, List.mem_cons_of_mem event member, opened⟩

variable {history : List (Event service)}

theorem Opened.close (opened : Opened backend rollover history account) (owner : String)
    (actual : Option ℚ) :
    Opened backend rollover history (closeAccount owner actual account) := by
  obtain ⟨event, member, request, requested, owned, now, cycle, charge⟩ := opened
  refine ⟨event, member, request, requested, by simpa using owned, by simpa using now,
    by simpa using cycle, fun outstanding => ?_⟩
  obtain ⟨kept, stays, _⟩ := closeAccount_outstanding outstanding
  rw [kept]
  exact charge stays

variable {accounts : List Account} {led : BackendLedger}

theorem account_cases (member : account ∈ call.account backend led accounts) :
    account ∈ accounts ∨
      (∃ owner actual, ∃ before ∈ accounts, account = closeAccount owner actual before) ∨
      ∃ request ∈ call.reservation? backend, account = ⟨request.owner, request.now, request.cycle.getD (monthKey request.now),
          request.est, true⟩ := by
  cases call with
  | reserveIfAvailable request =>
      rw [Call.account] at member
      split at member
      · next name =>
          rcases List.mem_cons.mp member with rfl | member
          · exact .inr (.inr ⟨request, Call.mem_reservation?.mpr ⟨rfl, name⟩, rfl⟩)
          · exact .inl member
      · exact .inl member
  | releaseReservation owner name cycle now =>
      rw [Call.account] at member
      split at member
      · obtain ⟨before, present, rfl⟩ := List.mem_map.mp member
        exact .inr (.inl ⟨owner, some 0, before, present, rfl⟩)
      · exact .inl member
  | settleReservation owner name actual cycle report now =>
      rw [Call.account] at member
      split at member
      · obtain ⟨before, present, rfl⟩ := List.mem_map.mp member
        exact .inr (.inl ⟨owner, actual, before, present, rfl⟩)
      · exact .inl member
  | observeRuntimeEstimate => exact .inl member

section

variable {backend : String} {cap : ℚ} {maxInflight rollover : Nat} {calls : List Call}

theorem opened_of_issued (discipline : Discipline backend cap maxInflight rollover calls)
    (issued : IssuedBy calls history) :
    ∀ account ∈ accountsOf backend history, Opened backend rollover history account := by
  induction history with
  | nil =>
      intro account member
      cases member
  | cons event older induction =>
      have earlier := induction fun old member => issued old (List.mem_cons_of_mem _ member)
      intro account member
      rcases account_cases member with present | ⟨owner, actual, before, present, rfl⟩ |
        ⟨request, requested, rfl⟩
      · exact (earlier account present).cons event
      · exact ((earlier before present).cons event).close owner actual
      · have made := List.mem_of_getElem? (issued event List.mem_cons_self)
        obtain ⟨_, _, cycle, _⟩ := discipline.agreed event.call made request requested
        exact ⟨event, List.mem_cons_self, request, requested, rfl, rfl, by simp [cycle],
          fun _ => rfl⟩

theorem first_write {store : Store String Stored} {event : Event service}
    {older : List (Event service)} (valid : ValidHistory budgetContract store (event :: older)) :
    ∀ old ∈ older, old.worker ≠ event.worker := by
  cases valid with
  | cons valid replaces permitted later started =>
      obtain ⟨_, unwritten, _⟩ := permitted
      intro old member same
      rw [writesOf, List.map_eq_nil_iff, List.filter_eq_nil_iff] at unwritten
      exact unwritten old member (by simp [same])

end

/-! ### The ledger's cycle is that of the newest account -/

def Current (rollover : Nat) (led : BackendLedger) (accounts : List Account) : Prop :=
  ∀ account ∈ accounts, ∃ latest ∈ accounts, latest.cycle = led.cycleKey ∧
    cycleStart account.now rollover ≤ cycleStart latest.now rollover

theorem Current.of_cycleKey {next : BackendLedger}
    (current : Current rollover led accounts) (same : next.cycleKey = led.cycleKey) :
    Current rollover next accounts := by
  unfold Current
  rw [same]
  exact current

theorem Current.close
    (current : Current rollover led accounts) (owner : String) (actual : Option ℚ) :
    Current rollover led (accounts.map (closeAccount owner actual)) := by
  intro account member
  obtain ⟨before, present, rfl⟩ := List.mem_map.mp member
  obtain ⟨latest, latestPresent, cycle, early⟩ := current before present
  exact ⟨_, List.mem_map_of_mem latestPresent, by simpa using cycle, by simpa using early⟩

theorem Current.accept (cycle : account.cycle = led.cycleKey) (last : ∀ earlier ∈ accounts,
      cycleStart earlier.now rollover ≤ cycleStart account.now rollover) :
    Current rollover led (account :: accounts) := by
  intro other member
  refine ⟨account, List.mem_cons_self, cycle, ?_⟩
  rcases List.mem_cons.mp member with rfl | member
  · exact le_refl _
  · exact last other member

variable {now : DateTime}

/-- A reservation in cycle order that names another cycle opens it. -/
theorem Current.opens (current : Current rollover led accounts)
    (opened : ∀ account ∈ accounts, Opened backend rollover history account)
    (last : ∀ earlier ∈ accounts, cycleStart earlier.now rollover ≤ cycleStart now rollover)
    (different : cycleKey now rollover ≠ led.cycleKey) :
    ∀ account ∈ accounts, account.cycle ≠ cycleKey now rollover := by
  intro account member same
  obtain ⟨latest, latestMember, latestCycle, early⟩ := current account member
  have keyed (other : Account) (present : other ∈ accounts) :
      other.cycle = cycleKey other.now rollover := by
    obtain ⟨_, _, request, _, _, sameNow, cycle, _⟩ := opened other present
    rw [cycle, sameNow]
  have starts := cycleStart_eq_of_key ((keyed account member).symm.trans same)
  have equal : cycleStart latest.now rollover = cycleStart now rollover :=
    le_antisymm (last latest latestMember) (starts ▸ early)
  apply different
  rw [← latestCycle, keyed latest latestMember, cycleKey, cycleKey, equal]

variable {owner : String}

theorem cycleKey_reserve {est : ℚ} (nonempty : named ≠ "") :
    (ledgerIn (budget.reserve owner backend est (some named)) backend).cycleKey = named := by
  rw [Budget.reserve, ledgerIn_setLedger_same, ledger_named nonempty]
  split
  · next same => exact same
  · rfl

variable {cycle : Option String}

theorem cycleKey_settle {actual : Option ℚ} {report : RuntimeReport} :
    (ledgerIn (budget.settle owner backend actual cycle report now) backend).cycleKey =
      (ledgerIn budget backend).cycleKey := by
  rw [ledgerIn_settle]
  split <;> rfl

theorem cycleKey_release :
    (ledgerIn (budget.release owner backend cycle) backend).cycleKey =
      (ledgerIn budget backend).cycleKey := by
  rw [ledgerIn_release]
  split <;> rfl

/-! ### Histories in cycle order -/

section

variable {backend : String} {cap : ℚ} {maxInflight rollover : Nat} {calls : List Call}

/-- What the older writes leave for the next call to work on. -/
structure Covered (backend : String) (cap : ℚ) (maxInflight rollover : Nat) (budget : Budget)
    (accounts : List Account) : Prop where
  capped : Capped cap maxInflight (ledgerIn budget backend) accounts
  current : Current rollover (ledgerIn budget backend) accounts

theorem Covered.same {next : Budget}
    (covered : Covered backend cap maxInflight rollover budget accounts)
    (equal : ledgerIn next backend = ledgerIn budget backend) :
    Covered backend cap maxInflight rollover next accounts where
  capped := equal ▸ covered.capped
  current := equal ▸ covered.current

theorem Covered.serialize (covered : Covered backend cap maxInflight rollover budget accounts) :
    Covered backend cap maxInflight rollover budget.serialize accounts where
  capped := by
    rw [ledgerIn_serialize]
    exact covered.capped.sorted
  current := by
    rw [ledgerIn_serialize]
    exact covered.current

theorem Covered.commit {older : List (Event service)} {event : Event service}
    (covered : Covered backend cap maxInflight rollover budget (accountsOf backend older))
    (capNonneg : 0 ≤ cap) (discipline : Discipline backend cap maxInflight rollover calls)
    (issued : IssuedBy calls (event :: older))
    (ordered : InCycleOrder backend rollover (event :: older))
    (first : ∀ old ∈ older, old.worker ≠ event.worker)
    (admitted : event.call.admits budget = true) :
    Covered backend cap maxInflight rollover (event.call.mutate budget)
      (event.call.account backend (ledgerIn budget backend) (accountsOf backend older)) := by
  have opened := opened_of_issued discipline fun old member =>
    issued old (List.mem_cons_of_mem event member)
  have made := issued event List.mem_cons_self
  have member := List.mem_of_getElem? made
  cases call : event.call with
  | reserveIfAvailable request =>
      rw [call] at admitted made member
      by_cases name : request.backend = backend
      · have requested := Call.mem_reservation?.mpr ⟨rfl, name⟩
        obtain ⟨capped, slots, cycle, nonneg⟩ := discipline.agreed _ member request requested
        have nonempty := cycleKey_ne_empty request.now rollover
        have fresh : ∀ account ∈ accountsOf backend older, account.owner ≠ request.owner := by
          intro account present equal
          obtain ⟨old, oldMember, other, otherRequested, owned, _⟩ := opened account present
          have oldMade := issued old (List.mem_cons_of_mem event oldMember)
          exact first old oldMember (discipline.same_call oldMade made otherRequested requested
            (owned.symm.trans equal))
        have last : ∀ account ∈ accountsOf backend older,
            cycleStart account.now rollover ≤ cycleStart request.now rollover := by
          intro account present
          obtain ⟨old, oldMember, other, otherRequested, _, sameNow, _⟩ := opened account present
          rw [sameNow]
          exact (List.pairwise_cons.mp ordered).1 old oldMember request (call ▸ requested) other
            otherRequested
        simp only [Call.admits, capped, slots, cycle, name] at admitted
        simp only [Call.mutate, Call.account, name, if_true, cycle, Option.getD_some]
        exact ⟨covered.capped.reserve capNonneg request.now nonneg nonempty admitted fresh
            (covered.current.opens opened last), .accept (cycleKey_reserve nonempty).symm last⟩
      · simp only [Call.account, name, if_false]
        exact covered.same (ledgerIn_setLedger_other _ name)
  | releaseReservation owner name cycle now =>
      by_cases here : name = backend
      · subst here
        simp only [Call.account, true_and]
        refine ⟨covered.capped.release capNonneg, ?_⟩
        apply Current.of_cycleKey _ cycleKey_release
        split
        · exact covered.current.close owner (some 0)
        · exact covered.current
      · simp only [Call.account, here, false_and, if_false]
        exact covered.same (ledgerIn_release_other here)
  | settleReservation owner name actual cycle report now =>
      by_cases here : name = backend
      · subst here
        simp only [Call.account, true_and]
        refine ⟨covered.capped.settle capNonneg report now ?_, ?_⟩
        · rintro cost rfl account present rfl outstanding
          obtain ⟨old, oldMember, request, requested, owned, _, _, charge⟩ :=
            opened account present
          have oldMade := issued old (List.mem_cons_of_mem event oldMember)
          rw [charge outstanding]
          exact discipline.settled _ (call ▸ member) (account.owner, cost)
            (by simp [Call.settlement?]) _ (List.mem_of_getElem? oldMade) request requested
            owned.symm
        · apply Current.of_cycleKey _ cycleKey_settle
          split
          · exact covered.current.close owner actual
          · exact covered.current
      · simp only [Call.account, here, false_and, if_false]
        exact covered.same (ledgerIn_settle_other here actual report now)
  | observeRuntimeEstimate => exact covered.same rfl

/-- The relation of ledger and accounts after every history in cycle order. -/
theorem covered_of_valid {store : Store String Stored} (capNonneg : 0 ≤ cap)
    (idle : (ledgerOf backend ((store.object budgetStateKey).map Prod.fst)).inflight = [])
    (spent : 0 ≤ (ledgerOf backend ((store.object budgetStateKey).map Prod.fst)).usedUnits)
    (discipline : Discipline backend cap maxInflight rollover calls)
    (valid : ValidHistory budgetContract store history)
    (issued : IssuedBy calls history) (ordered : InCycleOrder backend rollover history) :
    Capped cap maxInflight
        (ledgerOf backend ((latest store history budgetStateKey).map Prod.fst))
        (accountsOf backend history) ∧
      Current rollover (ledgerOf backend ((latest store history budgetStateKey).map Prod.fst))
        (accountsOf backend history) := by
  induction history with
  | nil =>
      refine ⟨Capped.unused capNonneg spent idle, ?_⟩
      intro account member
      cases member
  | cons event older induction =>
      have first := first_write valid
      cases valid with
      | cons valid replaces permitted later started =>
          obtain ⟨_, _, key, admitted, written⟩ := permitted
          have before := induction valid
            (fun old member => issued old (List.mem_cons_of_mem event member))
            (List.pairwise_cons.mp ordered).2
          rw [← key, ← replaces, ← ledgerIn_loaded event.call] at before
          have committed := (Covered.commit ⟨before.1, before.2⟩ capNonneg discipline issued ordered
            first admitted).serialize
          rw [← key, latest_cons_same, written, accountsOf,
            ← ledgerIn_loaded event.call (event.before.map Prod.fst)]
          exact ⟨committed.capped, committed.current⟩

/-- As long as no reservation is accepted for an earlier cycle than one accepted
before it, every cycle stays within the cap and the in-flight limit. -/
theorem budget_within_cap {store : Store String Stored} (fresh : store.Fresh)
    {clock : DateTime} {config : Config service}
    (idle : (ledgerOf backend ((store.object budgetStateKey).map Prod.fst)).inflight = [])
    (spent : 0 ≤ (ledgerOf backend ((store.object budgetStateKey).map Prod.fst)).usedUnits)
    (capNonneg : 0 ≤ cap) (reached : Reachable (Config.init store clock) config)
    (discipline : Discipline backend cap maxInflight rollover (config.workers.map Worker.call))
    (ordered : InCycleOrder backend rollover config.history) (cycle : String) :
    charged cycle (accountsOf backend config.history) ≤ cap ∧
      outstandingCount cycle (accountsOf backend config.history) ≤ maxInflight := by
  have sound := Run.sound programOf_meets fresh reached
  have issued : IssuedBy (config.workers.map Worker.call) config.history := by
    intro event member
    obtain ⟨worker, present, same⟩ := sound.issuer event member
    simp [present, same]
  have covered := covered_of_valid capNonneg idle spent discipline sound.valid issued ordered
  exact covered.1.bounds capNonneg cycle

end

/-! ## A reservation that straddles a rollover -/

def lastOfJanuary : DateTime := { year := 2026, month := 1, day := 31, microsecond := 0 }

def firstOfFebruary : DateTime := { year := 2026, month := 2, day := 1, microsecond := 0 }

/-- A reservation of `est` units at `now`, for a backend that is capped at 10 units
and 5 jobs and rolls over on the first of the month. -/
def request (owner : String) (est : ℚ) (now : DateTime) : Reservation where
  owner := owner
  backend := "modal"
  est := est
  cap := 10
  maxInflight := 5
  cycle := some (cycleKey now 1)
  now := now

def stepsOf (worker : Nat) : List (Step service) := [.run worker true, .run worker true]

def reserveInOrder : List (Step service) :=
  [.start (.reserveIfAvailable (request "a" 10 lastOfJanuary))] ++ stepsOf 0 ++
    [.tick firstOfFebruary, .start (.reserveIfAvailable (request "b" 6 firstOfFebruary))] ++
    stepsOf 1 ++
    [.start (.settleReservation "b" "modal" (some 4) none {} firstOfFebruary)] ++ stepsOf 2 ++
    [.start (.reserveIfAvailable (request "c" 6 firstOfFebruary))] ++ stepsOf 3

/-- A reservation starts in January and reads the ledger after another one was
accepted in February; a third one follows in February. -/
def reserveLate : List (Step service) :=
  [.start (.reserveIfAvailable (request "a" 10 lastOfJanuary)), .tick firstOfFebruary,
    .start (.reserveIfAvailable (request "b" 10 firstOfFebruary))] ++ stepsOf 1 ++ stepsOf 0 ++
    [.start (.reserveIfAvailable (request "c" 10 firstOfFebruary))] ++ stepsOf 2

def init : Config service := Config.init Store.empty lastOfJanuary

theorem reserveInOrder_executes : (init.steps reserveInOrder).isSome = true := by
  decide +kernel

theorem reserveLate_executes : (init.steps reserveLate).isSome = true := by
  decide +kernel

def afterInOrder : Config service := (init.steps reserveInOrder).get reserveInOrder_executes

def afterLate : Config service := (init.steps reserveLate).get reserveLate_executes

theorem afterInOrder_reachable : Reachable init afterInOrder :=
  Reachable.of_steps (Option.some_get _).symm

theorem afterLate_reachable : Reachable init afterLate :=
  Reachable.of_steps (Option.some_get _).symm

theorem afterInOrder_discipline :
    Discipline "modal" 10 5 1 (afterInOrder.workers.map Worker.call) := by
  have calls : afterInOrder.workers.map Worker.call = _ :=
    Config.calls_of_execute (Option.some_get reserveInOrder_executes).symm
  rw [calls]
  constructor <;> decide

theorem afterLate_discipline :
    Discipline "modal" 10 5 1 (afterLate.workers.map Worker.call) := by
  have calls : afterLate.workers.map Worker.call = _ :=
    Config.calls_of_execute (Option.some_get reserveLate_executes).symm
  rw [calls]
  constructor <;> decide

theorem afterInOrder_ordered : InCycleOrder "modal" 1 afterInOrder.history := by
  unfold InCycleOrder
  decide +kernel

theorem budget_within_cap_afterInOrder :
    charged "2026-02-01" (accountsOf "modal" afterInOrder.history) ≤ 10 ∧
      outstandingCount "2026-02-01" (accountsOf "modal" afterInOrder.history) ≤ 5 :=
  budget_within_cap Store.empty_fresh rfl (le_refl 0) (by norm_num) afterInOrder_reachable
    afterInOrder_discipline afterInOrder_ordered "2026-02-01"

theorem late_reservation_breaks_cap :
    ¬ ∀ config : Config service, Reachable init config →
      Discipline "modal" 10 5 1 (config.workers.map Worker.call) → ∀ cycle,
        charged cycle (accountsOf "modal" config.history) ≤ 10 ∧
          outstandingCount cycle (accountsOf "modal" config.history) ≤ 5 := by
  intro bounded
  have within := (bounded afterLate afterLate_reachable afterLate_discipline "2026-02-01").1
  have exceeds : ¬ charged "2026-02-01" (accountsOf "modal" afterLate.history) ≤ 10 := by
    decide +kernel
  exact exceeds within

end CityPods.Compute
