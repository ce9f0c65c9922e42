import CityPods.Compute.Reservation

/-! # What a ledger owes to its accepted reservations

The accepted reservations of one backend as accounts of their own, and the
relation that the stored ledger keeps to them: what one admission, settlement or
release does to both.
-/

namespace CityPods.Compute

open Foundation

/-- An accepted reservation and what it counts for: its estimate while it is
outstanding, its actual cost once settled, nothing once released. -/
structure Account where
  owner : String
  now : DateTime
  cycle : String
  charge : ℚ
  outstanding : Bool

/-- Settle (or release) the outstanding reservation of `owner`; without an
actual cost the estimate stays charged. -/
def closeAccount (owner : String) (actual : Option ℚ) (account : Account) : Account :=
  if account.owner = owner ∧ account.outstanding = true then
    { account with charge := actual.getD account.charge, outstanding := false }
  else account

def charged (cycle : String) (accounts : List Account) : ℚ :=
  ((accounts.filter fun account => account.cycle = cycle).map (·.charge)).sum

def outstandingCount (cycle : String) (accounts : List Account) : Nat :=
  (accounts.filter fun account => account.cycle = cycle ∧ account.outstanding = true).length

section

variable {owner : String} {actual : Option ℚ} {account : Account} {accounts : List Account}
  {cycle : String}

@[simp] theorem closeAccount_owner : (closeAccount owner actual account).owner = account.owner := by
  unfold closeAccount
  split <;> rfl

@[simp] theorem closeAccount_cycle : (closeAccount owner actual account).cycle = account.cycle := by
  unfold closeAccount
  split <;> rfl

@[simp] theorem closeAccount_now : (closeAccount owner actual account).now = account.now := by
  unfold closeAccount
  split <;> rfl

theorem closeAccount_other (different : account.owner ≠ owner) :
    closeAccount owner actual account = account := by
  simp [closeAccount, different]

theorem closeAccount_outstanding
    (outstanding : (closeAccount owner actual account).outstanding = true) :
    closeAccount owner actual account = account ∧ account.outstanding = true ∧
      account.owner ≠ owner := by
  unfold closeAccount at outstanding ⊢
  split at outstanding
  · cases outstanding
  · next kept =>
      refine ⟨by simp [kept], outstanding, fun same => kept ⟨same, outstanding⟩⟩

@[simp] theorem charged_nil : charged cycle [] = 0 := rfl

theorem charged_cons : charged cycle (account :: accounts) =
    (if account.cycle = cycle then account.charge else 0) + charged cycle accounts := by
  by_cases same : account.cycle = cycle
  · simp [charged, same]
  · simp [charged, same]

theorem outstandingCount_cons : outstandingCount cycle (account :: accounts) =
    (if account.cycle = cycle ∧ account.outstanding = true then 1 else 0) +
      outstandingCount cycle accounts := by
  by_cases same : account.cycle = cycle ∧ account.outstanding = true
  · simp [outstandingCount, same]; omega
  · simp [outstandingCount, same]

theorem charged_eq_zero (absent : ∀ account ∈ accounts, account.cycle ≠ cycle) :
    charged cycle accounts = 0 := by
  induction accounts with
  | nil => rfl
  | cons account accounts induction =>
      rw [charged_cons, if_neg (absent account List.mem_cons_self),
        induction fun other member => absent other (List.mem_cons_of_mem _ member), add_zero]

theorem outstandingCount_eq_zero (absent : ∀ account ∈ accounts, account.cycle ≠ cycle) :
    outstandingCount cycle accounts = 0 := by
  induction accounts with
  | nil => rfl
  | cons account accounts induction =>
      rw [outstandingCount_cons, if_neg fun same => absent account List.mem_cons_self same.1,
        induction fun other member => absent other (List.mem_cons_of_mem _ member)]

theorem map_closeAccount_absent (absent : ∀ account ∈ accounts, account.owner ≠ owner) :
    accounts.map (closeAccount owner actual) = accounts := by
  induction accounts with
  | nil => rfl
  | cons account accounts induction =>
      rw [List.map_cons, closeAccount_other (absent account List.mem_cons_self),
        induction fun other member => absent other (List.mem_cons_of_mem _ member)]

theorem charged_closeAccount (distinct : (accounts.map (·.owner)).Nodup)
    (member : account ∈ accounts) (outstanding : account.outstanding = true) :
    charged cycle (accounts.map (closeAccount account.owner actual)) =
      charged cycle accounts +
        (if account.cycle = cycle then actual.getD account.charge - account.charge else 0) := by
  induction accounts with
  | nil => cases member
  | cons head accounts induction =>
      simp only [List.map_cons, List.nodup_cons] at distinct
      obtain ⟨fresh, distinct⟩ := distinct
      rw [List.map_cons, charged_cons, charged_cons]
      rcases List.mem_cons.mp member with rfl | member
      · rw [map_closeAccount_absent fun other present same =>
          fresh (List.mem_map.mpr ⟨other, present, same⟩)]
        by_cases same : account.cycle = cycle
        · simp [closeAccount, outstanding, same]; ring
        · simp [same]
      · have different : head.owner ≠ account.owner := fun same =>
          fresh (List.mem_map.mpr ⟨account, member, same.symm⟩)
        rw [closeAccount_other different, induction distinct member]
        ring

theorem outstandingCount_closeAccount :
    outstandingCount cycle (accounts.map (closeAccount owner actual)) ≤
      outstandingCount cycle accounts := by
  induction accounts with
  | nil => exact Nat.le_refl _
  | cons head accounts induction =>
      rw [List.map_cons, outstandingCount_cons, outstandingCount_cons]
      by_cases outstanding : (closeAccount owner actual head).outstanding = true
      · rw [(closeAccount_outstanding outstanding).1]
        omega
      · rw [if_neg fun both => outstanding both.2]
        omega

end

/-! ## The ledger and its accounts -/

/-- The ledger covers the accounts of its own cycle, within the cap if it has
any, and the accounts of every other cycle are within it too. -/
structure Capped (cap : ℚ) (maxInflight : Nat) (led : BackendLedger)
    (accounts : List Account) : Prop where
  owners : (accounts.map (·.owner)).Nodup
  nonneg : ∀ account ∈ accounts, account.outstanding = true → 0 ≤ account.charge
  backed : ∀ account ∈ accounts, account.cycle = led.cycleKey → account.outstanding = true →
    led.inflight.get? account.owner = some account.charge
  tracked : ∀ owner reserved, led.inflight.get? owner = some reserved →
    ∃ account ∈ accounts, account.owner = owner ∧ account.cycle = led.cycleKey ∧
      account.outstanding = true
  spent : charged led.cycleKey accounts ≤ led.usedUnits
  within : (∃ account ∈ accounts, account.cycle = led.cycleKey) →
    led.usedUnits ≤ cap ∧ led.inflight.length ≤ maxInflight
  closed : ∀ cycle, cycle ≠ led.cycleKey →
    charged cycle accounts ≤ cap ∧ outstandingCount cycle accounts ≤ maxInflight

namespace Capped

variable {cap : ℚ} {maxInflight : Nat} {led : BackendLedger} {accounts : List Account}

/-- Outstanding reservations of the ledger's cycle hold different slots of it. -/
theorem count_le (capped : Capped cap maxInflight led accounts) :
    outstandingCount led.cycleKey accounts ≤ led.inflight.length := by
  have slots : ((accounts.filter fun account => account.cycle = led.cycleKey ∧
      account.outstanding = true).map (·.owner)) ⊆ led.inflight.keys := by
    intro owner member
    obtain ⟨account, filtered, rfl⟩ := List.mem_map.mp member
    obtain ⟨present, same⟩ := List.mem_filter.mp filtered
    have holds := of_decide_eq_true same
    rw [← Dict.get?_isSome_iff_mem_keys, capped.backed account present holds.1 holds.2]
    rfl
  have distinct : ((accounts.filter fun account => account.cycle = led.cycleKey ∧
      account.outstanding = true).map (·.owner)).Nodup :=
    capped.owners.sublist (List.filter_sublist.map _)
  have bounded := (distinct.subperm slots).length_le
  simpa [outstandingCount, Dict.keys] using bounded

/-- What the relation says about every cycle. -/
theorem bounds (capped : Capped cap maxInflight led accounts) (nonneg : 0 ≤ cap) (cycle : String) :
    charged cycle accounts ≤ cap ∧ outstandingCount cycle accounts ≤ maxInflight := by
  by_cases current : cycle = led.cycleKey
  · subst current
    by_cases active : ∃ account ∈ accounts, account.cycle = led.cycleKey
    · obtain ⟨used, slots⟩ := capped.within active
      exact ⟨capped.spent.trans used, capped.count_le.trans slots⟩
    · have absent : ∀ account ∈ accounts, account.cycle ≠ led.cycleKey :=
        fun account member same => active ⟨account, member, same⟩
      rw [charged_eq_zero absent, outstandingCount_eq_zero absent]
      exact ⟨nonneg, Nat.zero_le _⟩
  · exact capped.closed cycle current

/-- A ledger without reservations, before any was accepted. -/
theorem unused (nonneg : 0 ≤ cap) (spent : 0 ≤ led.usedUnits) (idle : led.inflight = []) :
    Capped cap maxInflight led [] where
  owners := List.nodup_nil
  nonneg := by
    intro account member
    cases member
  backed := by
    intro account member
    cases member
  tracked := by
    intro owner reserved present
    rw [idle] at present
    cases present
  spent := spent
  within := by
    rintro ⟨account, member, _⟩
    cases member
  closed := fun cycle _ => ⟨nonneg, Nat.zero_le _⟩

/-- Serialization sorts the slots. -/
theorem sorted (capped : Capped cap maxInflight led accounts) :
    Capped cap maxInflight { led with inflight := led.inflight.sortKeys } accounts where
  owners := capped.owners
  nonneg := capped.nonneg
  backed := by
    intro account member same outstanding
    rw [Dict.get?_sortKeys]
    exact capped.backed account member same outstanding
  tracked := by
    intro owner reserved present
    rw [Dict.get?_sortKeys] at present
    exact capped.tracked owner reserved present
  spent := capped.spent
  within := by
    intro active
    rw [Dict.sortKeys_length]
    exact capped.within active
  closed := capped.closed

variable {owner : String} {est : ℚ}

/-- Admission into the ledger's own cycle. -/
theorem accept (capped : Capped cap maxInflight led accounts)
    (now : DateTime) (nonneg : 0 ≤ est) (fresh : ∀ account ∈ accounts, account.owner ≠ owner)
    (room : led.usedUnits + est ≤ cap) (slot : led.inflight.length < maxInflight) :
    Capped cap maxInflight
      { led with usedUnits := led.usedUnits + est, inflight := led.inflight.set owner est }
      (⟨owner, now, led.cycleKey, est, true⟩ :: accounts) where
  owners := by
    refine List.nodup_cons.mpr ⟨fun member => ?_, capped.owners⟩
    obtain ⟨account, present, same⟩ := List.mem_map.mp member
    exact fresh account present same
  nonneg := by
    intro account member outstanding
    rcases List.mem_cons.mp member with rfl | member
    · exact nonneg
    · exact capped.nonneg account member outstanding
  backed := by
    intro account member same outstanding
    rcases List.mem_cons.mp member with rfl | member
    · exact Dict.get?_set_same ..
    · show Dict.get? (Dict.set _ _ _) _ = _
      rw [Dict.get?_set_other _ _ (fresh account member)]
      exact capped.backed account member same outstanding
  tracked := by
    intro other reserved present
    rw [Dict.get?_set] at present
    split at present
    · next same => exact ⟨_, List.mem_cons_self, same, rfl, rfl⟩
    · obtain ⟨account, member, tracked⟩ := capped.tracked other reserved present
      exact ⟨account, List.mem_cons_of_mem _ member, tracked⟩
  spent := by
    have spent := capped.spent
    rw [charged_cons, if_pos rfl]
    show est + charged led.cycleKey accounts ≤ led.usedUnits + est
    linarith
  within := fun _ => ⟨room, (Dict.length_set_le ..).trans slot⟩
  closed := by
    intro cycle different
    rw [charged_cons, outstandingCount_cons, if_neg different.symm,
      if_neg fun both => different both.1.symm, zero_add, Nat.zero_add]
    exact capped.closed cycle different

theorem rollOver (capped : Capped cap maxInflight led accounts) {cycle : String}
    (now : DateTime) (capNonneg : 0 ≤ cap) (nonneg : 0 ≤ est)
    (fresh : ∀ account ∈ accounts, account.owner ≠ owner)
    (opens : ∀ account ∈ accounts, account.cycle ≠ cycle) (room : est ≤ cap)
    (slot : 0 < maxInflight) :
    Capped cap maxInflight
      { usedUnits := est, inflight := [(owner, est)], cycleKey := cycle }
      (⟨owner, now, cycle, est, true⟩ :: accounts) where
  owners := by
    refine List.nodup_cons.mpr ⟨fun member => ?_, capped.owners⟩
    obtain ⟨account, present, same⟩ := List.mem_map.mp member
    exact fresh account present same
  nonneg := by
    intro account member outstanding
    rcases List.mem_cons.mp member with rfl | member
    · exact nonneg
    · exact capped.nonneg account member outstanding
  backed := by
    intro account member same outstanding
    rcases List.mem_cons.mp member with rfl | member
    · simp [Dict.get?]
    · exact absurd same (opens account member)
  tracked := by
    intro other reserved present
    simp only [Dict.get?_cons, Dict.get?_nil] at present
    split at present
    · next same => exact ⟨_, List.mem_cons_self, same, rfl, rfl⟩
    · cases present
  spent := by
    rw [charged_cons, if_pos rfl, charged_eq_zero opens, add_zero]
  within := fun _ => ⟨room, slot⟩
  closed := by
    intro other different
    rw [charged_cons, outstandingCount_cons, if_neg different.symm,
      if_neg fun both => different both.1.symm, zero_add, Nat.zero_add]
    exact capped.bounds capNonneg other

/-- Settlement or release of a reservation that the ledger holds. -/
theorem close (capped : Capped cap maxInflight led accounts) {reserved used : ℚ}
    {actual : Option ℚ} (capNonneg : 0 ≤ cap) (held : led.inflight.get? owner = some reserved)
    (bounded : actual.getD reserved ≤ reserved)
    (charges : used = max 0 (led.usedUnits - reserved + actual.getD reserved) ∨
      (actual = none ∧ used = led.usedUnits)) :
    Capped cap maxInflight
      { led with usedUnits := used, inflight := led.inflight.erase owner }
      (accounts.map (closeAccount owner actual)) := by
  obtain ⟨account, member, rfl, current, outstanding⟩ := capped.tracked owner reserved held
  have same : reserved = account.charge := by
    have backed := capped.backed account member current outstanding
    rw [held] at backed
    exact Option.some.inj backed
  have covers : led.usedUnits - reserved + actual.getD reserved ≤ used := by
    rcases charges with rfl | ⟨rfl, rfl⟩
    · exact le_max_right _ _
    · simp
  have shrinks : led.usedUnits ≤ cap → used ≤ cap := by
    intro within
    rcases charges with rfl | ⟨_, rfl⟩
    · exact max_le capNonneg (by linarith)
    · exact within
  constructor
  case owners => simpa [Function.comp_def] using capped.owners
  case nonneg =>
    intro closed closedMember closedOutstanding
    obtain ⟨other, otherMember, rfl⟩ := List.mem_map.mp closedMember
    obtain ⟨kept, stays, _⟩ := closeAccount_outstanding closedOutstanding
    rw [kept]
    exact capped.nonneg other otherMember stays
  case backed =>
    intro closed closedMember sameCycle closedOutstanding
    obtain ⟨other, otherMember, rfl⟩ := List.mem_map.mp closedMember
    obtain ⟨kept, stays, different⟩ := closeAccount_outstanding closedOutstanding
    rw [kept] at sameCycle ⊢
    show Dict.get? (Dict.erase _ _) _ = _
    rw [Dict.get?_erase_other _ different]
    exact capped.backed other otherMember sameCycle stays
  case tracked =>
    intro other otherReserved present
    rw [Dict.get?_erase] at present
    split at present
    · cases present
    · next different =>
        obtain ⟨tracked, trackedMember, rfl, trackedCycle, stays⟩ :=
          capped.tracked other otherReserved present
        have kept : closeAccount account.owner actual tracked = tracked :=
          closeAccount_other fun equal => different equal.symm
        exact ⟨tracked, List.mem_map.mpr ⟨tracked, trackedMember, kept⟩, rfl, trackedCycle, stays⟩
  case spent =>
    have spent := capped.spent
    rw [charged_closeAccount capped.owners member outstanding, if_pos current, ← same]
    show charged led.cycleKey accounts + (actual.getD reserved - reserved) ≤ used
    linarith
  case within =>
    rintro ⟨_, closedMember, sameCycle⟩
    obtain ⟨other, otherMember, rfl⟩ := List.mem_map.mp closedMember
    rw [closeAccount_cycle] at sameCycle
    obtain ⟨usedWithin, slotsWithin⟩ := capped.within ⟨other, otherMember, sameCycle⟩
    exact ⟨shrinks usedWithin, (Dict.length_erase_le ..).trans slotsWithin⟩
  case closed =>
    intro cycle different
    obtain ⟨chargedWithin, countWithin⟩ := capped.closed cycle different
    rw [charged_closeAccount capped.owners member outstanding,
      if_neg fun equal => different (equal.symm.trans current), add_zero]
    exact ⟨chargedWithin, outstandingCount_closeAccount.trans countWithin⟩

end Capped

end CityPods.Compute
