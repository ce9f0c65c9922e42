import CityPods.Media.StreamedBodies
import Mathlib.Data.ENat.Basic

/-! # Assembled ranges

The range loop over any sequence of responses: it ends, and what it assembles is
tiled by the bodies that were received.
-/

namespace CityPods.Media

open Foundation

/-! ## Tilings -/

/-- The bodies of partial responses, one after another, that declare adjacent ranges
of an object of this size from its beginning on. -/
inductive Tiled (server : Nat → TransportError ⊕ Response) (total : Nat) :
    List Nat → List UInt8 → Nat → Prop
  | nil : Tiled server total [] [] 0
  | snoc {requests : List Nat} {bytes : List UInt8} {start last request : Nat} {response : Response} :
      Tiled server total requests bytes start →
      server request = .inr response → response.status = 206 →
      contentRange response.contentRange = some ⟨start, last, some total⟩ →
      start ≤ last → response.failure = none → response.body.length = last + 1 - start →
      Tiled server total (requests ++ [request]) (bytes ++ response.body) (last + 1)

theorem Tiled.length {server : Nat → TransportError ⊕ Response} {total stop : Nat}
    {requests : List Nat} {bytes : List UInt8} (tiled : Tiled server total requests bytes stop) :
    bytes.length = stop := by
  induction tiled with
  | nil => rfl
  | snoc before answered status declared order whole body induction =>
      rw [List.length_append, induction, body]
      omega

/-! ## One request -/

section

variable {environment : Environment} {settings : Settings} {state next : RangeState} {stop : Nat}
  {response : Response}

theorem streamResponse_declared {expected received : Nat}
    {stopAsked : Nat → Bool} {staged : List UInt8}
    (done : streamResponse response (some expected) none none stopAsked = (staged, .ok received)) :
    response.failure = none ∧ staged = response.body ∧ received = response.body.length ∧
      received = expected := by
  rw [streamResponse] at done
  split at done
  · cases (Prod.mk.inj done).2
  · obtain ⟨whole, bytes, count, declared⟩ := streamChunks_declared done
    exact ⟨whole, by rw [bytes, List.nil_append]; rfl, by rw [count, Nat.zero_add]; rfl, declared⟩

variable {total : Nat}

theorem checkRange_ok {last : Nat}
    (accepted : checkRange settings stop state response = .ok (last, total)) :
    contentRange response.contentRange = some ⟨state.start, last, some total⟩ ∧
      state.start ≤ last ∧ last + 1 = min stop total ∧
      (∀ known, state.total = some known → known = total) ∧
      (state.total = none → Within total settings.maxBytes) := by
  rw [checkRange] at accepted
  cases declared : contentRange response.contentRange with
  | none => rw [declared] at accepted; cases accepted
  | some range =>
      obtain ⟨start, last', total'⟩ := range
      rw [declared] at accepted
      cases total' with
      | none => cases accepted
      | some whole =>
          simp only at accepted
          split at accepted
          · cases accepted
          next placed =>
          split at accepted
          · cases accepted
          next capped =>
          split at accepted
          · cases accepted
          next unchanged =>
          split at accepted
          · cases accepted
          next complete =>
          cases accepted
          have here : start = state.start := by
            by_contra elsewhere
            exact placed (.inl elsewhere)
          have order : start ≤ last := by
            by_contra backwards
            exact placed (.inr (Nat.lt_of_not_le backwards))
          refine ⟨by rw [here], here ▸ order, not_not.mp complete, ?_, ?_⟩
          · intro known same
            simpa [same] using unchanged
          · intro unknown
            apply exceeds_eq_false.mp
            simpa [unknown] using capped

theorem sendRange_received (received : sendRange environment settings stop state = .received next) :
    ∃ response last total, environment.server state.requests = .inr response ∧
      response.status = 206 ∧ response.failure = none ∧
      response.body.length = last + 1 - state.start ∧
      checkRange settings stop state response = .ok (last, total) ∧
      next = ⟨state.requests + 1, last + 1, some total, state.output ++ response.body⟩ := by
  rw [sendRange] at received
  cases answered : environment.server state.requests with
  | inl error => cases error <;> simp [answered] at received
  | inr response =>
      simp only [answered] at received
      split at received
      · cases received
      split at received
      · cases received
      split at received
      · cases received
      next status =>
      cases accepted : checkRange settings stop state response with
      | error message => simp [accepted] at received
      | ok range =>
          obtain ⟨last, total⟩ := range
          simp only [accepted] at received
          split at received
          · next staged count streamed =>
            obtain ⟨whole, bytes, length, declared⟩ := streamResponse_declared streamed
            have order := (checkRange_ok accepted).2.1
            have stops : state.start + count = last + 1 := by omega
            cases received
            refine ⟨response, last, total, rfl, not_not.mp status, whole, by omega, accepted, ?_⟩
            rw [bytes, stops]
          · cases received
          · cases received

variable {raised : Raised}

/-- A request that is repeated has appended nothing. -/
theorem sendRange_retry (retry : sendRange environment settings stop state =
    .retry raised next) :
    next = { state with requests := state.requests + 1 } ∨
      ∃ response last total, checkRange settings stop state response = .ok (last, total) ∧
        next = { state with requests := state.requests + 1, total := some total } := by
  rw [sendRange] at retry
  cases answered : environment.server state.requests with
  | inl error =>
      cases error with
      | request =>
          simp only [answered] at retry
          cases retry
          exact .inl rfl
      | other => simp [answered] at retry
  | inr response =>
      simp only [answered] at retry
      split at retry
      · cases retry
      split at retry
      · cases retry
        exact .inl rfl
      split at retry
      · cases retry
      cases accepted : checkRange settings stop state response with
      | error message => simp [accepted] at retry
      | ok range =>
          obtain ⟨last, total⟩ := range
          simp only [accepted] at retry
          split at retry
          · cases retry
          · cases retry
            exact .inr ⟨response, last, total, accepted, rfl⟩
          · cases retry

/-! ## The loop -/

/-- What the range loop keeps true: what is assembled is tiled by responses to
requests that are sent, and stays under the target. -/
structure Assembled (environment : Environment) (settings : Settings) (state : RangeState) : Prop where
  fresh : state.total = none → state.start = 0 ∧ state.output = []
  tiled : ∀ total, state.total = some total → ∃ requests, requests.Pairwise (· < ·) ∧
    (∀ request ∈ requests, request < state.requests) ∧
    Tiled environment.server total requests state.output state.start
  bounded : ∀ total, state.total = some total → state.start ≤ cappedTotal settings total
  capped : ∀ total, state.total = some total → Within total settings.maxBytes

/-- The size of the object, once told, stays. -/
def Remembers (state next : RangeState) : Prop :=
  ∀ known, state.total = some known → next.total = some known

theorem assembled_rangeStart : Assembled environment settings rangeStart :=
  ⟨fun _ => ⟨rfl, rfl⟩, (fun _ known => nomatch known), (fun _ known => nomatch known),
    fun _ known => nomatch known⟩

/-- The responses so far, as those of an object whose size has just been told. -/
theorem Assembled.tiledAs (assembled : Assembled environment settings state)
    (same : ∀ known, state.total = some known → known = total) :
    ∃ requests, requests.Pairwise (· < ·) ∧ (∀ request ∈ requests, request < state.requests) ∧
      Tiled environment.server total requests state.output state.start := by
  cases told : state.total with
  | none =>
      obtain ⟨start, output⟩ := assembled.fresh told
      rw [start, output]
      exact ⟨[], .nil, fun _ absent => absurd absent List.not_mem_nil, .nil⟩
  | some known =>
      rw [← same known told]
      exact assembled.tiled known told

theorem Assembled.cappedAs (assembled : Assembled environment settings state)
    (same : ∀ known, state.total = some known → known = total)
    (cap : state.total = none → Within total settings.maxBytes) : Within total settings.maxBytes := by
  cases told : state.total with
  | none => exact cap told
  | some known =>
      rw [← same known told]
      exact assembled.capped known told

theorem Assembled.boundedAs (assembled : Assembled environment settings state)
    (same : ∀ known, state.total = some known → known = total) :
    state.start ≤ cappedTotal settings total := by
  cases told : state.total with
  | none =>
      rw [(assembled.fresh told).1]
      exact Nat.zero_le _
  | some known =>
      rw [← same known told]
      exact assembled.bounded known told

theorem Assembled.retried (assembled : Assembled environment settings state)
    (retry : sendRange environment settings stop state = .retry raised next) :
    Assembled environment settings next ∧ next.start = state.start ∧ Remembers state next := by
  rcases sendRange_retry retry with same | ⟨response, last, total, accepted, same⟩
  · subst same
    refine ⟨⟨assembled.fresh, fun total known => ?_, assembled.bounded, assembled.capped⟩, rfl,
      fun _ told => told⟩
    obtain ⟨requests, order, sent, tiled⟩ := assembled.tiled total known
    exact ⟨requests, order, fun request member => Nat.lt_succ_of_lt (sent request member), tiled⟩
  · obtain ⟨_, _, _, unchanged, cap⟩ := checkRange_ok accepted
    subst same
    refine ⟨⟨(fun unknown => nomatch unknown), fun known told => ?_, fun known told => ?_,
      fun known told => ?_⟩, rfl, fun known told => congrArg some (unchanged known told).symm⟩
    all_goals
      have whole : total = known := Option.some.inj told
      subst whole
    · obtain ⟨requests, order, sent, tiled⟩ := assembled.tiledAs unchanged
      exact ⟨requests, order, fun request member => Nat.lt_succ_of_lt (sent request member), tiled⟩
    · exact assembled.boundedAs unchanged
    · exact assembled.cappedAs unchanged cap

theorem Assembled.received (assembled : Assembled environment settings state)
    (under : ∀ limit, settings.maxDownloadBytes = some limit → stop ≤ limit)
    (received : sendRange environment settings stop state = .received next) :
    Assembled environment settings next ∧ state.start < next.start ∧ next.total.isSome ∧
      Remembers state next := by
  obtain ⟨response, last, total, answered, status, whole, length, accepted, same⟩ :=
    sendRange_received received
  obtain ⟨declared, order, complete, unchanged, cap⟩ := checkRange_ok accepted
  subst same
  refine ⟨⟨(fun unknown => nomatch unknown), fun known told => ?_, fun known told => ?_,
    fun known told => ?_⟩, Nat.lt_succ_of_le order, rfl,
    fun known told => congrArg some (unchanged known told).symm⟩
  all_goals
    have size : total = known := Option.some.inj told
    subst size
  · obtain ⟨requests, ascending, sent, tiled⟩ := assembled.tiledAs unchanged
    refine ⟨requests ++ [state.requests], ?_, ?_,
      tiled.snoc answered status declared order whole length⟩
    · rw [List.pairwise_append]
      refine ⟨ascending, List.pairwise_singleton _ _, fun request member last inLast => ?_⟩
      rw [List.mem_singleton.mp inLast]
      exact sent request member
    · intro request member
      rcases List.mem_append.mp member with before | now
      · exact Nat.lt_succ_of_lt (sent request before)
      · rw [List.mem_singleton.mp now]
        exact Nat.lt_succ_self _
  · show last + 1 ≤ cappedTotal settings total
    rw [complete, cappedTotal]
    split
    · next limit limited =>
      have bound := under limit limited
      omega
    · exact Nat.min_le_right _ _
  · exact assembled.cappedAs unchanged cap

theorem Assembled.attempted {attempts : Nat} (assembled : Assembled environment settings state)
    (under : ∀ limit, settings.maxDownloadBytes = some limit → stop ≤ limit)
    (done : attemptRange environment settings stop (attempts + 1) state = .ok next) :
    Assembled environment settings next ∧ state.start < next.start ∧ next.total.isSome ∧
      Remembers state next := by
  induction attempts generalizing state with
  | zero =>
      rw [attemptRange] at done
      cases sent : sendRange environment settings stop state with
      | received later =>
          rw [sent] at done
          cases done
          exact assembled.received under sent
      | retry raised later => rw [sent] at done; cases done
      | failed raised later => rw [sent] at done; cases done
  | succ attempts induction =>
      rw [attemptRange] at done
      cases sent : sendRange environment settings stop state with
      | received later =>
          rw [sent] at done
          cases done
          exact assembled.received under sent
      | retry raised later =>
          simp only [sent, Nat.add_eq_zero_iff, one_ne_zero, and_false, if_false] at done
          obtain ⟨kept, same, remembers⟩ := assembled.retried sent
          obtain ⟨later, further, told, remembersLater⟩ := induction kept done
          refine ⟨later, same ▸ further, told, fun known before => ?_⟩
          exact remembersLater known (remembers known before)
      | failed raised later => rw [sent] at done; cases done

theorem Assembled.rangeStop_le (assembled : Assembled environment settings state) {limit : Nat}
    (limited : settings.maxDownloadBytes = some limit) : rangeStop settings state ≤ limit := by
  cases told : state.total with
  | none =>
      have start := (assembled.fresh told).1
      simp only [rangeStop, targetBytes, told, Option.map_none, limited, Option.map_some, start]
      omega
  | some total =>
      have bounded := assembled.bounded total told
      simp only [cappedTotal, limited] at bounded
      simp only [rangeStop, targetBytes, told, Option.map_some, cappedTotal, limited]
      omega

theorem Assembled.passed (assembled : Assembled environment settings state)
    (again : rangePass environment settings state = .inl next) :
    Assembled environment settings next ∧ state.start < next.start ∧ next.total.isSome ∧
      Remembers state next := by
  rw [rangePass] at again
  split at again
  · cases attempted : attemptRange environment settings (rangeStop settings state) rangeAttempts
      state with
    | ok later =>
        rw [attempted] at again
        cases again
        exact assembled.attempted (fun limit limited => assembled.rangeStop_le limited) attempted
    | error failure => rw [attempted] at again; cases again
  · cases again

variable {last : RangeState}

/-- When the loop is left in good order, the target is reached. -/
theorem Assembled.left (assembled : Assembled environment settings state)
    (left : rangePass environment settings state = .inr (.ok last)) :
    last = state ∧ targetBytes settings state = some state.start := by
  rw [rangePass] at left
  split at left
  · cases attempted : attemptRange environment settings (rangeStop settings state) rangeAttempts
      state with
    | ok later => rw [attempted] at left; cases left
    | error failure => rw [attempted] at left; cases left
  · next reached =>
    cases left
    refine ⟨rfl, ?_⟩
    cases told : state.total with
    | none => simp [targetBytes, told] at reached
    | some total =>
        have bounded := assembled.bounded total told
        simp only [targetBytes, told, Option.map_some, Option.all_some, decide_eq_true_eq,
          Nat.not_lt] at reached
        simp only [targetBytes, told, Option.map_some]
        exact congrArg some (Nat.le_antisymm reached bounded)

/-- How much is to be received. -/
def outstanding (settings : Settings) (state : RangeState) : ℕ∞ :=
  match targetBytes settings state with
  | none => ⊤
  | some target => (target - state.start : Nat)

theorem outstanding_lt (assembled : Assembled environment settings state)
    (again : rangePass environment settings state = .inl next) :
    outstanding settings next < outstanding settings state := by
  obtain ⟨kept, further, told, remembers⟩ := assembled.passed again
  obtain ⟨total, known⟩ := Option.isSome_iff_exists.mp told
  have bounded := kept.bounded total known
  cases before : state.total with
  | none =>
      simp only [outstanding, targetBytes, known, before, Option.map_some, Option.map_none]
      exact ENat.natCast_lt_top _
  | some size =>
      have same : total = size := Option.some.inj (known.symm.trans (remembers size before))
      simp only [outstanding, targetBytes, known, before, Option.map_some, same]
      rw [same] at bounded
      exact_mod_cast (by omega :
        cappedTotal settings size - next.start < cappedTotal settings size - state.start)

theorem rangeLoop_ends (environment : Environment) (settings : Settings) :
    ∃ left, Loop.Ends (rangePass environment settings) rangeStart left :=
  Loop.exists_ends (fun _ _ assembled again => (Assembled.passed assembled again).1)
    wellFounded_lt (outstanding settings) (fun _ _ assembled again => outstanding_lt assembled again)
    assembled_rangeStart

theorem rangeLoop_ok (ended : Loop.Ends (rangePass environment settings) rangeStart (.ok last)) :
    Assembled environment settings last ∧ targetBytes settings last = some last.start := by
  obtain ⟨state, assembled, left⟩ := ended.invariant
    (fun _ _ assembled again => (Assembled.passed assembled again).1) assembled_rangeStart
  obtain ⟨same, reached⟩ := assembled.left left
  rw [same]
  exact ⟨assembled, reached⟩

end

end CityPods.Media
