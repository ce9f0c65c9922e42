import CityPods.Foundation.Threads

/-! # The native work gate

Speech recognition runs alone; audio work runs up to a cap, finalizing passes
before first ones, and none begins while speech recognition waits. A thread takes
the lock once to announce itself, once for every attempt, once to give up and once
to release.
-/

namespace CityPods.Media

open Foundation Threads

inductive WorkKind
  | audio
  | audioFinalize
  | asr
  deriving DecidableEq

structure NativeWorkGate where
  maxAudioActive : Int
  audioActive : Int := 0
  audioFinalizeWaiting : Int := 0
  asrActive : Bool := false
  asrWaiting : Int := 0
  deriving DecidableEq

namespace NativeWorkGate

def new (maxAudioActive : Int) : NativeWorkGate where
  maxAudioActive := max 1 maxAudioActive

/-- The counter that is raised before the loop. -/
def announce (gate : NativeWorkGate) : WorkKind → NativeWorkGate
  | .audio => gate
  | .audioFinalize => { gate with audioFinalizeWaiting := gate.audioFinalizeWaiting + 1 }
  | .asr => { gate with asrWaiting := gate.asrWaiting + 1 }

def admits (gate : NativeWorkGate) : WorkKind → Bool
  | .asr => !gate.asrActive && decide (gate.audioActive = 0)
  | kind =>
      let finalizeBlock := decide (kind ≠ .audioFinalize) && decide (gate.audioFinalizeWaiting > 0)
      !gate.asrActive && decide (gate.asrWaiting = 0) && !finalizeBlock &&
        decide (gate.audioActive < gate.maxAudioActive)

/-- The gate after an attempt that succeeds. -/
def enter (gate : NativeWorkGate) : WorkKind → NativeWorkGate
  | .audio => { gate with audioActive := gate.audioActive + 1 }
  | .audioFinalize =>
      { gate with
        audioActive := gate.audioActive + 1
        audioFinalizeWaiting := gate.audioFinalizeWaiting - 1 }
  | .asr => { gate with asrWaiting := gate.asrWaiting - 1, asrActive := true }

/-- The `finally` clause of a call that gives up. -/
def leave (gate : NativeWorkGate) : WorkKind → NativeWorkGate
  | .audio => gate
  | .audioFinalize =>
      { gate with audioFinalizeWaiting := max 0 (gate.audioFinalizeWaiting - 1) }
  | .asr => if gate.asrWaiting > 0 then { gate with asrWaiting := gate.asrWaiting - 1 } else gate

/-- Nothing, where the release raises. -/
def release (gate : NativeWorkGate) : WorkKind → Option NativeWorkGate
  | .asr => if gate.asrActive then some { gate with asrActive := false } else none
  | _ =>
      if gate.audioActive ≤ 0 then none
      else some { gate with audioActive := gate.audioActive - 1 }

end NativeWorkGate

/-! ## Threads -/

inductive Phase
  | idle
  /-- At the top of the loop, before `stop` is asked. -/
  | polling (kind : WorkKind)
  | trying (kind : WorkKind)
  /-- In `wait`, which has given the lock back. -/
  | blocked (kind : WorkKind)
  | leaving (kind : WorkKind)
  | holding (kind : WorkKind)
  deriving DecidableEq

inductive GateAction
  | acquire (kind : WorkKind)
  /-- `stop` answers, or raises like a call that is to stop. -/
  | stop (fired : Bool)
  | attempt
  /-- Notified, timed out, or interrupted. -/
  | wake (interrupted : Bool)
  | leave
  | release
  deriving DecidableEq

def nativeWork : ThreadSystem NativeWorkGate Phase GateAction where
  step gate phase action :=
    match phase, action with
    | .idle, .acquire kind => some (gate.announce kind, .polling kind)
    | .polling kind, .stop fired => some (gate, if fired then .leaving kind else .trying kind)
    | .trying kind, .attempt =>
        if gate.admits kind then some (gate.enter kind, .holding kind) else some (gate, .blocked kind)
    | .blocked kind, .wake interrupted =>
        some (gate, if interrupted then .leaving kind else .polling kind)
    | .leaving kind, .leave => some (gate.leave kind, .idle)
    | .holding kind, .release => (gate.release kind).map fun released => (released, .idle)
    | _, _ => none

/-- Between the announcement and the end of a call: the phases in which the counter
stays raised. -/
def Phase.waitsFor (kind : WorkKind) : Phase → Bool
  | .polling other => other = kind
  | .trying other => other = kind
  | .blocked other => other = kind
  | .leaving other => other = kind
  | _ => false

def Phase.holdsAudio : Phase → Bool
  | .holding kind => kind ≠ .asr
  | _ => false

def Phase.holdsAsr : Phase → Bool
  | .holding kind => kind = .asr
  | _ => false

def idleThreads (maxAudioActive : Int) (threads : Nat) : Config NativeWorkGate Phase :=
  ⟨.new maxAudioActive, List.replicate threads .idle⟩

/-! ## One step -/

inductive Steps (gate : NativeWorkGate) : Phase → GateAction → NativeWorkGate → Phase → Prop
  | acquire (kind : WorkKind) : Steps gate .idle (.acquire kind) (gate.announce kind) (.polling kind)
  | goOn (kind : WorkKind) : Steps gate (.polling kind) (.stop false) gate (.trying kind)
  | giveUp (kind : WorkKind) : Steps gate (.polling kind) (.stop true) gate (.leaving kind)
  | enter (kind : WorkKind) (admitted : gate.admits kind = true) :
      Steps gate (.trying kind) .attempt (gate.enter kind) (.holding kind)
  | block (kind : WorkKind) (refused : gate.admits kind = false) :
      Steps gate (.trying kind) .attempt gate (.blocked kind)
  | wake (kind : WorkKind) : Steps gate (.blocked kind) (.wake false) gate (.polling kind)
  | interrupt (kind : WorkKind) : Steps gate (.blocked kind) (.wake true) gate (.leaving kind)
  | leave (kind : WorkKind) : Steps gate (.leaving kind) .leave (gate.leave kind) .idle
  | release (kind : WorkKind) {released : NativeWorkGate}
      (ends : gate.release kind = some released) :
      Steps gate (.holding kind) .release released .idle

variable {gate after : NativeWorkGate} {phase next : Phase} {action : GateAction}

theorem steps_of_step (stepped : nativeWork.step gate phase action = some (after, next)) :
    Steps gate phase action after next := by
  simp only [nativeWork] at stepped
  split at stepped
  · cases stepped
    exact .acquire _
  · next kind fired =>
    cases stepped
    cases fired with
    | false => exact .goOn kind
    | true => exact .giveUp kind
  · next kind =>
    split at stepped
    · next admitted =>
      cases stepped
      exact .enter kind admitted
    · next refused =>
      cases stepped
      exact .block kind (Bool.eq_false_iff.mpr refused)
  · next kind interrupted =>
    cases stepped
    cases interrupted with
    | false => exact .wake kind
    | true => exact .interrupt kind
  · cases stepped
    exact .leave _
  · next kind =>
    obtain ⟨released, ends, same⟩ := Option.map_eq_some_iff.mp stepped
    cases same
    exact .release kind ends
  · cases stepped

theorem Steps.cap
    (steps : Steps gate phase action after next) : after.maxAudioActive = gate.maxAudioActive := by
  cases steps with
  | acquire kind => cases kind <;> rfl
  | enter kind admitted => cases kind <;> rfl
  | leave kind =>
      cases kind with
      | asr =>
          rw [NativeWorkGate.leave]
          split <;> rfl
      | _ => rfl
  | release kind ends =>
      unfold NativeWorkGate.release at ends
      split at ends
      · obtain ⟨_, same⟩ := Option.ite_none_right_eq_some.mp ends
        rw [← Option.some.inj same]
      · obtain ⟨_, same⟩ := Option.ite_none_left_eq_some.mp ends
        rw [← Option.some.inj same]
  | _ => rfl

variable {maxAudioActive : Int} {threads : Nat} {config : Config NativeWorkGate Phase}

theorem cap_of_reachable
    (reachable : Reachable nativeWork (idleThreads maxAudioActive threads) config) :
    config.shared.maxAudioActive = max 1 maxAudioActive :=
  reachable.invariant (fun config => config.shared.maxAudioActive = max 1 maxAudioActive) rfl
    fun same moves => (steps_of_step moves.stepped).cap.trans same

/-! ## The invariant -/

/-- The counters agree with the numbers of threads that hold and that wait. -/
structure Tallied (gate : NativeWorkGate) (audio asr finalizers waiters : Nat) : Prop where
  positive : 1 ≤ gate.maxAudioActive
  audioActive : gate.audioActive = audio
  asrActive : asr = if gate.asrActive then 1 else 0
  finalizeWaiting : gate.audioFinalizeWaiting = finalizers
  asrWaiting : gate.asrWaiting = waiters
  apart : gate.asrActive = true → gate.audioActive = 0
  bounded : gate.audioActive ≤ gate.maxAudioActive

abbrev Coherent (config : Config NativeWorkGate Phase) : Prop :=
  Tallied config.shared (config.count Phase.holdsAudio) (config.count Phase.holdsAsr)
    (config.count (Phase.waitsFor .audioFinalize)) (config.count (Phase.waitsFor .asr))

theorem coherent_idle (maxAudioActive : Int) (threads : Nat) :
    Coherent (idleThreads maxAudioActive threads) := by
  have none (holds : Phase → Bool) (idle : holds .idle = false) :
      (idleThreads maxAudioActive threads).count holds = 0 := by
    refine Config.count_eq_zero.mpr fun thread member => ?_
    rw [List.eq_of_mem_replicate member]
    exact idle
  have positive : 1 ≤ max 1 maxAudioActive := Int.le_max_left ..
  rw [Coherent, none _ rfl, none _ rfl, none _ rfl, none _ rfl]
  exact ⟨positive, rfl, rfl, rfl, rfl, fun _ => rfl, Int.le_trans Int.one_nonneg positive⟩

section

variable {gate released : NativeWorkGate} {audio asr finalizers waiters : Nat}

theorem Tallied.announce (tallied : Tallied gate audio asr finalizers waiters) (kind : WorkKind) :
    Tallied (gate.announce kind) audio asr (finalizers + if kind = .audioFinalize then 1 else 0)
      (waiters + if kind = .asr then 1 else 0) := by
  obtain ⟨positive, audioActive, asrActive, finalizeWaiting, asrWaiting, apart, bounded⟩ := tallied
  cases kind with
  | audio => exact ⟨positive, audioActive, asrActive, finalizeWaiting, asrWaiting, apart, bounded⟩
  | audioFinalize =>
      refine ⟨positive, audioActive, asrActive, ?_, asrWaiting, apart, bounded⟩
      simp [NativeWorkGate.announce, finalizeWaiting]
  | asr =>
      refine ⟨positive, audioActive, asrActive, finalizeWaiting, ?_, apart, bounded⟩
      simp [NativeWorkGate.announce, asrWaiting]

/-- A call that gives up takes its own announcement back. -/
theorem Tallied.leave {kind : WorkKind}
    (tallied : Tallied gate audio asr (finalizers + if kind = .audioFinalize then 1 else 0)
      (waiters + if kind = .asr then 1 else 0)) :
    Tallied (gate.leave kind) audio asr finalizers waiters := by
  obtain ⟨positive, audioActive, asrActive, finalizeWaiting, asrWaiting, apart, bounded⟩ := tallied
  cases kind with
  | audio => exact ⟨positive, audioActive, asrActive, finalizeWaiting, asrWaiting, apart, bounded⟩
  | audioFinalize =>
      refine ⟨positive, audioActive, asrActive, ?_, asrWaiting, apart, bounded⟩
      simp only [if_true] at finalizeWaiting
      simp only [NativeWorkGate.leave]
      omega
  | asr =>
      simp only [if_true] at asrWaiting
      rw [NativeWorkGate.leave, if_pos (by omega)]
      exact ⟨positive, audioActive, asrActive, finalizeWaiting, by dsimp only; omega, apart, bounded⟩

/-- An attempt that is admitted keeps audio work within its cap, and apart from
speech recognition. -/
theorem Tallied.enter {kind : WorkKind}
    (tallied : Tallied gate audio asr (finalizers + if kind = .audioFinalize then 1 else 0)
      (waiters + if kind = .asr then 1 else 0)) (admitted : gate.admits kind = true) :
    Tallied (gate.enter kind) (audio + if ¬ kind = .asr then 1 else 0)
      (asr + if kind = .asr then 1 else 0) finalizers waiters := by
  obtain ⟨positive, audioActive, asrActive, finalizeWaiting, asrWaiting, apart, bounded⟩ := tallied
  cases kind with
  | audio =>
      simp only [NativeWorkGate.admits, Bool.and_eq_true, Bool.not_eq_true', decide_eq_true_eq] at admitted
      obtain ⟨⟨⟨inactive, _⟩, _⟩, room⟩ := admitted
      refine ⟨positive, ?_, asrActive, finalizeWaiting, asrWaiting, ?_, ?_⟩
      · simp [NativeWorkGate.enter, audioActive]
      · exact fun active => absurd (inactive.symm.trans active) Bool.false_ne_true
      · simp only [NativeWorkGate.enter]
        omega
  | audioFinalize =>
      simp only [NativeWorkGate.admits, Bool.and_eq_true, Bool.not_eq_true', decide_eq_true_eq] at admitted
      obtain ⟨⟨⟨inactive, _⟩, _⟩, room⟩ := admitted
      simp only [if_true] at finalizeWaiting
      refine ⟨positive, ?_, asrActive, ?_, asrWaiting, ?_, ?_⟩
      · simp [NativeWorkGate.enter, audioActive]
      · simp only [NativeWorkGate.enter]
        omega
      · exact fun active => absurd (inactive.symm.trans active) Bool.false_ne_true
      · simp only [NativeWorkGate.enter]
        omega
  | asr =>
      simp only [NativeWorkGate.admits, Bool.and_eq_true, Bool.not_eq_true', decide_eq_true_eq] at admitted
      obtain ⟨inactive, quiet⟩ := admitted
      simp only [if_true] at asrWaiting
      refine ⟨positive, audioActive, ?_, finalizeWaiting, ?_, fun _ => quiet, bounded⟩
      · rw [asrActive, inactive]
        rfl
      · simp only [NativeWorkGate.enter]
        omega

/-- A holder can release. -/
theorem Tallied.release {kind : WorkKind}
    (tallied : Tallied gate (audio + if ¬ kind = .asr then 1 else 0)
      (asr + if kind = .asr then 1 else 0) finalizers waiters) :
    ∃ released, gate.release kind = some released ∧
      Tallied released audio asr finalizers waiters := by
  obtain ⟨positive, audioActive, asrActive, finalizeWaiting, asrWaiting, apart, bounded⟩ := tallied
  by_cases kindAsr : kind = .asr
  · subst kindAsr
    have active : gate.asrActive = true := by
      by_contra inactive
      rw [if_neg inactive, if_pos rfl] at asrActive
      omega
    rw [active, if_pos rfl, if_pos rfl] at asrActive
    have none : asr = 0 := by omega
    exact ⟨_, if_pos active, positive, audioActive, none, finalizeWaiting, asrWaiting,
      fun _ => apart active, bounded⟩
  · rw [if_pos kindAsr] at audioActive
    rw [if_neg kindAsr] at asrActive
    have released : gate.release kind = some { gate with audioActive := gate.audioActive - 1 } := by
      cases kind with
      | asr => exact absurd rfl kindAsr
      | audio => exact if_neg (by omega)
      | audioFinalize => exact if_neg (by omega)
    refine ⟨_, released, positive, ?_, asrActive, finalizeWaiting, asrWaiting, ?_, ?_⟩
    · dsimp only
      omega
    · intro active
      have quiet := apart active
      omega
    · dsimp only
      omega

end

theorem Coherent.step {next : Config NativeWorkGate Phase}
    {before after : Phase} (coherent : Coherent config)
    (moves : Moves nativeWork config action before after next) : Coherent next := by
  have audio := moves.count Phase.holdsAudio
  have asr := moves.count Phase.holdsAsr
  have finalizers := moves.count (Phase.waitsFor .audioFinalize)
  have waiters := moves.count (Phase.waitsFor .asr)
  have steps := steps_of_step moves.stepped
  obtain ⟨gate, threads⟩ := next
  dsimp only at steps
  unfold Coherent at coherent ⊢
  cases steps <;>
    simp only [Phase.holdsAudio, Phase.holdsAsr, Phase.waitsFor, Bool.false_eq_true, if_false,
      Nat.add_zero, decide_eq_true_eq, ne_eq, decide_not, Bool.not_eq_true', decide_eq_false_iff_not,
      Nat.add_right_cancel_iff] at audio asr finalizers waiters
  case acquire kind =>
      rw [audio, asr, finalizers, waiters]
      exact coherent.announce kind
  case enter kind admitted =>
      rw [← finalizers, ← waiters] at coherent
      rw [audio, asr]
      exact coherent.enter admitted
  case leave kind =>
      rw [← finalizers, ← waiters] at coherent
      rw [audio, asr]
      exact coherent.leave
  case release kind ends =>
      rw [← audio, ← asr] at coherent
      obtain ⟨released, same, tallied⟩ := coherent.release
      rw [ends] at same
      cases same
      rw [finalizers, waiters]
      exact tallied
  all_goals
    rw [audio, asr, finalizers, waiters]
    exact coherent

theorem coherent_of_reachable
    (reachable : Reachable nativeWork (idleThreads maxAudioActive threads) config) :
    Coherent config :=
  reachable.invariant Coherent (coherent_idle maxAudioActive threads) Coherent.step

/-! ## The result -/

section

variable {config : Config NativeWorkGate Phase}

theorem Coherent.waiting_iff (coherent : Coherent config) :
    config.shared.asrWaiting = 0 ↔ ∀ thread ∈ config.threads, thread.waitsFor .asr = false := by
  rw [coherent.asrWaiting, ← Config.count_eq_zero]
  omega

theorem Coherent.finalizing_iff (coherent : Coherent config) :
    config.shared.audioFinalizeWaiting ≤ 0 ↔
      ∀ thread ∈ config.threads, thread.waitsFor .audioFinalize = false := by
  rw [coherent.finalizeWaiting, ← Config.count_eq_zero]
  omega

theorem Coherent.holder (coherent : Coherent config)
    (busy : config.shared.asrActive = true ∨ 0 < config.shared.audioActive) :
    ∃ kind, Phase.holding kind ∈ config.threads := by
  rcases busy with active | audible
  · have held : 0 < config.count Phase.holdsAsr := by
      rw [coherent.asrActive, active]
      exact Nat.one_pos
    obtain ⟨thread, member, holds⟩ := Config.count_pos.mp held
    cases thread with
    | holding kind => exact ⟨kind, member⟩
    | _ => cases holds
  · rw [coherent.audioActive] at audible
    obtain ⟨thread, member, holds⟩ := Config.count_pos.mp (Int.natCast_pos.mp audible)
    cases thread with
    | holding kind => exact ⟨kind, member⟩
    | _ => cases holds

/-- Speech recognition is refused only while somebody holds the gate, a finalizing
pass also while speech recognition waits, and a first pass also while a finalizing
pass waits. -/
theorem Coherent.admissible (coherent : Coherent config)
    (waiting : ∃ kind, ∃ thread ∈ config.threads, thread.waitsFor kind = true) :
    (∃ kind, Phase.holding kind ∈ config.threads) ∨
      ∃ kind, (∃ thread ∈ config.threads, thread.waitsFor kind = true) ∧
        config.shared.admits kind = true := by
  by_cases busy : config.shared.asrActive = true ∨ 0 < config.shared.audioActive
  · exact .inl (coherent.holder busy)
  · right
    obtain ⟨inactive, silent⟩ := not_or.mp busy
    rw [Bool.not_eq_true] at inactive
    have quiet : config.shared.audioActive = 0 := by
      have counted := coherent.audioActive
      omega
    have room : config.shared.audioActive < config.shared.maxAudioActive := by
      have positive := coherent.positive
      omega
    by_cases asr : ∃ thread ∈ config.threads, thread.waitsFor .asr = true
    · exact ⟨.asr, asr, by simp [NativeWorkGate.admits, inactive, quiet]⟩
    · have none : config.shared.asrWaiting = 0 := by
        refine coherent.waiting_iff.mpr fun thread member => ?_
        exact Bool.eq_false_iff.mpr fun waits => asr ⟨thread, member, waits⟩
      by_cases finalize : ∃ thread ∈ config.threads, thread.waitsFor .audioFinalize = true
      · exact ⟨.audioFinalize, finalize, by simp [NativeWorkGate.admits, inactive, none, room]⟩
      · have still : config.shared.audioFinalizeWaiting ≤ 0 := by
          refine coherent.finalizing_iff.mpr fun thread member => ?_
          exact Bool.eq_false_iff.mpr fun waits => finalize ⟨thread, member, waits⟩
        obtain ⟨kind, waiter⟩ := waiting
        cases kind with
        | audio => exact ⟨.audio, waiter, by simp [NativeWorkGate.admits, inactive, none, still, room]⟩
        | audioFinalize => exact absurd waiter finalize
        | asr => exact absurd waiter asr

end

structure Gated (maxAudioActive : Int) (config : Config NativeWorkGate Phase) : Prop where
  asr_alone : config.shared.asrActive = true → config.shared.audioActive = 0
  audio_capped : config.shared.audioActive ≤ max 1 maxAudioActive
  audio_held : config.shared.audioActive = config.count Phase.holdsAudio
  one_asr : config.count Phase.holdsAsr ≤ 1
  asr_waiting : config.shared.asrWaiting = config.count (Phase.waitsFor .asr)
  finalize_waiting : config.shared.audioFinalizeWaiting =
    config.count (Phase.waitsFor .audioFinalize)
  priority : ∀ kind next, Moves nativeWork config .attempt (.trying kind) (.holding kind) next →
    (kind ≠ .asr → ∀ thread ∈ config.threads, thread.waitsFor .asr = false) ∧
      (kind = .audio → ∀ thread ∈ config.threads, thread.waitsFor .audioFinalize = false)
  progress : (∃ kind, ∃ thread ∈ config.threads, thread.waitsFor kind = true) →
    (∃ kind, Phase.holding kind ∈ config.threads) ∨
      ∃ kind, (∃ thread ∈ config.threads, thread.waitsFor kind = true) ∧
        config.shared.admits kind = true
  releases : ∀ kind, Phase.holding kind ∈ config.threads →
    (config.shared.release kind).isSome = true

variable {kind : WorkKind}

theorem admits_of_moves {next : Config NativeWorkGate Phase}
    (moves : Moves nativeWork config .attempt (.trying kind) (.holding kind) next) :
    config.shared.admits kind = true := by
  have steps := steps_of_step moves.stepped
  generalize next.shared = after at steps
  cases steps with
  | enter kind admitted => exact admitted

theorem Coherent.releases (coherent : Coherent config)
    (member : Phase.holding kind ∈ config.threads) :
    (config.shared.release kind).isSome = true := by
  obtain ⟨audio, audioHeld⟩ := Config.count_of_mem Phase.holdsAudio member
  obtain ⟨asr, asrHeld⟩ := Config.count_of_mem Phase.holdsAsr member
  simp only [Phase.holdsAudio, Phase.holdsAsr, decide_eq_true_eq, ne_eq] at audioHeld asrHeld
  rw [Coherent, audioHeld, asrHeld] at coherent
  obtain ⟨released, same, _⟩ := coherent.release
  rw [same]
  rfl

theorem native_work_gated (maxAudioActive : Int) (threads : Nat)
    {config : Config NativeWorkGate Phase}
    (reachable : Reachable nativeWork (idleThreads maxAudioActive threads) config) :
    Gated maxAudioActive config := by
  have coherent := coherent_of_reachable reachable
  exact
    { asr_alone := coherent.apart
      audio_capped := cap_of_reachable reachable ▸ coherent.bounded
      audio_held := coherent.audioActive
      one_asr := by
        rw [coherent.asrActive]
        split <;> omega
      asr_waiting := coherent.asrWaiting
      finalize_waiting := coherent.finalizeWaiting
      priority := by
        intro kind next moves
        have admitted := admits_of_moves moves
        refine ⟨fun other => coherent.waiting_iff.mp ?_, fun first => coherent.finalizing_iff.mp ?_⟩
        · cases kind with
          | asr => exact absurd rfl other
          | _ =>
              simp only [NativeWorkGate.admits, Bool.and_eq_true, decide_eq_true_eq] at admitted
              exact admitted.1.1.2
        · subst first
          simp [NativeWorkGate.admits] at admitted
          exact admitted.1.2
      progress := coherent.admissible
      releases := fun kind => coherent.releases }

/-- A first pass holds the gate; speech recognition and another first pass wait. -/
def asrAfterAudio : List (Nat × GateAction) :=
  [(0, .acquire .audio), (0, .stop false), (0, .attempt), (1, .acquire .asr), (1, .stop false),
    (1, .attempt), (2, .acquire .audio), (2, .stop false), (2, .attempt), (0, .release)]

theorem native_work_gated_waiting : ∃ config : Config NativeWorkGate Phase,
    config.threads = [.idle, .blocked .asr, .blocked .audio] ∧ Gated 1 config := by
  obtain ⟨config, executed, waiting⟩ : ∃ config,
      execute nativeWork (idleThreads 1 3) asrAfterAudio = some config ∧
        config.threads = [.idle, .blocked .asr, .blocked .audio] := ⟨_, rfl, rfl⟩
  exact ⟨config, waiting, native_work_gated 1 3 (Reachable.of_execute executed)⟩

end CityPods.Media
