import CityPods.Foundation.Outcomes
import CityPods.Intake.StatusNotices
import Mathlib.Data.List.Induction

/-! # Which notices are sent

A comparison with `NULL` is not true, so that a call never claims the column of a
new row. Once a column holds a key, a call sends exactly the notices that differ
from the last one delivered.
-/

namespace CityPods.Intake

open Foundation

/-! ## Calls one after the other -/

/-- A call that runs by itself, with the database at work. -/
def conduct (env : NoticeEnv) (state : NoticeState) (call : StatusCall) (delivery : Fate) :
    NoticeState :=
  match (handoffStatus env call.channel call.input).alone noticeWorld ⟨.replies, delivery⟩ state with
  | some ended => ended.2
  | none => state

def conductAll (env : NoticeEnv) (state : NoticeState) (calls : List (StatusCall × Fate)) :
    NoticeState :=
  calls.foldl (fun state call => conduct env state call.1 call.2) state

def lastDelivered (channel : NoticeChannel) (stored : Option String) (sends : List Notice) :
    Option String :=
  sends.foldl (fun last notice =>
    if notice.channel = channel ∧ notice.succeeded then some notice.key else last) stored

def StatusCall.About (call : StatusCall) (channel : NoticeChannel) (issueNumber : Int)
    (update : StatusUpdate) : Prop :=
  call.channel = channel ∧ readStatus call.input = some update ∧ update.issueNumber = issueNumber

def DeliversOnce (env : NoticeEnv) (channel : NoticeChannel) (origin : RequestOrigin)
    (calls : List (StatusCall × Fate)) : Prop :=
  ∀ earlier call delivery later update, calls = earlier ++ (call, delivery) :: later →
    call.About channel origin.issueNumber update →
      let before := conductAll env ⟨some origin, []⟩ earlier
      (∃ succeeded, (conduct env before call delivery).sends =
          before.sends ++ [⟨channel, update.key, succeeded⟩]) ↔
        lastDelivered channel (origin.notificationKey channel) before.sends ≠ some update.key

/-- The column holds a key, not a claim. -/
def SettledKey (value : String) : Prop := value ≠ "" ∧ ¬ Sql.Holds (Sql.likeStart "pending:" (some value))

/-! ## Keys and columns -/

namespace RequestOrigin

variable (origin : RequestOrigin) (value : Option String) {channel other : NoticeChannel}

@[simp] theorem issueNumber_set : (origin.setNotificationKey value channel).issueNumber =
    origin.issueNumber := by
  cases channel <;> rfl

@[simp] theorem notificationKey_set_same :
    (origin.setNotificationKey value channel).notificationKey channel = value := by
  cases channel <;> rfl

theorem notificationKey_set_other (different : other ≠ channel) :
    (origin.setNotificationKey value channel).notificationKey other = origin.notificationKey other := by
  cases channel <;> cases other <;> first | rfl | exact absurd rfl different

@[simp] theorem setNotificationKey_twice (again : Option String) :
    (origin.setNotificationKey value channel).setNotificationKey again channel =
      origin.setNotificationKey again channel := by
  cases channel <;> rfl

@[simp] theorem notifies_set (env : NoticeEnv) :
    env.notifies (origin.setNotificationKey value channel) other = env.notifies origin other := by
  cases channel <;> cases other <;> rfl

end RequestOrigin

theorem hexDigit_ne_p (n : Nat) : (hexDigit n).toLower ≠ 'p' := by
  have digits : ∀ digit < 16, ("0123456789abcdef".toList.getD digit '0').toLower ≠ 'p' := by decide
  exact digits (n % 16) (Nat.mod_lt n (by decide))

/-- A digest is not taken for a claim. -/
theorem settled_key (update : StatusUpdate) : SettledKey update.key := by
  obtain ⟨first, rest, digits⟩ : ∃ n rest, update.key.toList = hexDigit n :: rest :=
    ⟨_, _, String.toList_ofList⟩
  constructor
  · intro empty
    rw [empty] at digits
    cases digits
  · simp only [Sql.Holds, Sql.likeStart, Option.map_some, Option.some.injEq, digits, List.map_cons,
      Bool.not_eq_true]
    have start : "pending:".toList.map Char.toLower = 'p' :: "ending:".toList := by decide
    rw [start, List.isPrefixOf]
    simp only [Bool.and_eq_false_imp, beq_iff_eq]
    intro same
    exact absurd same.symm (hexDigit_ne_p first)

/-- Neither a new column nor a claim nor the key itself is free for a notice. -/
theorem claimable_iff (column : Option String) (key : String) :
    Sql.Holds (claimable column key) ↔
      ∃ value, column = some value ∧ ¬ Sql.Holds (Sql.likeStart "pending:" column) ∧ value ≠ key := by
  cases column with
  | none => simp [claimable]
  | some value => simp [claimable]

/-! ## A new row -/

theorem noticeWorld_answer {state after : NoticeState} {op : NoticeOp} {choice : NoticeChoice}
    {reply : Option op.Value} (answered : noticeWorld.answer state op choice = some (reply, after)) :
    (after = state ∨ after = (state.perform choice.delivery op).2) ∧
      (reply = none ∨ reply = some (state.perform choice.delivery op).1) := by
  simp only [noticeWorld] at answered
  split at answered <;> cases answered
  · exact ⟨.inr rfl, .inr rfl⟩
  · split
    · exact ⟨.inr rfl, .inl rfl⟩
    · exact ⟨.inl rfl, .inl rfl⟩
  · exact ⟨.inr rfl, .inl rfl⟩

section

variable {env : NoticeEnv} {origin : RequestOrigin} {channel : NoticeChannel}
  {update : StatusUpdate} {state : NoticeState} {issueNumber : Int}

theorem update_eq_none {clause : Option String → Sql.Truth} {value : Option String}
    (stored : state.origin = some origin)
    (misses : ¬ Sql.Holds (clause (origin.notificationKey channel))) :
    state.update channel issueNumber clause value = none := by
  rw [NoticeState.update, stored, Option.bind_some, if_neg fun both => misses both.2]

/-- Neither `NULL != …` nor its conjunction with anything is true. -/
theorem notifyChannel_leaves (stored : state.origin = some origin)
    (new : origin.notificationKey channel = none) :
    (notifyChannel channel origin update).Leaves noticeWorld state := by
  have unclaimed : state.update channel update.issueNumber (claimable · update.key)
      (some (pendingKey update.key)) = none := by
    refine update_eq_none stored ?_
    rw [claimable_iff, new]
    rintro ⟨_, column, _⟩
    cases column
  have performs (delivery : Fate) : state.perform delivery (.claimNotice channel update.issueNumber
      (pendingKey update.key) update.key) = (false, state) := by
    simp only [NoticeState.perform, unclaimed]
    rfl
  rw [notifyChannel, new, if_neg (by simp)]
  intro choice reply after answered
  obtain ⟨left, replied⟩ := noticeWorld_answer answered
  rw [performs] at left replied
  refine ⟨left.elim id id, ?_⟩
  rcases replied with rfl | rfl <;> trivial

theorem handoffStatus_leaves (stored : state.origin = some origin) (input : Option StatusPayload)
    (idle : ∀ update, readStatus input = some update → update.issueNumber = origin.issueNumber →
      (notifyChannel channel origin update).Leaves noticeWorld state) :
    (handoffStatus env channel input).Leaves noticeWorld state := by
  rw [handoffStatus]
  split
  · trivial
  · next update read =>
    intro choice reply after answered
    obtain ⟨left, replied⟩ := noticeWorld_answer answered
    refine ⟨left.elim id id, ?_⟩
    rcases replied with rfl | rfl
    · trivial
    · rw [NoticeState.perform, stored, Option.filter_some]
      split
      · next found =>
        simp only [orThrow, notifyConfigured]
        split
        · exact idle update read (of_decide_eq_true found).symm
        · trivial
      · trivial

variable {call : StatusCall}

theorem conduct_idle (stored : state.origin = some origin)
    (idle : ∀ update, readStatus call.input = some update → update.issueNumber = origin.issueNumber →
      (notifyChannel call.channel origin update).Leaves noticeWorld state) (delivery : Fate) :
    conduct env state call delivery = state := by
  rw [conduct]
  split
  · next ended ran => exact (handoffStatus_leaves stored call.input idle).alone ran
  · rfl

/-! ## A column that holds a key -/

variable {row : RequestOrigin} {pending : String}

theorem settles (claimed : state.origin = some row) (about : issueNumber = row.issueNumber)
    (held : row.notificationKey channel = some pending) (delivery : Fate) (value : Option String) :
    noticeWorld.answer state (.settleNotice channel issueNumber value pending) ⟨.replies, delivery⟩ =
      some (some (), { state with origin := some (row.setNotificationKey value channel) }) := by
  have found : state.update channel issueNumber (Sql.eq · (some pending)) value =
      some (row.setNotificationKey value channel) := by
    rw [NoticeState.update, claimed, Option.bind_some, if_pos]
    exact ⟨about.symm, by simp [held]⟩
  simp only [noticeWorld, NoticeChoice.fate, NoticeOp.sends, Bool.false_eq_true, if_false,
    NoticeState.perform, found]
  rfl

variable {value : String}

/-- Either the notice went out and its key is stored, or the column gets its value back. -/
theorem sendClaimed_alone
    (claimed : state.origin = some row) (held : row.notificationKey channel = some pending)
    (about : update.issueNumber = row.issueNumber)
    (read : origin.notificationKey channel = some value) (present : value ≠ "") (key : String)
    (delivery : Fate) :
    ∃ response, (sendClaimed channel origin update key pending).alone noticeWorld
        ⟨.replies, delivery⟩ state = some (response,
      ⟨some (row.setNotificationKey (some (if delivery = .replies then key else value)) channel),
        state.sends ++ [⟨channel, key, delivery = .replies⟩]⟩) := by
  let sent : NoticeState := { state with sends := state.sends ++ [⟨channel, key, delivery = .replies⟩] }
  have carried : sent.origin = some row := claimed
  have settled (value : Option String) := settles carried about held delivery value
  by_cases replies : delivery = .replies
  · have answered : noticeWorld.answer state (.sendNotice channel update key) ⟨.replies, delivery⟩ =
        some (some (), sent) := by
      subst replies
      rfl
    refine ⟨.returned, ?_⟩
    rw [if_pos replies]
    exact (Task.alone_answered answered).trans (Task.alone_answered (settled (some key)))
  · have answered : noticeWorld.answer state (.sendNotice channel update key) ⟨.replies, delivery⟩ =
        some (none, sent) := by
      cases delivery with
      | replies => exact absurd rfl replies
      | refused => rfl
      | lost => rfl
    have kept : (origin.notificationKey channel).filter (· ≠ "") = some value := by
      rw [read, Option.filter_some, if_pos (by simpa using present)]
    refine ⟨.thrown, ?_⟩
    rw [if_neg replies]
    refine (Task.alone_answered answered).trans ?_
    dsimp only
    rw [rollBack, kept]
    exact Task.alone_answered (settled (some value))

theorem conduct_sends (stored : state.origin = some origin)
    (about : call.About channel origin.issueNumber update)
    (configured : env.notifies origin channel = true)
    (held : origin.notificationKey channel = some value) (settled : SettledKey value)
    (other : value ≠ update.key) (delivery : Fate) :
    conduct env state call delivery =
      ⟨some (origin.setNotificationKey (some (if delivery = .replies then update.key else value)) channel),
        state.sends ++ [⟨channel, update.key, delivery = .replies⟩]⟩ := by
  obtain ⟨rfl, read, number⟩ := about
  let claimed := origin.setNotificationKey (some (pendingKey update.key)) call.channel
  let holding : NoticeState := { state with origin := some claimed }
  have selects : noticeWorld.answer state (.selectOrigin update.issueNumber) ⟨.replies, delivery⟩ =
      some (some (some origin), state) := by
    simp only [noticeWorld, NoticeChoice.fate, NoticeOp.sends, Bool.false_eq_true, if_false,
      NoticeState.perform, stored, Option.filter_some, number, decide_true, if_true]
    rfl
  have claims : noticeWorld.answer state (.claimNotice call.channel update.issueNumber
      (pendingKey update.key) update.key) ⟨.replies, delivery⟩ =
        some (some true, holding) := by
    have found : state.update call.channel update.issueNumber (claimable · update.key)
        (some (pendingKey update.key)) = some claimed := by
      rw [NoticeState.update, stored, Option.bind_some, if_pos]
      exact ⟨number.symm, (claimable_iff _ _).mpr ⟨value, held, held ▸ settled.2, other⟩⟩
    simp only [noticeWorld, NoticeChoice.fate, NoticeOp.sends, Bool.false_eq_true, if_false,
      NoticeState.perform, found]
    rfl
  have carried : holding.origin = some claimed := rfl
  obtain ⟨response, ended⟩ := sendClaimed_alone carried (origin.notificationKey_set_same _)
    (number.trans (origin.issueNumber_set _).symm) held settled.1 update.key delivery
  have notified : notifyConfigured env call.channel update (some origin) =
      .perform (.claimNotice call.channel update.issueNumber (pendingKey update.key) update.key)
        (orThrow fun (claimed : Bool) =>
          if claimed then sendClaimed call.channel origin update update.key (pendingKey update.key)
          else .done .returned) := by
    rw [notifyConfigured, if_pos configured, notifyChannel, if_neg]
    rw [held]
    exact fun same => other (Option.some.inj same)
  have ran := calc (handoffStatus env call.channel call.input).alone noticeWorld ⟨.replies, delivery⟩ state
    _ = (notifyConfigured env call.channel update (some origin)).alone noticeWorld
          ⟨.replies, delivery⟩ state := by
        rw [handoffStatus, read]
        exact Task.alone_answered selects
    _ = (sendClaimed call.channel origin update update.key (pendingKey update.key)).alone noticeWorld
          ⟨.replies, delivery⟩ holding := by
        rw [notified]
        exact Task.alone_answered claims
    _ = _ := ended
  rw [conduct, ran]
  simp only [holding, claimed, RequestOrigin.setNotificationKey_twice]

end

/-! ## The other channel -/

/-- The operation concerns the channel's column and notices only. -/
def NoticeOp.On (channel : NoticeChannel) : NoticeOp → Prop
  | .selectOrigin _ => True
  | .claimNotice other _ _ _ => other = channel
  | .sendNotice other _ _ => other = channel
  | .settleNotice other _ _ _ => other = channel

theorem handoffStatus_on (env : NoticeEnv) (channel : NoticeChannel) (input : Option StatusPayload) :
    (handoffStatus env channel input).OnlyAsks (NoticeOp.On channel) := by
  have rolled (origin : RequestOrigin) (update : StatusUpdate) (pending : String) :
      (rollBack channel origin update pending).OnlyAsks (NoticeOp.On channel) :=
    ⟨rfl, fun _ => trivial⟩
  have sent (origin : RequestOrigin) (update : StatusUpdate) (key pending : String) :
      (sendClaimed channel origin update key pending).OnlyAsks (NoticeOp.On channel) := by
    refine ⟨rfl, fun reply => ?_⟩
    cases reply with
    | none => exact rolled origin update pending
    | some sent =>
        refine ⟨rfl, fun reply => ?_⟩
        cases reply with
        | none => exact rolled origin update pending
        | some settled => trivial
  have notified (origin : RequestOrigin) (update : StatusUpdate) :
      (notifyChannel channel origin update).OnlyAsks (NoticeOp.On channel) := by
    rw [notifyChannel]
    split
    · trivial
    · refine ⟨rfl, fun reply => ?_⟩
      rcases reply with _ | _ | _
      · trivial
      · trivial
      · exact sent origin update _ _
  rw [handoffStatus]
  split
  · trivial
  · next update _ =>
    refine ⟨trivial, fun reply => ?_⟩
    rcases reply with _ | _ | origin
    · trivial
    · trivial
    · simp only [orThrow, notifyConfigured]
      split
      · exact notified origin update
      · trivial

/-- The row is still the same one, and its column holds what was delivered last. -/
structure Standing (env : NoticeEnv) (channel : NoticeChannel) (origin : RequestOrigin)
    (last : Option String) (state : NoticeState) : Prop where
  current : ∃ row, state.origin = some row ∧ row.issueNumber = origin.issueNumber ∧
    env.notifies row channel = env.notifies origin channel ∧ row.notificationKey channel = last
  delivered : lastDelivered channel (origin.notificationKey channel) state.sends = last

theorem lastDelivered_append (channel : NoticeChannel) (stored : Option String) (sends : List Notice)
    (notice : Notice) : lastDelivered channel stored (sends ++ [notice]) =
      if notice.channel = channel ∧ notice.succeeded then some notice.key
      else lastDelivered channel stored sends := by
  rw [lastDelivered, List.foldl_append]
  rfl

section

variable {env : NoticeEnv} {channel other : NoticeChannel} {origin : RequestOrigin}
  {last : Option String} {state : NoticeState}

theorem Standing.updated (standing : Standing env channel origin last state)
    (different : other ≠ channel) {issueNumber : Int} {clause : Option String → Sql.Truth}
    {value : Option String} {row : RequestOrigin}
    (updated : state.update other issueNumber clause value = some row) :
    Standing env channel origin last { state with origin := some row } := by
  obtain ⟨⟨before, stored, number, notifies, column⟩, delivered⟩ := standing
  rw [NoticeState.update, stored, Option.bind_some] at updated
  split at updated
  · cases updated
    refine ⟨⟨_, rfl, ?_, ?_, ?_⟩, delivered⟩
    · rw [RequestOrigin.issueNumber_set, number]
    · rw [RequestOrigin.notifies_set, notifies]
    · rw [RequestOrigin.notificationKey_set_other _ _ different.symm, column]
  · cases updated

theorem Standing.perform (standing : Standing env channel origin last state)
    (different : other ≠ channel) {op : NoticeOp} (on : op.On other) (delivery : Fate) :
    Standing env channel origin last (state.perform delivery op).2 := by
  cases op with
  | selectOrigin issueNumber => exact standing
  | claimNotice claimed issueNumber pending key =>
      cases on
      simp only [NoticeState.perform]
      split
      · next row updated => exact standing.updated different updated
      · exact standing
  | sendNotice sent update key =>
      cases on
      refine ⟨standing.current, ?_⟩
      simp only [NoticeState.perform]
      rw [lastDelivered_append, if_neg fun both => different both.1]
      exact standing.delivered
  | settleNotice settled issueNumber value pending =>
      cases on
      simp only [NoticeState.perform]
      split
      · next row updated => exact standing.updated different updated
      · exact standing

variable {call : StatusCall}

theorem Standing.elsewhere (standing : Standing env channel origin last state)
    (different : call.channel ≠ channel) (delivery : Fate) :
    Standing env channel origin last (conduct env state call delivery) := by
  rw [conduct]
  split
  · next ended ran =>
    refine Task.Ends.kept ?_ ?_ (handoffStatus_on env call.channel call.input)
      (Task.ends_of_alone ran) standing
    · intro state choice later drifted
      cases drifted
    · intro state op choice reply after on answered standing
      rcases (noticeWorld_answer answered).1 with rfl | rfl
      · exact standing
      · exact standing.perform different on choice.delivery
  · exact standing

/-! ## Every sequence -/

/-- The column is free for the first notice, or holds a key. -/
def Settled (last : Option String) : Prop := ∀ value ∈ last, SettledKey value

/-- A call about the issue on a channel whose column is `NULL`, or holds a key. -/
theorem Standing.about (standing : Standing env channel origin last state) (settled : Settled last)
    (configured : env.notifies origin channel = true) {update : StatusUpdate}
    (about : call.About channel origin.issueNumber update) (delivery : Fate) :
    (last = none ∨ last = some update.key) ∧ conduct env state call delivery = state ∨
      last ≠ none ∧ last ≠ some update.key ∧
        (conduct env state call delivery).sends =
          state.sends ++ [⟨channel, update.key, delivery = .replies⟩] ∧
        Standing env channel origin (if delivery = .replies then some update.key else last)
          (conduct env state call delivery) := by
  obtain ⟨⟨row, stored, number, notifies, column⟩, delivered⟩ := standing
  obtain ⟨rfl, read, named⟩ := about
  cases last with
  | none =>
      exact .inl ⟨.inl rfl, conduct_idle stored (fun _ _ _ => notifyChannel_leaves stored column) delivery⟩
  | some value =>
      by_cases same : value = update.key
      · refine .inl ⟨.inr (congrArg some same), conduct_idle stored (fun again also _ => ?_) delivery⟩
        rw [read, Option.some.injEq] at also
        subst also
        rw [notifyChannel, if_pos (column.trans (congrArg some same))]
        trivial
      · have sends := conduct_sends stored ⟨rfl, read, named.trans number.symm⟩
          (notifies.trans configured) column (settled value rfl) same delivery
        refine .inr ⟨by simp, by simpa using same, by rw [sends], ?_⟩
        rw [sends]
        refine ⟨⟨_, rfl, ?_, ?_, ?_⟩, ?_⟩
        · rw [RequestOrigin.issueNumber_set, number]
        · rw [RequestOrigin.notifies_set, notifies]
        · rw [RequestOrigin.notificationKey_set_same]
          split <;> rfl
        · rw [lastDelivered_append, delivered]
          simp

theorem Standing.called (standing : Standing env channel origin last state) (settled : Settled last)
    (configured : env.notifies origin channel = true) (call : StatusCall) (delivery : Fate) :
    ∃ next, Standing env channel origin next (conduct env state call delivery) ∧ Settled next ∧
      (next = none ↔ last = none) := by
  by_cases here : call.channel = channel
  · by_cases about : ∃ update, call.About channel origin.issueNumber update
    · obtain ⟨update, about⟩ := about
      rcases standing.about settled configured about delivery with ⟨_, same⟩ | ⟨present, _, _, moved⟩
      · rw [same]
        exact ⟨last, standing, settled, Iff.rfl⟩
      · refine ⟨_, moved, ?_, ?_⟩
        · intro value held
          split at held
          · cases held
            exact settled_key update
          · exact settled value held
        · split
          · simp [present]
          · exact Iff.rfl
    · obtain ⟨row, stored, number, _⟩ := standing.current
      have same : conduct env state call delivery = state :=
        conduct_idle stored (fun update read named =>
          absurd ⟨update, here, read, named.trans number⟩ about) delivery
      rw [same]
      exact ⟨last, standing, settled, Iff.rfl⟩
  · exact ⟨last, standing.elsewhere here delivery, settled, Iff.rfl⟩

theorem standing_conductAll (settled : Settled (origin.notificationKey channel))
    (configured : env.notifies origin channel = true) (calls : List (StatusCall × Fate)) :
    ∃ last, Standing env channel origin last (conductAll env ⟨some origin, []⟩ calls) ∧
      Settled last ∧ (last = none ↔ origin.notificationKey channel = none) := by
  induction calls using List.reverseRecOn with
  | nil => exact ⟨_, ⟨⟨origin, rfl, rfl, rfl, rfl⟩, rfl⟩, settled, Iff.rfl⟩
  | append_singleton calls call induction =>
      obtain ⟨last, standing, settled, empty⟩ := induction
      obtain ⟨next, moved, later, same⟩ := standing.called settled configured call.1 call.2
      refine ⟨next, ?_, later, same.trans empty⟩
      rw [conductAll, List.foldl_append]
      exact moved

end

def Silent (channel : NoticeChannel) (issueNumber : Int) (calls : List (StatusCall × Fate)) : Prop :=
  ∀ call ∈ calls, ∀ update, ¬ call.1.About channel issueNumber update

theorem delivers_once_iff {env : NoticeEnv} {channel : NoticeChannel} {origin : RequestOrigin}
    (settled : Settled (origin.notificationKey channel))
    (configured : env.notifies origin channel = true) (calls : List (StatusCall × Fate)) :
    DeliversOnce env channel origin calls ↔
      origin.notificationKey channel ≠ none ∨ Silent channel origin.issueNumber calls := by
  constructor
  · intro delivers
    by_contra neither
    obtain ⟨new, noisy⟩ := not_or.mp neither
    rw [not_not] at new
    simp only [Silent, not_forall, not_not] at noisy
    obtain ⟨⟨call, delivery⟩, member, update, about⟩ := noisy
    obtain ⟨earlier, later, rfl⟩ := List.append_of_mem member
    obtain ⟨last, standing, held, same⟩ := standing_conductAll settled configured earlier
    obtain rfl := same.mpr new
    have sends := (delivers earlier call delivery later update rfl about).mpr
    rw [standing.delivered] at sends
    obtain ⟨succeeded, grown⟩ := sends (by simp)
    rcases standing.about held configured about delivery with ⟨_, idle⟩ | ⟨present, _⟩
    · rw [idle] at grown
      exact absurd grown (by simp)
    · exact present rfl
  · rintro condition earlier call delivery later update rfl about
    obtain ⟨last, standing, held, same⟩ := standing_conductAll settled configured earlier
    dsimp only
    rw [standing.delivered]
    have present : last ≠ none := by
      rcases condition with present | silent
      · exact fun new => present (same.mp new)
      · exact absurd about (silent _ (List.mem_append_right _ List.mem_cons_self) update)
    rcases standing.about held configured about delivery with ⟨known, idle⟩ | ⟨_, other, grown, _⟩
    · rw [idle]
      exact iff_of_false (by simp) (not_not_intro (known.resolve_left present))
    · exact iff_of_true ⟨_, grown⟩ other

/-! ## The result -/

def noticesFrom (env : NoticeEnv) (origin : RequestOrigin) : Tasks.Config (statusCalls env) :=
  ⟨⟨some origin, []⟩, []⟩

/-- A channel delivers each notice once exactly when its column holds a key beforehand,
or nothing is to be sent; beside each other, calls send nothing about a new row. -/
theorem notices_delivered_once_iff (env : NoticeEnv) (channel : NoticeChannel)
    (origin : RequestOrigin) (settled : Settled (origin.notificationKey channel))
    (configured : env.notifies origin channel = true) (calls : List (StatusCall × Fate)) :
    (DeliversOnce env channel origin calls ↔
      origin.notificationKey channel ≠ none ∨ Silent channel origin.issueNumber calls) ∧
    ((∀ other, origin.notificationKey other = none) → ∀ config : Tasks.Config (statusCalls env),
      Tasks.Reachable (noticesFrom env origin) config → config.state.sends = []) := by
  refine ⟨delivers_once_iff settled configured calls, fun new config reachable => ?_⟩
  have left : config.state = ⟨some origin, []⟩ := by
    refine Tasks.Reachable.left (fun _ => rfl) (fun call => ?_) reachable
    exact handoffStatus_leaves rfl call.input fun _ _ _ => notifyChannel_leaves rfl (new call.channel)
  rw [left]

def mailing : NoticeEnv where
  resendApiKey := "resend-secret"
  mailFrom := "City Meetings <updates@example.test>"

def evidenceReady : StatusCall where
  channel := .email
  input := some
    { issueNumber := some 42
      status := "evidence_ready"
      issueUrl := "https://github.com/example/repo/issues/42"
      targetUrl := "" }

theorem evidenceReady_about : evidenceReady.About .email 42
    ⟨42, "evidence_ready", "https://github.com/example/repo/issues/42", ""⟩ :=
  ⟨rfl, by decide +kernel, rfl⟩

def requestedByMail : RequestOrigin := createdOrigin 42 none (some "person@example.test")

theorem notices_delivered_once_by_mail :
    (DeliversOnce mailing .email requestedByMail [(evidenceReady, .replies)] ↔
      requestedByMail.notificationKey .email ≠ none ∨
        Silent .email requestedByMail.issueNumber [(evidenceReady, .replies)]) ∧
    ((∀ other, requestedByMail.notificationKey other = none) →
      ∀ config : Tasks.Config (statusCalls mailing),
        Tasks.Reachable (noticesFrom mailing requestedByMail) config → config.state.sends = []) :=
  notices_delivered_once_iff mailing .email requestedByMail (fun _ held => (by cases held))
    (by decide) [(evidenceReady, .replies)]

/-- The first notice about a new row is never sent. -/
theorem first_notice_lost : ¬ ∀ (env : NoticeEnv) (channel : NoticeChannel) (issueNumber : Int)
    (discordMessageId email : Option String) (calls : List (StatusCall × Fate)),
    env.notifies (createdOrigin issueNumber discordMessageId email) channel = true →
      DeliversOnce env channel (createdOrigin issueNumber discordMessageId email) calls := by
  intro claimed
  have delivers := claimed mailing .email 42 none (some "person@example.test")
    [(evidenceReady, .replies)] (by decide)
  have condition := (delivers_once_iff (fun _ held => (by cases held)) (by decide) _).mp delivers
  rcases condition with present | silent
  · exact present rfl
  · exact silent _ List.mem_cons_self _ evidenceReady_about

end CityPods.Intake
