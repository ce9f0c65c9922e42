import CityPods.Judging.Addressees
import Mathlib.Algebra.BigOperators.Group.Finset.Basic

/-! # Limits on outstanding packets

A pass takes only the room that the packets found waiting leave under the limit of
their purpose, for siblings of their model, and no more packets than its run cap.
-/

namespace CityPods.Judging

open Foundation Ledger

/-! ## Counting packets -/

/-- Which packets are counted, by their purpose and model. -/
abbrev Counted := String → String → Bool

def ofPurpose (purpose : String) : Counted := fun other _ => decide (other = purpose)

def ofSibling (model : String) : Counted := fun purpose other =>
  decide (purpose = siblingPurpose) && decide (other = model)

namespace Event

def foundAs (counted : Counted) : Event → Option String
  | .found purpose model recipe => if counted purpose model then some recipe else none
  | .accepted .. => none

/-- The recipe of a packet that waits at the Worker. -/
def waitsAs (counted : Counted) : Event → Option String
  | .found purpose model recipe => if counted purpose model then some recipe else none
  | .accepted purpose model recipe waits =>
      if waits && counted purpose model then some recipe else none

def accepts (counted : Counted) : Event → Bool
  | .found .. => false
  | .accepted purpose model _ _ => counted purpose model

end Event

/-- The packets found waiting. -/
def foundIn (counted : Counted) (log : List Event) : Finset String :=
  (log.filterMap (Event.foundAs counted)).toFinset

/-- The packets found waiting, and those accepted that wait. -/
def outstandingIn (counted : Counted) (log : List Event) : Finset String :=
  (log.filterMap (Event.waitsAs counted)).toFinset

def acceptedIn (counted : Counted) (log : List Event) : Nat := log.countP (Event.accepts counted)

theorem foundIn_found (counted : Counted) (log : List Event) (purpose model recipe : String) :
    foundIn counted (log ++ [.found purpose model recipe]) =
      if counted purpose model then insert recipe (foundIn counted log) else foundIn counted log := by
  unfold foundIn
  rw [List.filterMap_append, List.toFinset_append]
  split
  · next counts => simp [Event.foundAs, counts, Finset.union_comm]
  · next skips => simp [Event.foundAs, skips]

@[simp] theorem foundIn_accepted (counted : Counted) (log : List Event) (purpose model recipe : String)
    (waits : Bool) : foundIn counted (log ++ [.accepted purpose model recipe waits]) =
      foundIn counted log := by
  unfold foundIn
  rw [List.filterMap_append, List.toFinset_append]
  exact Finset.union_empty _

@[simp] theorem acceptedIn_found (counted : Counted) (log : List Event)
    (purpose model recipe : String) :
    acceptedIn counted (log ++ [.found purpose model recipe]) = acceptedIn counted log := by
  simp [acceptedIn, Event.accepts]

theorem acceptedIn_accepted (counted : Counted) (log : List Event) (purpose model recipe : String)
    (waits : Bool) : acceptedIn counted (log ++ [.accepted purpose model recipe waits]) =
      acceptedIn counted log + if counted purpose model then 1 else 0 := by
  unfold acceptedIn
  rw [List.countP_append, List.countP_singleton]
  rfl

def Event.acceptedAs (counted : Counted) : Event → Option String
  | .found .. => none
  | .accepted purpose model recipe _ => if counted purpose model then some recipe else none

theorem length_acceptedAs (counted : Counted) (log : List Event) :
    (log.filterMap (Event.acceptedAs counted)).length = acceptedIn counted log := by
  rw [List.length_filterMap_eq_countP]
  refine List.countP_congr fun event _ => ?_
  cases event with
  | found purpose model recipe => simp [Event.acceptedAs, Event.accepts]
  | accepted purpose model recipe waits => simp [Event.acceptedAs, Event.accepts]

theorem card_outstandingIn_le (counted : Counted) (log : List Event) :
    (outstandingIn counted log).card ≤ (foundIn counted log).card + acceptedIn counted log := by
  have within : outstandingIn counted log ⊆
      foundIn counted log ∪ (log.filterMap (Event.acceptedAs counted)).toFinset := by
    intro recipe member
    obtain ⟨event, logged, waiting⟩ := List.mem_filterMap.mp (List.mem_toFinset.mp member)
    cases event with
    | found purpose model found =>
        exact Finset.mem_union_left _
          (List.mem_toFinset.mpr (List.mem_filterMap.mpr ⟨_, logged, waiting⟩))
    | accepted purpose model accepted waits =>
        refine Finset.mem_union_right _
          (List.mem_toFinset.mpr (List.mem_filterMap.mpr ⟨_, logged, ?_⟩))
        obtain ⟨both, same⟩ := Option.ite_none_right_eq_some.mp waiting
        exact Option.ite_none_right_eq_some.mpr ⟨((Bool.and_eq_true _ _).mp both).2, same⟩
  calc (outstandingIn counted log).card
      ≤ (foundIn counted log ∪ (log.filterMap (Event.acceptedAs counted)).toFinset).card :=
        Finset.card_le_card within
    _ ≤ (foundIn counted log).card + (log.filterMap (Event.acceptedAs counted)).toFinset.card :=
        Finset.card_union_le _ _
    _ ≤ (foundIn counted log).card + acceptedIn counted log := by
        rw [← length_acceptedAs]
        exact Nat.add_le_add_left (List.toFinset_card_le _) _

theorem outstandingIn_mono (counted : Counted) {earlier log : List Event} (before : earlier <+: log) :
    outstandingIn counted earlier ⊆ outstandingIn counted log := by
  intro recipe member
  unfold outstandingIn at member ⊢
  rw [List.mem_toFinset] at member ⊢
  exact (before.filterMap _).subset member

/-! ## Collecting -/

section

variable {ctx : JudgingContext}

/-- The sets that the limits are held against are those of the log. -/
structure Tallied (pass : Pass) : Prop where
  outstanding : ∀ purpose, pass.outstanding purpose = foundIn (ofPurpose purpose) pass.log
  recipes : ∀ model, pass.loads.recipes model = foundIn (ofSibling model) pass.log
  accepted : ∀ counted, acceptedIn counted pass.log = 0

theorem Tallied.find {pass : Pass} (tallied : Tallied pass) (marker : Marker) :
    Tallied (pass.find marker) where
  outstanding := by
    intro purpose
    rw [pass.outstanding_find, pass.log_find, foundIn_found, ← tallied.outstanding]
    by_cases same : marker.purpose = purpose
    · rw [same, Function.update_self, if_pos (by simp [ofPurpose])]
    · rw [Function.update_of_ne (Ne.symm same), if_neg (by simpa [ofPurpose] using same)]
  recipes := by
    intro model
    rw [pass.recipes_find, pass.log_find, foundIn_found, ← tallied.recipes]
    by_cases sibling : marker.purpose = siblingPurpose
    · rw [if_pos sibling]
      by_cases same : marker.key.judgeModel = model
      · simp [ofSibling, sibling, same]
      · simp [ofSibling, same, Function.update_of_ne (Ne.symm same)]
    · rw [if_neg sibling, if_neg (by simp [ofSibling, sibling])]
  accepted := fun counted => (acceptedIn_found ..).trans (tallied.accepted counted)

/-- A reply changes the blocks only. -/
theorem collectReply_keeps (subject : Subject) (pass : Pass) (marker : Marker)
    (answers : Dict String Answer) :
    (collectReply ctx subject pass marker answers).log = pass.log ∧
      (collectReply ctx subject pass marker answers).runCaps = pass.runCaps := by
  unfold collectReply
  split
  · exact ⟨rfl, rfl⟩
  simp only
  split
  · exact ⟨rfl, rfl⟩
  split <;> exact ⟨rfl, rfl⟩

theorem Tallied.collectReply {pass : Pass} (tallied : Tallied pass) (subject : Subject)
    (marker : Marker) (answers : Dict String Answer) :
    Tallied (collectReply ctx subject pass marker answers) := by
  unfold CityPods.Judging.collectReply
  split
  · exact ⟨tallied.outstanding, tallied.recipes, tallied.accepted⟩
  simp only
  split
  · exact ⟨tallied.outstanding, tallied.recipes, tallied.accepted⟩
  split
  · exact tallied
  · exact ⟨tallied.outstanding, tallied.recipes, tallied.accepted⟩

theorem Tallied.collectMarker {pass : Pass} (tallied : Tallied pass) (subject : Subject)
    (marker : Marker) : Tallied (collectMarker ctx subject pass marker) := by
  unfold CityPods.Judging.collectMarker
  split
  · exact tallied
  split
  · exact tallied.find marker
  · exact tallied.find marker
  · exact ⟨tallied.outstanding, tallied.recipes, tallied.accepted⟩
  · exact tallied.collectReply subject marker _

variable (ctx) in
theorem tallied_collect {pass : Pass} (tallied : Tallied pass) (subjects : List Subject) :
    Tallied (collect ctx pass subjects) := by
  have collected := List.foldlRecOn (subjects ++ probeSubjects pass.stores subjects)
    (collectSubject ctx) tallied fun pass kept subject _ =>
      List.foldlRecOn (motive := Tallied) (pending pass.stores subject)
        (CityPods.Judging.collectMarker ctx subject) kept
        fun pass kept marker _ => kept.collectMarker subject marker
  unfold collect countSuperseded
  split
  · exact collected
  · refine List.foldlRecOn _ _ collected fun pass kept marker _ => ?_
    split
    · exact kept.find marker
    · exact kept

/-! ## Room -/

variable {model : String}

theorem get?_siblingRooms (recipes : String → Finset String) (limit : Int)
    (active : model ∈ ctx.sibling.models) :
    (siblingRooms ctx recipes limit).get? model = some (max 0 (limit - (recipes model).card)) := by
  have named : model ∈ ctx.sibling.models.filter fun other => other = model :=
    List.mem_filter.mpr ⟨active, decide_eq_true rfl⟩
  have nonempty := List.ne_nil_of_mem named
  have last := List.mem_filter.mp (List.getLast_mem nonempty)
  unfold siblingRooms
  rw [Dict.get?_foldl_set, List.getLast?_eq_getLast_of_ne_nil nonempty, Option.map_some,
    of_decide_eq_true last.2]
  rfl

/-- What the limits leave: each purpose's cap, and the rooms of the siblings. -/
structure Limited (ctx : JudgingContext) (limits : Dict String Int) (pass after : Pass) : Prop where
  log : after.log = pass.log
  recipes : after.loads.recipes = pass.loads.recipes
  outstanding : after.outstanding = pass.outstanding
  capped : ∀ purpose limit, limits.get? purpose = some limit →
    after.runCaps.get? purpose = some (leftFor ctx pass purpose limit)
  free : ∀ purpose, limits.get? purpose = none → after.runCaps.get? purpose = pass.runCaps.get? purpose
  rooms : ∀ limit, limits.get? siblingPurpose = some limit →
    after.loads.room = pass.loads.room.update (siblingRooms ctx pass.loads.recipes limit)
  unlimited : limits.get? siblingPurpose = none → after.loads.room = pass.loads.room

theorem runCaps_applyLimit (pass : Pass) (purpose : String) (limit : Int) (other : String) :
    (applyLimit ctx pass (purpose, limit)).runCaps.get? other =
      if purpose = other then some (leftFor ctx pass purpose limit) else pass.runCaps.get? other :=
  Dict.get?_set _ _ _ _

variable (ctx) in
theorem recipes_applyLimit (pass : Pass) (limited : String × Int) :
    (applyLimit ctx pass limited).loads.recipes = pass.loads.recipes := by
  by_cases sibling : limited.1 = siblingPurpose <;> simp [applyLimit, sibling]

theorem room_applyLimit (pass : Pass) (purpose : String) (limit : Int) :
    (applyLimit ctx pass (purpose, limit)).loads.room =
      if purpose = siblingPurpose then
        pass.loads.room.update (siblingRooms ctx pass.loads.recipes limit)
      else pass.loads.room := by
  by_cases sibling : purpose = siblingPurpose <;> simp [applyLimit, sibling]

variable {limits : Dict String Int}

variable (ctx) in
theorem limited_foldl (nodup : limits.keys.Nodup) (pass : Pass) :
    Limited ctx limits pass (limits.foldl (applyLimit ctx) pass) := by
  induction limits generalizing pass with
  | nil =>
      refine ⟨rfl, rfl, rfl, ?_, fun _ _ => rfl, ?_, fun _ => rfl⟩
      · intro purpose limit found
        cases found
      · intro limit found
        cases found
  | cons entry rest induction =>
      obtain ⟨purpose, limit⟩ := entry
      obtain ⟨fresh, later⟩ := List.nodup_cons.mp nodup
      have absent : Dict.get? rest purpose = none := Dict.get?_eq_none_iff.mpr fresh
      have step := induction later (applyLimit ctx pass (purpose, limit))
      have recipes := recipes_applyLimit ctx pass (purpose, limit)
      have outstanding : (applyLimit ctx pass (purpose, limit)).outstanding = pass.outstanding := rfl
      refine ⟨step.log, step.recipes.trans recipes, step.outstanding, ?_, ?_, ?_, ?_⟩
      · intro other bound found
        rw [Dict.get?_cons] at found
        split at found
        · next same =>
          cases found
          rw [← same, List.foldl_cons, step.free purpose absent, runCaps_applyLimit, if_pos rfl]
        · next different =>
          rw [List.foldl_cons, step.capped other bound found]
          unfold leftFor
          rw [recipes, outstanding, runCaps_applyLimit, if_neg different]
      · intro other none
        rw [Dict.get?_cons] at none
        split at none
        · cases none
        · next different =>
          rw [List.foldl_cons, step.free other none, runCaps_applyLimit, if_neg different]
      · intro bound found
        rw [Dict.get?_cons] at found
        split at found
        · next same =>
          cases found
          cases same
          rw [List.foldl_cons, step.unlimited absent, room_applyLimit, if_pos rfl]
        · next different =>
          rw [List.foldl_cons, step.rooms bound found, recipes, room_applyLimit, if_neg different]
      · intro none
        rw [Dict.get?_cons] at none
        split at none
        · cases none
        · next different =>
          rw [List.foldl_cons, step.unlimited none, room_applyLimit, if_neg different]

/-! ## Submitting -/

def noSlot : String → Nat := fun _ => 0

def oneSlot (purpose : String) : String → Nat := fun other => if other = purpose then 1 else 0

/-- What was accepted, and the slots that are held, were taken from the caps and rooms of the
pass as it began. -/
structure Spent (ctx : JudgingContext) (begun : Pass) (held : String → Nat) (pass : Pass) : Prop where
  found : ∀ counted, foundIn counted pass.log = foundIn counted begun.log
  caps : ∀ purpose cap, begun.runCaps.get? purpose = some cap →
    ∃ left, pass.runCaps.get? purpose = some left ∧
      (acceptedIn (ofPurpose purpose) pass.log : Int) + held purpose + left ≤ cap ∧
        (0 ≤ left ∨ acceptedIn (ofPurpose purpose) pass.log + held purpose = 0)
  rooms : ∀ model room, begun.loads.room.get? model = some room →
    ∃ left, pass.loads.room.get? model = some left ∧
      (acceptedIn (ofSibling model) pass.log : Int) + left ≤ room ∧
        (0 ≤ left ∨ acceptedIn (ofSibling model) pass.log = 0)
  active : ∀ model, model ∉ ctx.sibling.models → acceptedIn (ofSibling model) pass.log = 0

variable {begun pass : Pass} {purpose : String}

theorem Spent.take (spent : Spent ctx begun noSlot pass)
    {runCaps : Dict String Int} (taken : takeRunSlot pass.runCaps purpose = some runCaps) :
    Spent ctx begun (oneSlot purpose) { pass with runCaps := runCaps } where
  found := spent.found
  rooms := spent.rooms
  active := spent.active
  caps := by
    intro other cap started
    obtain ⟨left, found, within, sign⟩ := spent.caps other cap started
    simp only [noSlot] at within
    unfold takeRunSlot at taken
    by_cases same : other = purpose
    · subst same
      simp only [found] at taken
      split at taken
      · cases taken
      · next positive =>
        cases taken
        refine ⟨left - 1, Dict.get?_set_same .., ?_, .inl (by omega)⟩
        simp only [oneSlot, if_true]
        omega
    · refine ⟨left, ?_, by simpa [oneSlot, same] using within,
        by simpa [oneSlot, noSlot, same] using sign⟩
      split at taken
      · cases taken
        exact found
      · split at taken
        · cases taken
        · cases taken
          exact (Dict.get?_set_other _ _ same).trans found

theorem Spent.giveBack (spent : Spent ctx begun (oneSlot purpose) pass) :
    Spent ctx begun noSlot { pass with runCaps := returnRunSlot pass.runCaps purpose } where
  found := spent.found
  rooms := spent.rooms
  active := spent.active
  caps := by
    intro other cap started
    obtain ⟨left, found, within, sign⟩ := spent.caps other cap started
    unfold returnRunSlot
    simp only [noSlot]
    by_cases same : other = purpose
    · subst same
      simp only [oneSlot, if_true] at within sign
      rw [found]
      exact ⟨left + 1, Dict.get?_set_same .., by omega, .inl (by omega)⟩
    · simp only [oneSlot, if_neg same] at within sign
      refine ⟨left, ?_, within, sign⟩
      split
      · exact found
      · exact (Dict.get?_set_other _ _ same).trans found

theorem Spent.forget (spent : Spent ctx begun (oneSlot purpose) pass) :
    Spent ctx begun noSlot pass where
  found := spent.found
  rooms := spent.rooms
  active := spent.active
  caps := by
    intro other cap started
    obtain ⟨left, found, within, sign⟩ := spent.caps other cap started
    refine ⟨left, found, ?_, ?_⟩ <;> simp only [noSlot] <;> omega

variable {role : JudgeRole}

theorem room_takeRoom {loads : Loads}
    (room : role = .sibling → 0 < (loads.room.get? model).getD 1) {other : String} {left : Int}
    (found : loads.room.get? other = some left) :
    (takeRoom loads role model).room.get? other = some left ∧ (role = .sibling → model ≠ other) ∨
      role = .sibling ∧ model = other ∧ 0 < left ∧
        (takeRoom loads role model).room.get? other = some (left - 1) := by
  unfold takeRoom
  split
  · next known =>
    by_cases same : other = model
    · subst same
      have positive : 0 < left := by simpa [found] using room rfl
      cases found.symm.trans known
      exact .inr ⟨rfl, rfl, positive, Dict.get?_set_same ..⟩
    · exact .inl ⟨(Dict.get?_set_other _ _ same).trans found, fun _ equal => same equal.symm⟩
  · next untouched =>
    refine .inl ⟨found, ?_⟩
    rintro rfl rfl
    exact untouched left rfl found

variable {held : String → Nat}

theorem Spent.takeRoom (spent : Spent ctx begun held pass)
    (room : role = .sibling → 0 < (pass.loads.room.get? model).getD 1) :
    Spent ctx begun held { pass with loads := takeRoom pass.loads role model } where
  found := spent.found
  caps := spent.caps
  active := spent.active
  rooms := by
    intro other bound started
    obtain ⟨left, found, within, sign⟩ := spent.rooms other bound started
    obtain ⟨kept, _⟩ | ⟨_, _, positive, taken⟩ := room_takeRoom room found
    · exact ⟨left, kept, within, sign⟩
    · refine ⟨left - 1, taken, ?_, .inl (by omega)⟩
      dsimp only
      omega

theorem Spent.accept (spent : Spent ctx begun (oneSlot purpose) pass)
    (room : role = .sibling → 0 < (pass.loads.room.get? model).getD 1)
    (sibling : purpose = siblingPurpose → role = .sibling ∧ model ∈ ctx.sibling.models)
    (recipe : String) (waits : Bool) :
    Spent ctx begun noSlot { pass with
      loads := CityPods.Judging.takeRoom pass.loads role model
      log := pass.log ++ [.accepted purpose model recipe waits] } where
  found := fun counted => (foundIn_accepted ..).trans (spent.found counted)
  caps := by
    intro other cap started
    obtain ⟨left, found, within, sign⟩ := spent.caps other cap started
    dsimp only
    rw [acceptedIn_accepted]
    by_cases same : purpose = other
    · subst same
      simp only [oneSlot, if_true] at within sign
      simp only [ofPurpose, decide_true, if_true, noSlot] at within sign ⊢
      exact ⟨left, found, by omega, .inl (by omega)⟩
    · simp only [oneSlot, if_neg (Ne.symm same)] at within sign
      simp only [ofPurpose, same, decide_false, Bool.false_eq_true, if_false, noSlot, Nat.add_zero]
      exact ⟨left, found, within, sign⟩
  active := by
    intro other inactive
    dsimp only
    rw [acceptedIn_accepted, spent.active other inactive, if_neg]
    intro counts
    obtain ⟨purposes, models⟩ := (Bool.and_eq_true _ _).mp counts
    have listed := (sibling (of_decide_eq_true purposes)).2
    exact inactive (of_decide_eq_true models ▸ listed)
  rooms := by
    intro other bound started
    obtain ⟨left, found, within, sign⟩ := spent.rooms other bound started
    dsimp only
    rw [acceptedIn_accepted]
    obtain ⟨kept, differs⟩ | ⟨_, _, positive, taken⟩ := room_takeRoom room found
    · rw [if_neg]
      · exact ⟨left, kept, within, sign⟩
      · intro counts
        obtain ⟨purposes, models⟩ := (Bool.and_eq_true _ _).mp counts
        exact differs (sibling (of_decide_eq_true purposes)).1 (of_decide_eq_true models)
    · refine ⟨left - 1, taken, ?_, .inl (by omega)⟩
      split <;> omega

theorem Spent.congr (spent : Spent ctx begun held pass) {other : Pass}
    (log : other.log = pass.log) (runCaps : other.runCaps = pass.runCaps)
    (room : other.loads.room = pass.loads.room) : Spent ctx begun held other where
  found := by rw [log]; exact spent.found
  caps := by rw [log, runCaps]; exact spent.caps
  rooms := by rw [log, room]; exact spent.rooms
  active := by rw [log]; exact spent.active

structure Sent (ctx : JudgingContext) (role : JudgeRole) (packet : Packet Asked) : Prop where
  purpose : packet.purpose = siblingPurpose → role = .sibling
  active : role = .sibling → packet.judgeModel ∈ ctx.sibling.models

theorem Spent.afterSubmit {packet : Packet Asked}
    (spent : Spent ctx begun (oneSlot packet.purpose) pass) (sent : Sent ctx role packet)
    (room : role = .sibling → 0 < (pass.loads.room.get? packet.judgeModel).getD 1) :
    Spent ctx begun noSlot (afterSubmit ctx role packet pass) := by
  have sibling : packet.purpose = siblingPurpose →
      role = .sibling ∧ packet.judgeModel ∈ ctx.sibling.models :=
    fun same => ⟨sent.purpose same, sent.active (sent.purpose same)⟩
  unfold CityPods.Judging.afterSubmit
  simp only
  split
  · exact spent.giveBack.congr rfl rfl rfl
  · exact (spent.accept room sibling _ false).congr rfl rfl rfl
  · exact (spent.accept room sibling _ true).congr rfl rfl rfl
  · exact (spent.takeRoom room).forget.congr rfl rfl rfl

theorem Spent.submitPackets {packets : List (Packet Asked)}
    (spent : Spent ctx begun noSlot pass) (sent : ∀ packet ∈ packets, Sent ctx role packet) :
    Spent ctx begun noSlot (submitPackets ctx role packets pass).1 := by
  induction packets generalizing pass with
  | nil => exact spent
  | cons packet later induction =>
      have checked : Spent ctx begun noSlot { pass with checks := pass.checks + 1 } :=
        spent.congr rfl rfl rfl
      have others : ∀ packet ∈ later, Sent ctx role packet :=
        fun other member => sent other (List.mem_cons_of_mem _ member)
      unfold CityPods.Judging.submitPackets
      simp only
      split
      · exact checked
      split
      · exact checked
      next roomy =>
      have room : role = .sibling → 0 < (pass.loads.room.get? packet.judgeModel).getD 1 :=
        fun isSibling => not_le.mp fun full => roomy ⟨isSibling, full⟩
      split
      · exact checked
      next runCaps taken =>
      have slotted := checked.take taken
      split
      · exact induction ((slotted.takeRoom room).forget.congr rfl rfl rfl) others
      · exact induction (slotted.afterSubmit (sent packet List.mem_cons_self) room) others

theorem pack_addressed {backend : Backend Asked} {units : List (List (Item Asked))}
    {role : String} {result : PackResult Asked}
    (packed : pack backend units purpose role model = some result) :
    ∀ packet ∈ result.packets, packet.purpose = purpose ∧ packet.judgeModel = model := by
  obtain ⟨packing, _, rfl⟩ := Option.map_eq_some_iff.mp packed
  intro packet member
  obtain ⟨items, _, rfl⟩ := List.mem_map.mp member
  exact ⟨rfl, rfl⟩

theorem purposes_sibling (named : purposes.get? role = some siblingPurpose) :
    role = .sibling := by
  revert named
  cases role <;> decide

theorem Spent.submitUnits {units : Units} (spent : Spent ctx begun noSlot pass)
    (active : ∀ entry ∈ units, entry.1.1 = .sibling → entry.1.2 ∈ ctx.sibling.models) :
    Spent ctx begun noSlot (submitUnits ctx units pass) := by
  induction units generalizing pass with
  | nil => exact spent
  | cons entry later induction =>
      obtain ⟨⟨role, model⟩, judgeUnits⟩ := entry
      unfold CityPods.Judging.submitUnits
      split
      · exact spent.congr rfl rfl rfl
      next purpose named =>
      split
      · exact spent.congr rfl rfl rfl
      next packed found =>
      have sent : ∀ packet ∈ packed.packets, Sent ctx role packet := fun packet member => by
        obtain ⟨purposes, models⟩ := pack_addressed found packet member
        exact
          { purpose := fun same => purposes_sibling (named.trans (congrArg some (purposes.symm.trans same)))
            active := fun isSibling => models ▸ active _ List.mem_cons_self isSibling }
      have submitted := spent.submitPackets sent
      split
      · next stopped same => exact (same ▸ submitted : Spent ctx begun noSlot (stopped, true).1)
      · next after same =>
        exact induction (same ▸ submitted : Spent ctx begun noSlot (after, false).1)
          fun entry member => active entry (List.mem_cons_of_mem _ member)

theorem Spent.finish (spent : Spent ctx begun held pass)
    {episodes : List Episode} {planned : Planning} :
    Spent ctx begun held (finish ctx episodes planned pass) :=
  spent.congr rfl rfl rfl

/-! ## Runs -/

theorem Tallied.spent (tallied : Tallied pass) : Spent ctx pass noSlot pass where
  found := fun _ => rfl
  active := fun _ _ => tallied.accepted _
  caps := fun purpose cap started =>
    ⟨cap, started, by simp [tallied.accepted, noSlot], .inr (by simp [tallied.accepted, noSlot])⟩
  rooms := fun model room started =>
    ⟨room, started, by simp [tallied.accepted], .inr (tallied.accepted _)⟩

theorem tallied_start (stores : Stores) (runCaps : Dict String Int) :
    Tallied { stores := stores, runCaps := runCaps } :=
  ⟨fun _ => rfl, fun _ => rfl, fun _ => rfl⟩

theorem spent_run (episodes : List Episode) (stores : Stores) (runCaps : Dict String Int)
    (tallied : Tallied (beginPass ctx (recentFirst episodes) stores runCaps)) :
    Spent ctx (beginPass ctx (recentFirst episodes) stores runCaps) noSlot
      (run ctx episodes stores runCaps) := by
  simp only [run]
  split
  · exact tallied.spent
  split
  · exact tallied.spent.congr rfl rfl rfl
  next units planned =>
  have active : ∀ entry ∈ sortedUnits units, entry.1.1 = .sibling → entry.1.2 ∈ ctx.sibling.models :=
    fun entry member => active_planPass planned entry ((List.perm_insertionSort _ _).mem_iff.mp member)
  split
  · exact Spent.submitUnits (tallied.spent.congr rfl rfl rfl) active
  · apply Spent.finish
    exact Spent.submitUnits (tallied.spent.congr rfl rfl rfl) active

/-- What the packets of a pass are held to. -/
structure RespectsLimits (ctx : JudgingContext) (runCaps : Dict String Int) (pass : Pass) : Prop where
  purposes : ∀ purpose limit, ctx.maxOutstanding.get? purpose = some limit →
    purpose ≠ siblingPurpose → ∀ earlier, earlier <+: pass.log →
      (outstandingIn (ofPurpose purpose) earlier).card ≤
        max limit.toNat (foundIn (ofPurpose purpose) pass.log).card
  siblings : ∀ limit, ctx.maxOutstanding.get? siblingPurpose = some limit →
    ∀ model earlier, earlier <+: pass.log →
      (outstandingIn (ofSibling model) earlier).card ≤
        max limit.toNat (foundIn (ofSibling model) pass.log).card
  caps : ∀ purpose cap, runCaps.get? purpose = some cap →
    acceptedIn (ofPurpose purpose) pass.log ≤ cap.toNat

/-- Packets that fit into the room beside those found are within the limit at every point. -/
theorem card_outstanding_le {counted : Counted} {log earlier : List Event} {limit : Int}
    (before : earlier <+: log)
    (room : (acceptedIn counted log : Int) ≤ max 0 (limit - (foundIn counted log).card)) :
    (outstandingIn counted earlier).card ≤ max limit.toNat (foundIn counted log).card := by
  have within := Finset.card_le_card (outstandingIn_mono counted before)
  have split := card_outstandingIn_le counted log
  omega

theorem nodup_siblingRooms (recipes : String → Finset String) (limit : Int) :
    (siblingRooms ctx recipes limit).keys.Nodup := by
  unfold siblingRooms
  exact List.foldlRecOn (motive := fun rooms : Dict String Int => rooms.keys.Nodup) _ _
    List.nodup_nil fun rooms kept model _ => Dict.nodup_keys_set kept model _

variable (ctx) (pass) in
theorem leftFor_le_room (purpose : String) (limit : Int) (notSibling : purpose ≠ siblingPurpose) :
    leftFor ctx pass purpose limit ≤ max 0 (limit - (pass.outstanding purpose).card) := by
  unfold leftFor
  rw [if_neg notSibling]
  simp only
  split
  · exact le_rfl
  · exact min_le_right _ _

theorem leftFor_le_cap {cap : Int} (started : pass.runCaps.get? purpose = some cap)
    (limit : Int) : leftFor ctx pass purpose limit ≤ cap := by
  unfold leftFor
  rw [started]
  exact min_le_left _ _

variable {start : Pass}

theorem Spent.respects {final : Pass} (tallied : Tallied start) (empty : start.loads.room = [])
    (limited : Limited ctx ctx.maxOutstanding start begun) (spent : Spent ctx begun noSlot final) :
    RespectsLimits ctx start.runCaps final where
  purposes := by
    intro purpose limit bounded notSibling earlier before
    obtain ⟨left, _, within, sign⟩ := spent.caps _ _ (limited.capped purpose limit bounded)
    have room := leftFor_le_room ctx start purpose limit notSibling
    rw [tallied.outstanding, ← limited.log, ← spent.found] at room
    simp only [noSlot] at within sign
    exact card_outstanding_le before (by omega)
  siblings := by
    intro limit bounded model earlier before
    by_cases active : model ∈ ctx.sibling.models
    · have room : begun.loads.room.get? model =
          some (max 0 (limit - (foundIn (ofSibling model) final.log).card)) := by
        rw [limited.rooms limit bounded, empty, Dict.get?_update (nodup_siblingRooms _ _),
          get?_siblingRooms _ _ active, Option.some_or, tallied.recipes, ← limited.log, ← spent.found]
      obtain ⟨left, _, within, sign⟩ := spent.rooms model _ room
      exact card_outstanding_le before (by omega)
    · have none := spent.active model active
      exact card_outstanding_le before (by omega)
  caps := by
    intro purpose cap started
    obtain ⟨bound, began, lower⟩ : ∃ bound, begun.runCaps.get? purpose = some bound ∧ bound ≤ cap := by
      cases bounded : ctx.maxOutstanding.get? purpose with
      | none => exact ⟨cap, (limited.free purpose bounded).trans started, le_rfl⟩
      | some limit => exact ⟨_, limited.capped purpose limit bounded, leftFor_le_cap started limit⟩
    obtain ⟨left, _, within, sign⟩ := spent.caps purpose bound began
    simp only [noSlot] at within sign
    omega

theorem Limited.tallied {after : Pass}
    (limited : Limited ctx limits start after) (tallied : Tallied start) : Tallied after where
  outstanding := fun purpose => by rw [limited.outstanding, limited.log, tallied.outstanding]
  recipes := fun model => by rw [limited.recipes, limited.log, tallied.recipes]
  accepted := fun counted => by rw [limited.log, tallied.accepted]

variable (ctx) in
theorem collect_runCaps (start : Pass) (subjects : List Subject) :
    (collect ctx start subjects).runCaps = start.runCaps := by
  have marked : ∀ (subject : Subject) (pass : Pass) (marker : Marker),
      (collectMarker ctx subject pass marker).runCaps = pass.runCaps := by
    intro subject pass marker
    unfold collectMarker
    split
    · rfl
    split
    · rfl
    · rfl
    · rfl
    · exact (collectReply_keeps ..).2
  have collected : ((subjects ++ probeSubjects start.stores subjects).foldl (collectSubject ctx)
      start).runCaps = start.runCaps :=
    List.foldlRecOn (motive := fun pass : Pass => pass.runCaps = start.runCaps) _ _ rfl
      fun pass kept subject _ =>
        List.foldlRecOn (motive := fun pass : Pass => pass.runCaps = start.runCaps) _ _ kept
          fun pass kept marker _ => (marked subject pass marker).trans kept
  unfold collect countSuperseded
  split
  · exact collected
  · refine List.foldlRecOn (motive := fun pass : Pass => pass.runCaps = start.runCaps) _ _ collected
      fun pass kept marker _ => ?_
    split
    · exact kept
    · exact kept

theorem run_respects (ctx : JudgingContext) (episodes : List Episode) (stores : Stores)
    (runCaps : Dict String Int) :
    RespectsLimits ctx runCaps (run ctx episodes stores runCaps) ∧
      ∀ counted, foundIn counted (run ctx episodes stores runCaps).log =
        foundIn counted (collect ctx { stores := stores, runCaps := runCaps }
          ((recentFirst episodes).flatMap (subjectsOf ctx))).log := by
  have tallied := tallied_collect ctx (tallied_start stores runCaps)
    ((recentFirst episodes).flatMap (subjectsOf ctx))
  have same := collect_runCaps ctx { stores := stores, runCaps := runCaps }
    ((recentFirst episodes).flatMap (subjectsOf ctx))
  generalize found : collect ctx { stores := stores, runCaps := runCaps }
    ((recentFirst episodes).flatMap (subjectsOf ctx)) = collected at tallied same
  have began : beginPass ctx (recentFirst episodes) stores runCaps =
      if collected.raised then collected
      else applyBackpressure ctx { collected with
        stores := importAudit ctx collected.stores
          ((recentFirst episodes).flatMap (subjectsOf ctx)) } := by
    simp only [beginPass, found]
  cases raised : collected.raised with
  | true =>
      rw [raised, if_pos rfl] at began
      have ended : run ctx episodes stores runCaps = collected := by
        simp only [run, began, raised, if_true]
      rw [ended]
      have nothing : ∀ counted, acceptedIn counted collected.log = 0 := tallied.accepted
      refine ⟨⟨?_, ?_, ?_⟩, fun _ => rfl⟩
      · intro purpose limit _ _ earlier before
        exact card_outstanding_le before (by rw [nothing]; omega)
      · intro limit _ model earlier before
        exact card_outstanding_le before (by rw [nothing]; omega)
      · intro purpose cap _
        rw [nothing]
        exact Nat.zero_le _
  | false =>
      rw [if_neg (by simp [raised])] at began
      let start : Pass := { collected with
        stores := importAudit ctx collected.stores ((recentFirst episodes).flatMap (subjectsOf ctx))
        loads := { collected.loads with room := [] } }
      have counts : Tallied start := ⟨tallied.outstanding, tallied.recipes, tallied.accepted⟩
      have limited := limited_foldl ctx ctx.limited start
      have begins : beginPass ctx (recentFirst episodes) stores runCaps =
        ctx.maxOutstanding.foldl (applyLimit ctx) start := began
      have spent := spent_run episodes stores runCaps (begins ▸ limited.tallied counts)
      rw [begins] at spent
      have respects : RespectsLimits ctx start.runCaps (run ctx episodes stores runCaps) :=
        spent.respects counts rfl limited
      have caps : start.runCaps = runCaps := same
      refine ⟨caps ▸ respects, fun counted => ?_⟩
      rw [spent.found, limited.log]

end

end CityPods.Judging
