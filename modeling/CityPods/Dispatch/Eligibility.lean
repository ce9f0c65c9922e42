import CityPods.Dispatch.Packing
import CityPods.Dispatch.Claims
import CityPods.Gateway.ChatStream

/-! # Eligibility

Two filters decide what becomes of a queued job: the models that it is indexed
under, and the routes that a claim may lease it to. Both begin with the models
that its policy names.
-/

namespace CityPods.Dispatch

open Foundation
open Gateway.ChatStream (isBlank)

/-! ## Policies and catalogs -/

/-- An entry of a list in a policy: the text that it is looked up by, and whether it
is a text at all. -/
structure PolicyName where
  text : String
  isText : Bool := true
  deriving DecidableEq

def trim (text : String) : String :=
  String.ofList (((text.toList.dropWhile isBlank).reverse.dropWhile isBlank).reverse)

/-- What routing reads of a job's parsed policy. A list is absent where the policy
has no array; pins that are no array are an empty list. -/
structure RoutingPolicy where
  allowedModels : Option (List PolicyName) := none
  backupModels : Option (List PolicyName) := none
  backupAfterAttempts : Option ℤ := none
  allowedRouteIds : Option (List PolicyName) := none
  allowPaid : Bool := false
  deriving DecidableEq

structure StoredRoute extends SizedRoute where
  free : Bool := false

structure RoutingCatalog where
  modelAliases : Dict String String := []
  modelRoutesMap : Dict String (List String) := []
  routesById : Dict String StoredRoute := []

namespace RoutingCatalog

variable (catalog : RoutingCatalog)

def followAliases : Nat → List PolicyName → PolicyName → PolicyName
  | 0, _, current => current
  | fuel + 1, seen, current =>
      match catalog.modelAliases.get? current.text with
      | some target =>
          if current ∈ seen then current
          else followAliases fuel (current :: seen) { text := target }
      | none => current

/-- Follow the aliases until a name is none. A compiled alias names a pool, so that
the walk ends after a step. -/
def canonicalModelName (name : PolicyName) : PolicyName :=
  catalog.followAliases (catalog.modelAliases.length + 1) [] name

def pool (model : String) : List String := (catalog.modelRoutesMap.get? model).getD []

end RoutingCatalog

/-! ## The models of a job -/

section

variable (catalog : RoutingCatalog) (policy : RoutingPolicy) (job : JobRow)

def RoutingPolicy.allowed : List PolicyName := policy.allowedModels.getD []

def RoutingPolicy.backups : List PolicyName := policy.backupModels.getD []

/-- The attempts after which the backup models come in; none without any. -/
def RoutingPolicy.backupThreshold : Option ℤ :=
  if policy.backups = [] then none
  else policy.backupAfterAttempts.filter fun threshold => decide (0 < threshold)

def backupModelsActive : Bool :=
  match policy.backupThreshold with
  | none => false
  | some threshold => threshold ≤ job.attempts ∨ 1 ≤ job.schemaRetryCount

/-- Whether a route takes the job's size and payment. -/
def StoredRoute.suits (sizing : Sizing) (route : StoredRoute) : Bool :=
  (policy.allowPaid ∨ route.free) ∧
    routeFitsContext route.toSizedRoute job.inputTokenEstimate job.maxOutputTokenEstimate sizing

/-- The pool that a name stands for once its padding is off. -/
def indexedName (name : PolicyName) : Option String :=
  if name.isText ∧ trim name.text ≠ "" then
    some (catalog.canonicalModelName { text := trim name.text }).text
  else none

/-- Whether some route of the job's first choices suits it, whatever is excluded. -/
def primaryFits : Bool :=
  policy.allowed.any fun name =>
    match indexedName catalog name with
    | none => false
    | some model =>
        (catalog.pool model).any fun routeId =>
          (catalog.routesById.get? routeId).any (StoredRoute.suits policy job {})

def modelsForJob : List PolicyName :=
  if backupModelsActive policy job then policy.allowed ++ policy.backups
  else if policy.backupThreshold = none ∨ primaryFits catalog policy job then policy.allowed
  else policy.allowed ++ policy.backups

/-! ## The two filters -/

def excludesRoute (routeId : String) : Bool :=
  routeId ∈ job.sizeExcludedRoutes.getD [] ∨ routeId ∈ job.quotaExcludedRoutes.getD [] ∨
    routeId ∈ timeoutExcludedRoutes job

/-- A route of the catalog that neither the job's results nor its size nor its
payment rule out. -/
def mayRun (routeId : String) : Bool :=
  !excludesRoute job routeId && (catalog.routesById.get? routeId).any (StoredRoute.suits policy job {})

def modelsForQueuedJob : List String :=
  (((modelsForJob catalog policy job).filterMap (indexedName catalog)).filter fun model =>
    (catalog.pool model).any (mayRun catalog policy job)).eraseDups

def RoutingPolicy.pinsRoute (routeId : String) : Bool :=
  match policy.allowedRouteIds with
  | none => true
  | some pins =>
      pins.any fun pin => decide (pin.isText ∧ trim pin.text ≠ "" ∧ pin.text = routeId)

structure EligibleRoute where
  routeId : String
  model : String
  stored : StoredRoute

variable (sizingFor : String → StoredRoute → Sizing)

/-- One route of a pool. A request quota of zero pauses a route. -/
def eligibleRoute (model routeId : String) : Option EligibleRoute :=
  if policy.pinsRoute routeId ∧ ¬ excludesRoute job routeId then
    match catalog.routesById.get? routeId with
    | none => none
    | some route =>
        if route.rpd = some 0 then none
        else if route.suits policy job (sizingFor routeId route) then some ⟨routeId, model, route⟩
        else none
  else none

def addRoute (model : String) (eligible : List EligibleRoute) (routeId : String) :
    List EligibleRoute :=
  if routeId ∈ eligible.map EligibleRoute.routeId then eligible
  else eligible ++ (eligibleRoute catalog policy job sizingFor model routeId).toList

/-- The routes of a name, which is looked up as it is written. -/
def addModel (eligible : List EligibleRoute) (name : PolicyName) : List EligibleRoute :=
  let model := (catalog.canonicalModelName name).text
  (catalog.pool model).foldl (addRoute catalog policy job sizingFor model) eligible

/-- Every route of a catalog that a job may be leased to. Its models are those of the
structural catalog, in which nothing is left out for a pause. -/
def routesEligibleFor (structural : RoutingCatalog) : List EligibleRoute :=
  (modelsForJob structural policy job).foldl (addModel catalog policy job sizingFor) []

end

/-! ## What the filters let through -/

section

variable {structural catalog : RoutingCatalog} {policy : RoutingPolicy} {job : JobRow}
  {sizingFor : String → StoredRoute → Sizing} {eligible : List EligibleRoute} {routeId : String}
  {model : String}

theorem mem_modelsForQueuedJob :
    model ∈ modelsForQueuedJob catalog policy job ↔
      (∃ name ∈ modelsForJob catalog policy job, indexedName catalog name = some model) ∧
        ∃ routeId ∈ catalog.pool model, mayRun catalog policy job routeId = true := by
  rw [modelsForQueuedJob, List.mem_eraseDups, List.mem_filter, List.mem_filterMap, List.any_eq_true]

/-- Whether a claim may lease the job to a route that its names reach. -/
def takes (catalog : RoutingCatalog) (policy : RoutingPolicy) (job : JobRow)
    (sizingFor : String → StoredRoute → Sizing) (routeId : String) : Prop :=
  ∃ model, (eligibleRoute catalog policy job sizingFor model routeId).isSome = true

theorem eligibleRoute_routeId {route : EligibleRoute}
    (found : eligibleRoute catalog policy job sizingFor model routeId = some route) :
    route.routeId = routeId := by
  unfold eligibleRoute at found
  split at found
  · split at found
    · cases found
    · split at found
      · cases found
      · split at found <;> cases found
        rfl
  · cases found

theorem eligibleRoute_isSome (model : String) :
    (eligibleRoute catalog policy job sizingFor model routeId).isSome = true ↔
      takes catalog policy job sizingFor routeId := by
  have same (first second : String) :
      (eligibleRoute catalog policy job sizingFor first routeId).isSome =
        (eligibleRoute catalog policy job sizingFor second routeId).isSome := by
    unfold eligibleRoute
    repeat' split
    all_goals rfl
  constructor
  · exact fun eligible => ⟨model, eligible⟩
  · rintro ⟨other, eligible⟩
    rwa [same model other]

variable {other : String}

theorem mem_addRoute :
    other ∈ (addRoute catalog policy job sizingFor model eligible routeId).map
        EligibleRoute.routeId ↔
      other ∈ eligible.map EligibleRoute.routeId ∨
        (other = routeId ∧ takes catalog policy job sizingFor routeId) := by
  unfold addRoute
  split
  · next known =>
    constructor
    · exact .inl
    · rintro (old | ⟨rfl, _⟩)
      · exact old
      · exact known
  · rw [← eligibleRoute_isSome model]
    cases found : eligibleRoute catalog policy job sizingFor model routeId with
    | none => simp
    | some route =>
        have same := eligibleRoute_routeId found
        simp [same]

theorem mem_foldl_addRoute {routeIds : List String} :
    other ∈ (routeIds.foldl (addRoute catalog policy job sizingFor model) eligible).map
        EligibleRoute.routeId ↔
      other ∈ eligible.map EligibleRoute.routeId ∨
        (other ∈ routeIds ∧ takes catalog policy job sizingFor other) := by
  induction routeIds generalizing eligible with
  | nil => simp
  | cons routeId rest induction =>
      rw [List.foldl_cons, induction, mem_addRoute, List.mem_cons]
      constructor
      · rintro ((old | ⟨rfl, takes⟩) | ⟨later, takes⟩)
        · exact .inl old
        · exact .inr ⟨.inl rfl, takes⟩
        · exact .inr ⟨.inr later, takes⟩
      · rintro (old | ⟨rfl | later, takes⟩)
        · exact .inl (.inl old)
        · exact .inl (.inr ⟨rfl, takes⟩)
        · exact .inr ⟨later, takes⟩

def Reaches (structural catalog : RoutingCatalog) (policy : RoutingPolicy) (job : JobRow)
    (routeId : String) : Prop :=
  ∃ name ∈ modelsForJob structural policy job,
    routeId ∈ catalog.pool (catalog.canonicalModelName name).text

theorem mem_routesEligibleFor :
    routeId ∈ (routesEligibleFor catalog policy job sizingFor structural).map
        EligibleRoute.routeId ↔
      Reaches structural catalog policy job routeId ∧ takes catalog policy job sizingFor routeId := by
  have general (names : List PolicyName) (start : List EligibleRoute) :
      routeId ∈ (names.foldl (addModel catalog policy job sizingFor) start).map
          EligibleRoute.routeId ↔
        routeId ∈ start.map EligibleRoute.routeId ∨
          ((∃ name ∈ names, routeId ∈ catalog.pool (catalog.canonicalModelName name).text) ∧
            takes catalog policy job sizingFor routeId) := by
    induction names generalizing start with
    | nil => simp
    | cons name rest induction =>
        rw [List.foldl_cons, induction, addModel, mem_foldl_addRoute, List.exists_mem_cons_iff]
        tauto
  rw [routesEligibleFor, general]
  simp [Reaches]

variable {route : EligibleRoute}

theorem eligibleRoute_of_mem
    (member : route ∈ routesEligibleFor catalog policy job sizingFor structural) :
    ∃ model routeId, eligibleRoute catalog policy job sizingFor model routeId = some route := by
  let looked (eligible : List EligibleRoute) : Prop := ∀ route ∈ eligible, ∃ model routeId,
    eligibleRoute catalog policy job sizingFor model routeId = some route
  have started : looked [] := fun _ absent => absurd absent List.not_mem_nil
  have added (eligible : List EligibleRoute) (model routeId : String) (before : looked eligible) :
      looked (addRoute catalog policy job sizingFor model eligible routeId) := by
    unfold addRoute
    split
    · exact before
    · intro route member
      rcases List.mem_append.mp member with old | new
      · exact before route old
      · exact ⟨model, routeId, Option.mem_toList.mp new⟩
  refine List.foldlRecOn (motive := looked) (modelsForJob structural policy job) _ started
    (fun eligible before name _ => ?_) route member
  exact List.foldlRecOn (motive := looked) _ _ before fun eligible before routeId _ =>
    added eligible _ routeId before

/-- No paused quota is eligible. -/
theorem running_of_mem
    (member : route ∈ routesEligibleFor catalog policy job sizingFor structural) :
    route.stored.rpd ≠ some 0 := by
  obtain ⟨model, routeId, found⟩ := eligibleRoute_of_mem member
  unfold eligibleRoute at found
  split at found
  · split at found
    · cases found
    · split at found
      · cases found
      · next running =>
        split at found <;> cases found
        exact running
  · cases found

end

/-! ## Paused routes -/

def RoutingCatalog.withoutPaused (paused : String → Bool) (catalog : RoutingCatalog) :
    RoutingCatalog :=
  { catalog with
    modelRoutesMap :=
      catalog.modelRoutesMap.mapValues fun routeIds => routeIds.filter fun routeId => !paused routeId }

/-- The same live inputs, with the size of the input left out. -/
def skippingSizeGate (sizingFor : String → StoredRoute → Sizing) (routeId : String)
    (route : StoredRoute) : Sizing :=
  { sizingFor routeId route with skipSizeGate := true }

section

variable {catalog : RoutingCatalog} {policy : RoutingPolicy} {job : JobRow}
  {sizingFor : String → StoredRoute → Sizing} {paused : String → Bool}
  {claimed permitted : List EligibleRoute} {model routeId : String}

theorem pool_withoutPaused :
    (catalog.withoutPaused paused).pool model =
      (catalog.pool model).filter fun routeId => !paused routeId := by
  unfold RoutingCatalog.pool RoutingCatalog.withoutPaused
  rw [Dict.get?_mapValues]
  cases catalog.modelRoutesMap.get? model with
  | none => rfl
  | some routeIds => rfl

theorem canonicalModelName_withoutPaused (name : PolicyName) :
    (catalog.withoutPaused paused).canonicalModelName name = catalog.canonicalModelName name := by
  have same (fuel : Nat) (seen : List PolicyName) (current : PolicyName) :
      (catalog.withoutPaused paused).followAliases fuel seen current =
        catalog.followAliases fuel seen current := by
    induction fuel generalizing seen current with
    | zero => rfl
    | succ fuel induction =>
        unfold RoutingCatalog.followAliases
        simp only [induction]
        rfl
  exact same _ _ _

theorem eligibleRoute_skippingSizeGate {route : EligibleRoute}
    (found : eligibleRoute catalog policy job sizingFor model routeId = some route) :
    eligibleRoute catalog policy job (skippingSizeGate sizingFor) model routeId = some route := by
  unfold eligibleRoute at found ⊢
  split at found
  · next allowed =>
    rw [if_pos allowed]
    split at found
    · cases found
    · next stored listed =>
      split at found
      · cases found
      · next running =>
        split at found
        · next suits =>
          have permitted : stored.suits policy job (skippingSizeGate sizingFor routeId stored) = true := by
            unfold StoredRoute.suits routeFitsContext at suits ⊢
            simp only [decide_eq_true_eq] at suits ⊢
            exact ⟨suits.1, .inl rfl, suits.2.2⟩
          rw [if_neg running, if_pos permitted]
          exact found
        · cases found
  · cases found

/-- What a claim has taken so far is permitted, and it has taken whatever of it runs. -/
structure TakenWithin (catalog : RoutingCatalog) (policy : RoutingPolicy) (job : JobRow)
    (sizingFor : String → StoredRoute → Sizing) (paused : String → Bool)
    (claimed permitted : List EligibleRoute) : Prop where
  subset : claimed ⊆ permitted
  taken : ∀ routeId ∈ permitted.map EligibleRoute.routeId, paused routeId = false →
    takes catalog policy job sizingFor routeId → routeId ∈ claimed.map EligibleRoute.routeId

namespace TakenWithin

theorem addRoute (within : TakenWithin catalog policy job sizingFor paused claimed permitted)
    (running : paused routeId = false) :
    TakenWithin catalog policy job sizingFor paused
      (Dispatch.addRoute catalog policy job sizingFor model claimed routeId)
      (Dispatch.addRoute catalog policy job (skippingSizeGate sizingFor) model permitted routeId) where
  subset := by
    intro route member
    have kept {other : EligibleRoute} (inside : other ∈ permitted) :
        other ∈ Dispatch.addRoute catalog policy job (skippingSizeGate sizingFor) model permitted
          routeId := by
      unfold Dispatch.addRoute
      split
      · exact inside
      · exact List.mem_append_left _ inside
    unfold Dispatch.addRoute at member
    split at member
    · exact kept (within.subset member)
    · next unknown =>
      rcases List.mem_append.mp member with old | new
      · exact kept (within.subset old)
      · have found := Option.mem_toList.mp new
        have fresh : routeId ∉ permitted.map EligibleRoute.routeId := fun known =>
          unknown (within.taken routeId known running ⟨model, by rw [found]; rfl⟩)
        rw [Dispatch.addRoute, if_neg fresh, eligibleRoute_skippingSizeGate found]
        exact List.mem_append_right _ List.mem_cons_self
  taken := by
    intro other member open_ takes
    rw [mem_addRoute] at member ⊢
    rcases member with known | ⟨same, _⟩
    · exact .inl (within.taken other known open_ takes)
    · exact .inr ⟨same, same ▸ takes⟩

theorem addPaused (within : TakenWithin catalog policy job sizingFor paused claimed permitted)
    (stopped : paused routeId = true) :
    TakenWithin catalog policy job sizingFor paused claimed
      (Dispatch.addRoute catalog policy job (skippingSizeGate sizingFor) model permitted routeId) where
  subset := by
    intro route member
    unfold Dispatch.addRoute
    split
    · exact within.subset member
    · exact List.mem_append_left _ (within.subset member)
  taken := by
    intro other member open_ takes
    rcases mem_addRoute.mp member with known | ⟨rfl, _⟩
    · exact within.taken other known open_ takes
    · rw [stopped] at open_
      cases open_

theorem addModel (within : TakenWithin catalog policy job sizingFor paused claimed permitted)
    (name : PolicyName) :
    TakenWithin catalog policy job sizingFor paused
      (Dispatch.addModel (catalog.withoutPaused paused) policy job sizingFor claimed name)
      (Dispatch.addModel catalog policy job (skippingSizeGate sizingFor) permitted name) := by
  unfold Dispatch.addModel
  dsimp only
  rw [pool_withoutPaused, canonicalModelName_withoutPaused]
  generalize (catalog.canonicalModelName name).text = model
  generalize catalog.pool model = routeIds
  induction routeIds generalizing claimed permitted with
  | nil => exact within
  | cons routeId rest induction =>
      cases stopped : paused routeId with
      | true =>
          rw [List.filter_cons_of_neg (by simp [stopped])]
          exact induction (within.addPaused stopped)
      | false =>
          rw [List.filter_cons_of_pos (by simp [stopped])]
          exact induction (within.addRoute stopped)

end TakenWithin

theorem routesEligibleFor_subset :
    routesEligibleFor (catalog.withoutPaused paused) policy job sizingFor catalog ⊆
      routesEligibleFor catalog policy job (skippingSizeGate sizingFor) catalog := by
  have general (names : List PolicyName) (claimed permitted : List EligibleRoute)
      (within : TakenWithin catalog policy job sizingFor paused claimed permitted) :
      names.foldl (addModel (catalog.withoutPaused paused) policy job sizingFor) claimed ⊆
        names.foldl (addModel catalog policy job (skippingSizeGate sizingFor)) permitted := by
    induction names generalizing claimed permitted with
    | nil => exact within.subset
    | cons name rest induction => exact induction _ _ (within.addModel name)
  exact general _ [] [] ⟨List.nil_subset _, fun _ absent => absurd absent List.not_mem_nil⟩

end

/-! ## Agreement -/

section

variable (catalog : RoutingCatalog) (policy : RoutingPolicy) (job : JobRow)

def IndexAgrees : Prop :=
  ∀ model, model ∈ modelsForQueuedJob catalog policy job ↔
    ∃ route ∈ routesEligibleFor catalog policy job (fun _ _ => {}) catalog,
      route.routeId ∈ catalog.pool model

def RoutingCatalog.Unpaused : Prop :=
  ∀ routeId route, catalog.routesById.get? routeId = some route → route.rpd ≠ some 0

/-- The job names the pool, once the padding of its names is off. -/
def NamesPool (model : String) : Prop :=
  ∃ name ∈ modelsForJob catalog policy job, indexedName catalog name = some model

/-- What the index reads of the names and leaves out of the pins makes no difference. -/
structure NamesAsPinned : Prop where
  /-- A named pool that may run the job may run it on a route that is pinned, where
  there are pins, and that a name reaches as it is written. -/
  pinned : ∀ model, NamesPool catalog policy job model →
    (∃ routeId ∈ catalog.pool model, mayRun catalog policy job routeId = true) →
      ∃ routeId ∈ catalog.pool model, mayRun catalog policy job routeId = true ∧
        policy.pinsRoute routeId = true ∧ Reaches catalog catalog policy job routeId
  /-- Such a route is in no pool that the job does not name. -/
  own : ∀ routeId, mayRun catalog policy job routeId = true → policy.pinsRoute routeId = true →
    Reaches catalog catalog policy job routeId → ∀ model, routeId ∈ catalog.pool model →
      NamesPool catalog policy job model

end

section

variable {catalog : RoutingCatalog} {policy : RoutingPolicy} {job : JobRow}

/-- Where nothing is paused, a claim looks at the pins beyond what the index looks at. -/
theorem takes_iff (unpaused : catalog.Unpaused) {routeId : String} :
    takes catalog policy job (fun _ _ => {}) routeId ↔
      policy.pinsRoute routeId = true ∧ mayRun catalog policy job routeId = true := by
  rw [← eligibleRoute_isSome "", eligibleRoute, mayRun, Bool.and_eq_true, Bool.not_eq_true']
  by_cases open_ : policy.pinsRoute routeId ∧ ¬ excludesRoute job routeId
  · rw [if_pos open_]
    have left : excludesRoute job routeId = false := by simpa using open_.2
    cases stored : catalog.routesById.get? routeId with
    | none => simp
    | some route =>
        dsimp only
        rw [if_neg (unpaused routeId route stored), Option.any_some]
        by_cases suits : route.suits policy job {} = true
        · simp [suits, open_.1, left]
        · simp [suits]
  · rw [if_neg open_]
    constructor
    · intro impossible
      cases impossible
    · rintro ⟨pinned, left, _⟩
      exact absurd ⟨pinned, by simp [left]⟩ open_

theorem eligible_iff (unpaused : catalog.Unpaused) {model : String} :
    (∃ route ∈ routesEligibleFor catalog policy job (fun _ _ => {}) catalog,
      route.routeId ∈ catalog.pool model) ↔
      ∃ routeId ∈ catalog.pool model, Reaches catalog catalog policy job routeId ∧
        policy.pinsRoute routeId = true ∧ mayRun catalog policy job routeId = true := by
  have eligible (routeId : String) :
      routeId ∈ (routesEligibleFor catalog policy job (fun _ _ => {}) catalog).map
          EligibleRoute.routeId ↔
        Reaches catalog catalog policy job routeId ∧ policy.pinsRoute routeId = true ∧
          mayRun catalog policy job routeId = true := by
    rw [mem_routesEligibleFor, takes_iff unpaused]
  constructor
  · rintro ⟨route, member, inside⟩
    exact ⟨route.routeId, inside, (eligible _).mp (List.mem_map_of_mem member)⟩
  · rintro ⟨routeId, inside, reached⟩
    obtain ⟨route, member, rfl⟩ := List.mem_map.mp ((eligible routeId).mpr reached)
    exact ⟨route, member, inside⟩

end

/-! ### A pin to the smaller of two routes -/

def contextRoute (inputContextLimit : ℚ) : StoredRoute where
  provider := "provider"
  inputContextLimit := some inputContextLimit
  free := true

def twoContexts : RoutingCatalog where
  modelRoutesMap := [("model", ["small", "large"])]
  routesById := [("small", contextRoute 8192), ("large", contextRoute 131072)]

def pinnedTo (routeId : String) : RoutingPolicy where
  allowedModels := some [⟨"model", true⟩]
  allowedRouteIds := some [⟨routeId, true⟩]

def longJob : JobRow where
  id := "job"
  idempotencyKey := "key"
  requestDigest := "digest"
  inputTokenEstimate := 30000
  maxOutputTokenEstimate := 1000

theorem twoContexts_unpaused : twoContexts.Unpaused := by
  intro routeId route found
  have stored := Dict.get?_eq_some_mem found
  simp only [twoContexts, List.mem_cons, List.not_mem_nil, or_false, Prod.mk.injEq] at stored
  obtain ⟨_, rfl⟩ | ⟨_, rfl⟩ := stored <;> exact nofun

end CityPods.Dispatch
