import CityPods.Judging.Planning

/-! # Judging passes

A pass collects the answers to the questions in flight, imports what people answered,
shrinks its caps to the room left, plans, and submits packets until a cap is met or
`stop` fires.
-/

namespace CityPods.Judging

open Foundation Ledger

def anchorPurpose : String := "judge:anchor"

def siblingPurpose : String := "judge:sibling"

def adjudicatorPurpose : String := "judge:adjudicator"

def purposes : Dict JudgeRole String :=
  [(.anchor, anchorPurpose), (.sibling, siblingPurpose), (.adjudicator, adjudicatorPurpose)]

/-- What happened to packets: one was found waiting, or one was accepted, waiting or with
its result. -/
inductive Event
  | found (purpose model recipe : String)
  | accepted (purpose model recipe : String) (waits : Bool)
  deriving DecidableEq

structure Pass where
  stores : Stores
  runCaps : Dict String Int
  loads : Loads := { recipes := fun _ => ∅, assigned := [], room := [] }
  outstanding : String → Finset String := fun _ => ∅
  checks : Nat := 0
  submissions : Nat := 0
  log : List Event := []
  raised : Bool := false
  complete : List String := []

/-! ## Replies -/

def Asked.text (item : Asked) : String :=
  if item.order = stabilityOrder then
    s!"{item.evidence.text}\n\nAnswer the following about the evidence above, from scratch and " ++
      s!"without assuming an earlier answer: {item.question.instruction}"
  else s!"{item.question.instruction}\n\n{item.evidence.text}"

def Asked.toItem (item : Asked) : Item Asked where
  kind := item.question.kind.name
  subjects := item.subjects.map Subject.subjectId
  asked := fun none => item.about (List.map_eq_nil_iff.mp none)
  text := item.text
  detail := item

def optionOf (item : Asked) (letter : String) : Option String :=
  (item.options.find? fun option => String.ofList [option.1] = letter).map Prod.snd

/-- The value that `JevBackend.parse` reads from an answer. -/
def anchorAnswer (item : Asked) (answer : Answer) : Option PyVal :=
  match item.question.kind with
  | .validate | .gate => (answer.noul.filter fun value => 0 ≤ value ∧ value ≤ 1).map .num
  | .grade => answer.score.map .num
  | .choose => (answer.choice.bind (optionOf item)).map .str

/-- The value that `ChatJudgeBackend.parse` reads from an answer. -/
def chatAnswer (item : Asked) (answer : Answer) : Option PyVal :=
  if answer.kind.all fun kind => decide (kind = item.question.kind.name) then
    match item.question.kind with
    | .validate | .gate => answer.verdict.map .bool
    | .grade =>
        (answer.level.filter fun level => level < item.question.levels.length).map fun level =>
          .num level
    | .choose => (answer.choice.bind (optionOf item)).map .str
  else none

def answerRows (role : JudgeRole) (model : String) (answers : Dict String Answer) (item : Asked) :
    List (Subject × Row) :=
  match answers.get? item.qid with
  | none => []
  | some answer =>
      match if role = .anchor then anchorAnswer item answer else chatAnswer item answer with
      | none => []
      | some value =>
          item.subjects.map fun subject =>
            (subject,
              { key := item.key subject model
                judgeRole := role
                value := value
                reason := if role = .anchor then none else answer.reason.filter (· ≠ "") })

def appendRows (stores : Stores) (rows : List (Subject × Row)) : Stores :=
  rows.foldl (fun stores row => (appendJudgment stores row.1 row.2).2) stores

/-! ## Collecting -/

def baseQuestionId (questionId : String) : String :=
  let chars := questionId.toList
  if "_r".toList.isSuffixOf chars ∨ stabilityOrder.toList.isSuffixOf chars then
    String.ofList (chars.take (chars.length - 2))
  else questionId

def probePrefix : String := "probe:"

def isProbeSubject (subjectId : String) : Bool := probePrefix.toList.isPrefixOf subjectId.toList

section

variable (ctx : JudgingContext)

/-- `task(name).question(id)`, where both are registered. -/
def registered (name questionId : String) : Option QuestionSpec :=
  (ctx.tasks.find? fun spec => decide (spec.name = name)).bind fun spec =>
    spec.questions.find? fun question => decide (question.id = questionId)

def recordOf (recipe : String) : Record := if recipe = "" then .missing else ctx.lookUp recipe

/-- The packet waits at the Worker, or its record cannot be read. -/
def waits (recipe : String) : Bool :=
  match recordOf ctx recipe with
  | .handle | .unreadable => true
  | _ => false

def Pass.find (pass : Pass) (marker : Marker) : Pass :=
  let recipes := Function.update pass.loads.recipes marker.key.judgeModel
    (insert marker.recipeHash (pass.loads.recipes marker.key.judgeModel))
  { pass with
    outstanding := Function.update pass.outstanding marker.purpose
      (insert marker.recipeHash (pass.outstanding marker.purpose))
    loads :=
      if marker.purpose = siblingPurpose then { pass.loads with recipes := recipes } else pass.loads
    log := pass.log ++ [.found marker.purpose marker.key.judgeModel marker.recipeHash] }

theorem Pass.outstanding_find (pass : Pass) (marker : Marker) :
    (pass.find marker).outstanding = Function.update pass.outstanding marker.purpose
      (insert marker.recipeHash (pass.outstanding marker.purpose)) := rfl

theorem Pass.recipes_find (pass : Pass) (marker : Marker) :
    (pass.find marker).loads.recipes =
      if marker.purpose = siblingPurpose then
        Function.update pass.loads.recipes marker.key.judgeModel
          (insert marker.recipeHash (pass.loads.recipes marker.key.judgeModel))
      else pass.loads.recipes := by
  by_cases sibling : marker.purpose = siblingPurpose <;> simp [Pass.find, sibling]

theorem Pass.log_find (pass : Pass) (marker : Marker) :
    (pass.find marker).log =
      pass.log ++ [.found marker.purpose marker.key.judgeModel marker.recipeHash] := rfl

def markedItem (subject : Subject) (marker : Marker) (question : QuestionSpec) : Asked where
  question := question
  tier := marker.key.contextTier
  evidence := ⟨marker.key.contextTier, "", marker.key.evidenceDigest⟩
  subjects := [subject]
  about := Asked.about_single subject
  sample := marker.sample
  options := marker.options
  order := String.ofList (marker.key.questionId.toList.drop question.id.toList.length)
  askedQid := marker.qid

def checkedRow (evidence : Rebuilt) (row : Row) : Row :=
  let quoteValid :=
    match evidence with
    | .text text => some (ctx.quoteValid row.reason text)
    | _ => row.quoteValid
  { row with
    quoteValid := quoteValid
    reason := row.reason.map fun reason => String.ofList (reason.toList.take 300) }

/-- Record the reply to a marker, unless its quote cannot be checked yet. -/
def collectReply (subject : Subject) (pass : Pass) (marker : Marker) (answers : Dict String Answer) :
    Pass :=
  match registered ctx subject.task (baseQuestionId marker.key.questionId) with
  | none => { pass with raised := true }
  | some question =>
      let rows := answerRows marker.judgeRole marker.key.judgeModel answers
        (markedItem subject marker question)
      if marker.judgeRole = .anchor ∨ rows.isEmpty then
        { pass with stores := appendRows (dropPending pass.stores subject marker) rows }
      else
        match ctx.rebuilt subject marker with
        | .deferred => pass
        | evidence =>
            { pass with
              stores := appendRows (dropPending pass.stores subject marker)
                (rows.map fun row => (row.1, checkedRow ctx evidence row.2)) }

def collectMarker (subject : Subject) (pass : Pass) (marker : Marker) : Pass :=
  if pass.raised then pass
  else
    match recordOf ctx marker.recipeHash with
    | .handle | .unreadable => pass.find marker
    | .missing => { pass with stores := dropPending pass.stores subject marker }
    | .result answers => collectReply ctx subject pass marker answers

def collectSubject (pass : Pass) (subject : Subject) : Pass :=
  (pending pass.stores subject).foldl (collectMarker ctx subject) pass

def blocksOf (subjects : List Subject) : List (Nat × String) :=
  subjects.foldl (fun blocks subject => Dict.set blocks subject.store subject.episodeUid) []

def probeSubjects (stores : Stores) (subjects : List Subject) : List Subject :=
  (blocksOf subjects).flatMap fun block =>
    ((stores block.1).filter fun entry =>
      isProbeSubject entry.1 && !entry.2.pending.isEmpty).map fun entry =>
        { task := entry.2.task, subjectId := entry.1, episodeUid := block.2, group := none
          producerModel := none, payload := [], store := block.1 }

def supersededMarkers (stores : Stores) (subjects : List Subject) : List Marker :=
  (blocksOf subjects).flatMap fun block =>
    ((stores block.1).filter fun entry =>
      decide (entry.1 ∉ subjects.map Subject.subjectId) && !isProbeSubject entry.1).flatMap
        fun entry => entry.2.pending

def countSuperseded (pass : Pass) (subjects : List Subject) : Pass :=
  if pass.raised then pass
  else
    (supersededMarkers pass.stores subjects).foldl
      (fun pass marker => if waits ctx marker.recipeHash then pass.find marker else pass) pass

def collect (pass : Pass) (subjects : List Subject) : Pass :=
  countSuperseded ctx
    ((subjects ++ probeSubjects pass.stores subjects).foldl (collectSubject ctx) pass) subjects

/-- Append the answers of people to the ledgers of their subjects. -/
def importAudit (stores : Stores) (subjects : List Subject) : Stores :=
  appendRows stores (subjects.flatMap fun subject =>
    ((ctx.auditRows.get? subject.subjectId).getD []).map fun row => (subject, row))

/-! ## Limits -/

/-- The packets that each sibling may still take under the limit. -/
def siblingRooms (recipes : String → Finset String) (limit : Int) : Dict String Int :=
  ctx.sibling.models.foldl
    (fun rooms model => Dict.set rooms model (max 0 (limit - (recipes model).card))) []

/-- What the room that a limit leaves makes of a purpose's run cap. -/
def leftFor (pass : Pass) (purpose : String) (limit : Int) : Int :=
  let room :=
    if purpose = siblingPurpose then (siblingRooms ctx pass.loads.recipes limit).values.sum
    else max 0 (limit - (pass.outstanding purpose).card)
  match pass.runCaps.get? purpose with
  | none => room
  | some left => min left room

def applyLimit (pass : Pass) (limited : String × Int) : Pass :=
  { pass with
    loads :=
      if limited.1 = siblingPurpose then
        { pass.loads with
          room := pass.loads.room.update (siblingRooms ctx pass.loads.recipes limited.2) }
      else pass.loads
    runCaps := pass.runCaps.set limited.1 (leftFor ctx pass limited.1 limited.2) }

def applyBackpressure (pass : Pass) : Pass :=
  ctx.maxOutstanding.foldl (applyLimit ctx) { pass with loads := { pass.loads with room := [] } }

/-- Items that a pass can submit: the packets left times the fullest packet. -/
def itemBudget (runCaps : Dict String Int) : Option ItemBudget :=
  match runCaps.get? anchorPurpose, runCaps.get? siblingPurpose with
  | some anchorLeft, some siblingLeft =>
      let siblingItems := (ctx.sibling.models.map fun model => (siblingCeiling model).2).max?
      some
        { anchor := max 0 anchorLeft * 60
          sibling := max 0 siblingLeft * siblingItems.getD defaultSiblingCeiling.2 }
  | _, _ => none

def adjudicatorBudget (runCaps : Dict String Int) : Option Int :=
  (runCaps.get? adjudicatorPurpose).map fun left => max 0 left * 20

/-! ## Probes -/

def probeSubject (probe : Probe) (host : Subject) : Subject where
  task := probe.task
  subjectId := probePrefix ++ probe.id
  episodeUid := host.episodeUid
  group := none
  producerModel := none
  payload := []
  store := host.store

def probeItem (host : Subject) (probe : Probe) (question : QuestionSpec) : Asked :=
  Asked.single question probe.tier (makeEvidence probe.tier probe.evidence) (probeSubject probe host)
    .probe ""

/-- The probes for one judge that were not asked of it yet, as many as a pass asks; `none`
where a probe's question is not registered. -/
def dueProbes (stores : Stores) (model : String) (host : Subject) : Option (List Asked) :=
  let salted := fun probe : Probe => sha256Hex s!"{probe.id}|{model}|{host.subjectId}"
  (ctx.probes.insertionSort fun probe other => salted probe ≤ salted other).foldlM
    (fun items probe =>
      if ctx.probesPerPass ≤ items.length then some items
      else
        (registered ctx probe.task probe.questionId).map fun question =>
          let item := probeItem host probe question
          if hasKey stores item.first (item.key item.first model) then items else items ++ [item])
    []

/-- Mix due probes into each judge's units; only a judge with live work gets any. -/
def addProbes (stores : Stores) (units : Units) : Option Units :=
  if ctx.probes = [] ∨ ctx.probesPerPass ≤ 0 then some units
  else
    units.foldlM
      (fun mixed entry =>
        match entry.2.flatten with
        | [] => some mixed
        | item :: _ =>
            (dueProbes ctx stores entry.1.2 item.first).map fun probes =>
              probes.foldl (fun mixed probe => mixed.add entry.1 [probe]) mixed)
      units

/-! ## Submitting -/

/-- One packet less of the run cap, if there is one left. -/
def takeRunSlot (runCaps : Dict String Int) (purpose : String) : Option (Dict String Int) :=
  match runCaps.get? purpose with
  | none => some runCaps
  | some left => if left ≤ 0 then none else some (runCaps.set purpose (left - 1))

def returnRunSlot (runCaps : Dict String Int) (purpose : String) : Dict String Int :=
  match runCaps.get? purpose with
  | none => runCaps
  | some left => runCaps.set purpose (left + 1)

def markerOf (packet : Packet Asked) (role : JudgeRole) (recipe : String) (item : Asked)
    (subject : Subject) : Marker where
  key := item.key subject packet.judgeModel
  qid := item.qid
  judgeRole := role
  purpose := packet.purpose
  recipeHash := recipe
  sample := item.sample
  options := item.options

def addMarkers (stores : Stores) (packet : Packet Asked) (role : JudgeRole) (recipe : String) :
    Stores :=
  (packet.items.flatMap fun item => item.detail.subjects.map fun subject => (item.detail, subject)).foldl
    (fun stores asked => addPending stores asked.2 (markerOf packet role recipe asked.1 asked.2)) stores

def takeRoom (loads : Loads) (role : JudgeRole) (model : String) : Loads :=
  match role, loads.room.get? model with
  | .sibling, some room => { loads with room := loads.room.set model (room - 1) }
  | _, _ => loads

def afterSubmit (role : JudgeRole) (packet : Packet Asked) (pass : Pass) : Pass :=
  let submitted := { pass with submissions := pass.submissions + 1 }
  let taken := { submitted with loads := takeRoom pass.loads role packet.judgeModel }
  let accepted := fun waiting =>
    pass.log ++ [.accepted packet.purpose packet.judgeModel (ctx.recipeHash packet) waiting]
  match ctx.submit pass.submissions packet with
  | .raises => { submitted with runCaps := returnRunSlot pass.runCaps packet.purpose }
  | .result answers =>
      { taken with
        stores := appendRows pass.stores
          (packet.items.flatMap fun item => answerRows role packet.judgeModel answers item.detail)
        log := accepted false }
  | .handle =>
      { taken with
        stores := addMarkers pass.stores packet role (ctx.recipeHash packet)
        log := accepted true }
  | .other => taken

/-- Submit the packets of one judge; whether `stop` fired. -/
def submitPackets (role : JudgeRole) : List (Packet Asked) → Pass → Pass × Bool
  | [], pass => (pass, false)
  | packet :: later, pass =>
      let checked := { pass with checks := pass.checks + 1 }
      if ctx.stop pass.checks then (checked, true)
      else if role = .sibling ∧ (checked.loads.room.get? packet.judgeModel).getD 1 ≤ 0 then
        (checked, false)
      else
        match takeRunSlot checked.runCaps packet.purpose with
        | none => (checked, false)
        | some runCaps =>
            let slotted := { checked with runCaps := runCaps }
            if ctx.dryRun then
              submitPackets role later
                { slotted with loads := takeRoom checked.loads role packet.judgeModel }
            else submitPackets role later (afterSubmit ctx role packet slotted)

/-- The units of the judges in the order of their roles and models. -/
def sortedUnits (units : Units) : Units :=
  units.insertionSort fun entry other =>
    entry.1.1.name < other.1.1.name ∨ entry.1.1 = other.1.1 ∧ entry.1.2 ≤ other.1.2

/-- Pack and submit the units of each judge, until `stop` fires or a step raises. -/
def submitUnits : Units → Pass → Pass
  | [], pass => pass
  | ((role, model), judgeUnits) :: later, pass =>
      match purposes.get? role with
      | none => { pass with raised := true }
      | some purpose =>
          match pack (ctx.backendFor role model) (judgeUnits.map fun unit => unit.map Asked.toItem)
              purpose role.name model with
          | none => { pass with raised := true }
          | some packed =>
              match submitPackets ctx role packed.packets pass with
              | (stopped, true) => stopped
              | (pass, false) => submitUnits later pass

/-! ## Runs -/

def subjectsOf (ep : Episode) : List Subject := ctx.tasks.flatMap fun spec => spec.subjects ep

def episodesIn (units : Units) : List String :=
  units.flatMap fun entry => entry.2.flatten.flatMap fun item => item.subjects.map Subject.episodeUid

/-- An episode is complete when nothing is due and nothing is in flight for it. Only the
episodes that were planned are looked at. Of the loads, planning changes the assignments. -/
def finish (episodes : List Episode) (planned : Planning) (pass : Pass) : Pass :=
  let reached := episodes.filter fun ep => decide (ep.uid ∈ planned.planned)
  let again := plan ctx none reached { stores := pass.stores, loads := pass.loads }
  let followUp := planAdjudication ctx none reached again
  let due := episodesIn again.units ++ episodesIn followUp.units
  let complete := reached.filter fun ep =>
    !(subjectsOf ctx ep).isEmpty && decide (ep.uid ∉ due) && decide (ep.uid ∉ planned.unavailable) &&
      (subjectsOf ctx ep).all fun subject => (pending followUp.stores subject).isEmpty
  { pass with
    stores := followUp.stores
    loads := { pass.loads with assigned := followUp.loads.assigned }
    complete := complete.map Episode.uid }

def Units.extend (units followUp : Units) : Units :=
  followUp.foldl (fun units entry => entry.2.foldl (fun units unit => units.add entry.1 unit) units)
    units

def recentFirst (episodes : List Episode) : List Episode :=
  episodes.insertionSort fun ep other => other.published ≤ ep.published

def planPass (episodes : List Episode) (pass : Pass) : Planning × Option Units :=
  let planned := plan ctx (some (itemBudget ctx pass.runCaps)) episodes
    { stores := pass.stores, loads := pass.loads }
  let followUp := planAdjudication ctx (some (adjudicatorBudget pass.runCaps)) episodes planned
  (followUp, addProbes ctx followUp.stores (planned.units.extend followUp.units))

/-- What a pass starts with: the markers collected, the answers of people imported, the
caps shrunk. -/
def beginPass (episodes : List Episode) (stores : Stores) (runCaps : Dict String Int) : Pass :=
  let subjects := episodes.flatMap (subjectsOf ctx)
  let collected := collect ctx { stores := stores, runCaps := runCaps } subjects
  if collected.raised then collected
  else applyBackpressure ctx { collected with stores := importAudit ctx collected.stores subjects }

def run (episodes : List Episode) (stores : Stores) (runCaps : Dict String Int) : Pass :=
  let ordered := recentFirst episodes
  let begun := beginPass ctx ordered stores runCaps
  if begun.raised then begun
  else
    let (planning, units) := planPass ctx ordered begun
    let pass :=
      { begun with
        stores := planning.stores
        loads := { begun.loads with assigned := planning.loads.assigned }
        checks := planning.checks }
    match units with
    | none => { pass with raised := true }
    | some units =>
        let submitted := submitUnits ctx (sortedUnits units) pass
        if submitted.raised then submitted else finish ctx ordered planning submitted

end

end CityPods.Judging
