import CityPods.Foundation.Bins
import CityPods.Foundation.Dict
import Mathlib.Data.List.MinMax

/-! # Packing judge items into packets

Units are packed whole when they fit. A unit that is too large is split into its
parts, a part into its items, and only an item that is too large by itself is
skipped.
-/

namespace CityPods.Judging

open Foundation

/-- One question about one subject, or about the subjects of a group. The `detail`
is what only a judge's wire format looks at. -/
structure Item (Detail : Type) where
  kind : String
  subjects : List String
  asked : subjects ≠ []
  text : String
  detail : Detail

structure Packet (Detail : Type) where
  purpose : String
  role : String
  judgeModel : String
  items : List (Item Detail)

structure PackResult (Detail : Type) where
  packets : List (Packet Detail)
  payloadTooLarge : Nat
  unitsSplit : Nat

/-- A judge, with the attributes that it may lack. -/
structure Backend (Detail : Type) where
  maxQuestionTokens : Int
  maxTotalTokens : Int
  maxItems : Int
  itemTokens : Option (Item Detail → Int)
  packetInputEstimate : Option (List (Item Detail) → Int)
  allowSingleItemOverflow : Bool
  overflowInputLimit : Option Int

variable {Detail : Type}

def estimateTokens (text : String) : Int := max 1 (text.length / 4)

section

variable (backend : Backend Detail)

def itemSize (item : Item Detail) : Int :=
  match backend.itemTokens with
  | some sizer => sizer item
  | none => estimateTokens item.text

def totalSize (items : List (Item Detail)) : Int :=
  match backend.packetInputEstimate with
  | some sizer => sizer items
  | none => (items.map (itemSize backend)).sum

def fits (items : List (Item Detail)) : Bool :=
  match (items.map (itemSize backend)).max? with
  | none => false
  | some largest =>
      largest ≤ backend.maxQuestionTokens && totalSize backend items ≤ backend.maxTotalTokens &&
        items.length ≤ backend.maxItems

def isChoose (item : Item Detail) : Bool := item.kind == "choose"

def firstSubject (item : Item Detail) : String := item.subjects.head item.asked

/-- The choose items as one part, then each candidate's items as one part. -/
def splitUnit (unit : List (Item Detail)) : List (List (Item Detail)) :=
  let choose := unit.filter isChoose
  (if choose.isEmpty then [] else [choose]) ++
    (Dict.groupOn firstSubject (unit.filter fun item => !isChoose item)).values

/-- Whether an item that does not fit is admitted by itself; `none` where the judge
has an overflow limit and no estimate to hold against it. -/
def overflows (item : Item Detail) : Option Bool :=
  if backend.allowSingleItemOverflow then
    match backend.overflowInputLimit with
    | none => some false
    | some limit => backend.packetInputEstimate.map fun estimate => decide (estimate [item] ≤ limit)
  else some false

structure Packing (Detail : Type) where
  bins : Bins (Item Detail)
  tooLarge : Nat
  split : Nat

def place (packing : Packing Detail) (items : List (Item Detail)) : Packing Detail :=
  { packing with bins := packing.bins.place (fits backend) items }

def packItem (packing : Packing Detail) (item : Item Detail) : Option (Packing Detail) :=
  if fits backend [item] then some (place backend packing [item])
  else
    (overflows backend item).map fun admitted =>
      if admitted then { packing with bins := packing.bins.placeAlone [item] }
      else { packing with tooLarge := packing.tooLarge + 1 }

def packPart (packing : Packing Detail) (part : List (Item Detail)) : Option (Packing Detail) :=
  if fits backend part then some (place backend packing part)
  else part.foldlM (packItem backend) packing

def packUnit (packing : Packing Detail) (unit : List (Item Detail)) : Option (Packing Detail) :=
  if unit.isEmpty then some packing
  else if fits backend unit then some (place backend packing unit)
  else if 1 < unit.length then
    (splitUnit unit).foldlM (packPart backend) { packing with split := packing.split + 1 }
  else [unit].foldlM (packPart backend) packing

def pack (units : List (List (Item Detail))) (purpose role judgeModel : String) :
    Option (PackResult Detail) :=
  (units.foldlM (packUnit backend) ⟨.empty, 0, 0⟩).map fun packing =>
    { packets := packing.bins.flush.closed.map fun items => ⟨purpose, role, judgeModel, items⟩
      payloadTooLarge := packing.tooLarge
      unitsSplit := packing.split }

end

/-! ## Limits -/

section

variable (backend : Backend Detail)

structure WithinLimits (items : List (Item Detail)) : Prop where
  nonempty : items ≠ []
  questions : ∀ item ∈ items, itemSize backend item ≤ backend.maxQuestionTokens
  total : totalSize backend items ≤ backend.maxTotalTokens
  count : items.length ≤ backend.maxItems

variable {backend}

theorem fits_iff {items : List (Item Detail)} :
    fits backend items = true ↔ WithinLimits backend items := by
  cases largest : (items.map (itemSize backend)).max? with
  | none =>
      have blank : items = [] := by simpa using largest
      rw [fits, largest]
      exact ⟨fun fitting => absurd fitting Bool.false_ne_true,
        fun within => absurd blank within.nonempty⟩
  | some size =>
      have found := List.max?_eq_some_iff.mp largest
      have present : items ≠ [] := by
        intro blank
        rw [blank] at largest
        cases largest
      have every : size ≤ backend.maxQuestionTokens ↔
          ∀ item ∈ items, itemSize backend item ≤ backend.maxQuestionTokens := by
        constructor
        · intro below item member
          exact (found.2 _ (List.mem_map_of_mem member)).trans below
        · intro each
          obtain ⟨item, member, same⟩ := List.mem_map.mp found.1
          rw [← same]
          exact each item member
      rw [fits, largest]
      simp only [Bool.and_eq_true, decide_eq_true_eq, every]
      exact ⟨fun parts => ⟨present, parts.1.1, parts.1.2, parts.2⟩,
        fun within => ⟨⟨within.questions, within.total⟩, within.count⟩⟩

end

/-! ## Chunks -/

section

variable (backend : Backend Detail)

/-- A packet that may be sent: within the limits, or an indivisible item that the
overflow rule admits. -/
def Sendable (items : List (Item Detail)) : Prop :=
  WithinLimits backend items ∨
    ∃ item, items = [item] ∧ ¬ WithinLimits backend [item] ∧ overflows backend item = some true

def TooLarge (item : Item Detail) : Prop :=
  ¬ WithinLimits backend [item] ∧ overflows backend item = some false

def sentAlone (item : Item Detail) : Bool :=
  fits backend [item] || overflows backend item == some true

/-- What stays together of a part that may not fit. -/
def partChunks (part : List (Item Detail)) : List (List (Item Detail)) :=
  if fits backend part then [part] else (part.filter (sentAlone backend)).map fun item => [item]

def partSkipped (part : List (Item Detail)) : List (Item Detail) :=
  if fits backend part then [] else part.filter fun item => !sentAlone backend item

def unitParts (unit : List (Item Detail)) : List (List (Item Detail)) :=
  if unit.isEmpty then []
  else if fits backend unit then [unit]
  else if 1 < unit.length then splitUnit unit
  else [unit]

/-- The runs of items of a unit that packing does not divide, in the order in which
they are packed. -/
def unitChunks (unit : List (Item Detail)) : List (List (Item Detail)) :=
  (unitParts backend unit).flatMap (partChunks backend)

def unitSkipped (unit : List (Item Detail)) : List (Item Detail) :=
  (unitParts backend unit).flatMap (partSkipped backend)

variable {backend}

theorem splitUnit_perm (unit : List (Item Detail)) : (splitUnit unit).flatten.Perm unit := by
  have groups : (Dict.groupOn firstSubject (unit.filter fun item => !isChoose item)).values.flatten.Perm
      (unit.filter fun item => !isChoose item) := by
    rw [Dict.values, ← List.flatMap_def]
    exact Dict.grouped_groupOn_perm firstSubject _
  have chosen : (if (unit.filter isChoose).isEmpty then []
      else [unit.filter isChoose]).flatten = unit.filter isChoose := by
    split
    · next blank => rw [List.isEmpty_iff.mp blank]; rfl
    · simp
  rw [splitUnit, List.flatten_append, chosen]
  exact (groups.append_left _).trans (List.filter_append_perm isChoose unit)

theorem partChunks_perm (part : List (Item Detail)) :
    ((partChunks backend part).flatten ++ partSkipped backend part).Perm part := by
  rw [partChunks, partSkipped]
  split
  · simp
  · have singles : ((part.filter (sentAlone backend)).map fun item => [item]).flatten =
        part.filter (sentAlone backend) := by
      rw [← List.flatMap_def, List.flatMap_singleton']
    rw [singles]
    exact List.filter_append_perm _ part

variable {ι : Type}

theorem perm_flatMap_append {first : ι → List (List (Item Detail))}
    {second : ι → List (Item Detail)} (whole : ι → List (Item Detail)) (items : List ι)
    (each : ∀ item ∈ items, ((first item).flatten ++ second item).Perm (whole item)) :
    ((items.flatMap first).flatten ++ items.flatMap second).Perm (items.flatMap whole) := by
  induction items with
  | nil => simp
  | cons head rest induction =>
      have later := induction fun item member => each item (List.mem_cons_of_mem _ member)
      have now := each head (List.mem_cons_self ..)
      simp only [List.flatMap_cons, List.flatten_append, List.append_assoc]
      refine List.Perm.trans ?_ (now.append later)
      rw [List.append_assoc]
      refine List.Perm.append_left _ ?_
      rw [← List.append_assoc, ← List.append_assoc]
      exact List.perm_append_comm.append_right _

theorem unitParts_perm (unit : List (Item Detail)) : (unitParts backend unit).flatten.Perm unit := by
  rw [unitParts]
  split
  · next blank => rw [List.isEmpty_iff.mp blank]; rfl
  · split
    · simp
    · split
      · exact splitUnit_perm unit
      · simp

theorem unitChunks_perm (unit : List (Item Detail)) :
    ((unitChunks backend unit).flatten ++ unitSkipped backend unit).Perm unit := by
  have each : ∀ part ∈ unitParts backend unit,
      ((partChunks backend part).flatten ++ partSkipped backend part).Perm part :=
    fun part _ => partChunks_perm part
  have parts := perm_flatMap_append (fun part => part) (unitParts backend unit) each
  rw [List.flatMap_id'] at parts
  exact parts.trans (unitParts_perm unit)

/-! ## The run -/

structure Packed (backend : Backend Detail) (packing : Packing Detail) (chunks : List (List (Item Detail)))
    (skipped : List (Item Detail)) : Prop where
  holds : packing.bins.Holds (Sendable backend) chunks
  counted : packing.tooLarge = skipped.length
  rejected : ∀ item ∈ skipped, TooLarge backend item

variable {packing next : Packing Detail} {chunks : List (List (Item Detail))}
  {skipped : List (Item Detail)}

theorem Packed.place (packed : Packed backend packing chunks skipped) {items : List (Item Detail)}
    (fitting : fits backend items = true) :
    Packed backend (place backend packing items) (chunks ++ [items]) skipped where
  holds := packed.holds.place (fits_iff.mp fitting).nonempty
    (fun _ joined => .inl (fits_iff.mp joined)) fitting
  counted := packed.counted
  rejected := packed.rejected

/-- An item that stands alone goes into a packet, or it is counted as too large. -/
theorem Packed.packItem (packed : Packed backend packing chunks skipped) {item : Item Detail}
    (returned : packItem backend packing item = some next) :
    Packed backend next
      (chunks ++ ([item].filter (sentAlone backend)).map fun item => [item])
      (skipped ++ [item].filter fun item => !sentAlone backend item) := by
  rw [Judging.packItem] at returned
  split at returned
  · next fitting =>
      cases returned
      have sent : sentAlone backend item = true := by simp [sentAlone, fitting]
      simp only [List.filter_cons, sent, if_true, List.filter_nil, List.map_cons, List.map_nil,
        Bool.not_true, Bool.false_eq_true, if_false, List.append_nil]
      exact packed.place fitting
  · next large =>
      have above : ¬ WithinLimits backend [item] := fun within => large (fits_iff.mpr within)
      obtain ⟨admitted, found, same⟩ := Option.map_eq_some_iff.mp returned
      subst same
      cases admitted with
      | true =>
          have sent : sentAlone backend item = true := by simp [sentAlone, found]
          simp only [List.filter_cons, sent, if_true, List.filter_nil, List.map_cons,
            List.map_nil, Bool.not_true, Bool.false_eq_true, if_false, List.append_nil]
          exact ⟨packed.holds.placeAlone (.inr ⟨item, rfl, above, found⟩), packed.counted,
            packed.rejected⟩
      | false =>
          have unsent : sentAlone backend item = false := by
            simp [sentAlone, found, Bool.eq_false_iff.mpr large]
          simp only [List.filter_cons, unsent, Bool.false_eq_true, if_false, List.filter_nil,
            List.map_nil, List.append_nil, Bool.not_false, if_true]
          refine ⟨packed.holds, ?_, fun other member => ?_⟩
          · simp [packed.counted]
          · rcases List.mem_append.mp member with before | this
            · exact packed.rejected other before
            · rw [List.mem_singleton.mp this]
              exact ⟨above, found⟩

theorem Packed.fold {step : Packing Detail → ι → Option (Packing Detail)}
    {chunksOf : ι → List (List (Item Detail))} {skippedOf : ι → List (Item Detail)}
    (steps : ∀ {packing chunks skipped item next}, Packed backend packing chunks skipped →
      step packing item = some next →
      Packed backend next (chunks ++ chunksOf item) (skipped ++ skippedOf item))
    {items : List ι} (packed : Packed backend packing chunks skipped)
    (returned : items.foldlM step packing = some next) :
    Packed backend next (chunks ++ items.flatMap chunksOf) (skipped ++ items.flatMap skippedOf) := by
  induction items generalizing packing chunks skipped with
  | nil =>
      cases returned
      simpa using packed
  | cons head rest induction =>
      rw [List.foldlM_cons] at returned
      obtain ⟨middle, stepped, continued⟩ := Option.bind_eq_some_iff.mp returned
      have later := induction (steps packed stepped) continued
      simpa only [List.flatMap_cons, List.append_assoc] using later

theorem flatMap_filter_singleton {α : Type} (keep : α → Bool) (items : List α) :
    (items.flatMap fun item => [item].filter keep) = items.filter keep := by
  induction items with
  | nil => rfl
  | cons head rest induction =>
      rw [List.flatMap_cons, induction]
      cases kept : keep head <;> simp [kept]

variable {part : List (Item Detail)}

theorem Packed.packPart (packed : Packed backend packing chunks skipped)
    (returned : packPart backend packing part = some next) :
    Packed backend next (chunks ++ partChunks backend part) (skipped ++ partSkipped backend part) := by
  rw [Judging.packPart] at returned
  rw [partChunks, partSkipped]
  split at returned
  · next fitting =>
      cases returned
      rw [if_pos fitting, if_pos fitting, List.append_nil]
      exact packed.place fitting
  · next large =>
      rw [if_neg large, if_neg large]
      have folded := packed.fold (fun packed returned => packed.packItem returned) returned
      rw [flatMap_filter_singleton, ← List.map_flatMap, flatMap_filter_singleton] at folded
      exact folded

variable {unit : List (Item Detail)}

theorem Packed.packUnit (packed : Packed backend packing chunks skipped)
    (returned : packUnit backend packing unit = some next) :
    Packed backend next (chunks ++ unitChunks backend unit) (skipped ++ unitSkipped backend unit) := by
  rw [Judging.packUnit] at returned
  rw [unitChunks, unitSkipped, unitParts]
  split at returned
  · next blank =>
      cases returned
      rw [if_pos blank, List.flatMap_nil, List.flatMap_nil, List.append_nil, List.append_nil]
      exact packed
  · next present =>
      rw [if_neg present]
      split at returned
      · next fitting =>
          cases returned
          rw [if_pos fitting, List.flatMap_singleton, List.flatMap_singleton, partChunks,
            partSkipped, if_pos fitting, if_pos fitting, List.append_nil]
          exact packed.place fitting
      · next large =>
          rw [if_neg large]
          split at returned
          · next several =>
              rw [if_pos several]
              have counting : Packed backend { packing with split := packing.split + 1 } chunks
                  skipped := ⟨packed.holds, packed.counted, packed.rejected⟩
              exact counting.fold (fun packed returned => packed.packPart returned) returned
          · next single =>
              rw [if_neg single]
              exact packed.fold (fun packed returned => packed.packPart returned) returned

theorem splitUnit_singleton (item : Item Detail) : splitUnit [item] = [[item]] := by
  cases chosen : isChoose item with
  | true => simp [splitUnit, chosen, Dict.groupOn, Dict.values]
  | false => simp [splitUnit, chosen, Dict.groupOn, Dict.addToGroup, Dict.set, Dict.values]

theorem mem_partChunks (within : WithinLimits backend part) :
    part ∈ partChunks backend part := by
  rw [partChunks, if_pos (fits_iff.mpr within)]
  exact List.mem_singleton_self part

theorem mem_unitChunks (within : WithinLimits backend unit) :
    unit ∈ unitChunks backend unit := by
  have present : ¬ unit.isEmpty = true := fun blank =>
    within.nonempty (List.isEmpty_iff.mp blank)
  refine List.mem_flatMap.mpr ⟨unit, ?_, mem_partChunks within⟩
  rw [unitParts, if_neg present, if_pos (fits_iff.mpr within)]
  exact List.mem_singleton_self unit

theorem part_mem_unitChunks (large : ¬ WithinLimits backend unit)
    (member : part ∈ splitUnit unit) (within : WithinLimits backend part) :
    part ∈ unitChunks backend unit := by
  refine List.mem_flatMap.mpr ⟨part, ?_, mem_partChunks within⟩
  have unfit : ¬ fits backend unit = true := fun fitting => large (fits_iff.mp fitting)
  match unit, member with
  | [], member => simp [splitUnit, Dict.groupOn, Dict.values] at member
  | [item], member =>
      rw [splitUnit_singleton, List.mem_singleton] at member
      exact absurd (member ▸ within) large
  | first :: second :: rest, member =>
      rw [unitParts, if_neg (by simp), if_neg unfit, if_pos (by simp)]
      exact member

/-- A packing that loses and repeats nothing. -/
structure Packs (backend : Backend Detail) (units : List (List (Item Detail)))
    (result : PackResult Detail) : Prop where
  /-- Every item is in one packet, or counted because it fits nowhere. -/
  accounted : ∃ skipped : List (Item Detail),
    skipped.length = result.payloadTooLarge ∧
    (result.packets.flatMap Packet.items ++ skipped).Perm units.flatten ∧
    ∀ item ∈ skipped, TooLarge backend item
  sendable : ∀ packet ∈ result.packets, Sendable backend packet.items
  /-- The packets are the undivided chunks of the units, one after another. -/
  undivided : ∃ groups : List (List (List (Item Detail))),
    result.packets.map Packet.items = groups.map List.flatten ∧
      groups.flatten = units.flatMap (unitChunks backend)
  wholeUnits : ∀ unit ∈ units, WithinLimits backend unit →
    ∃ packet ∈ result.packets, unit <:+: packet.items
  wholeParts : ∀ unit ∈ units, ¬ WithinLimits backend unit → ∀ part ∈ splitUnit unit,
    WithinLimits backend part → ∃ packet ∈ result.packets, part <:+: packet.items

theorem pack_packs {units : List (List (Item Detail))} {purpose role judgeModel : String}
    {result : PackResult Detail}
    (returned : pack backend units purpose role judgeModel = some result) :
    Packs backend units result := by
  obtain ⟨last, folded, same⟩ := Option.map_eq_some_iff.mp returned
  have start : Packed backend ⟨.empty, 0, 0⟩ [] [] :=
    ⟨Bins.Holds.empty, rfl, fun _ member => absurd member List.not_mem_nil⟩
  have packed := start.fold (fun packed returned => packed.packUnit returned) folded
  rw [List.nil_append, List.nil_append] at packed
  obtain ⟨groups, closed, together⟩ := packed.holds.flush_groups
  have items : result.packets.map Packet.items = last.bins.flush.closed := by
    rw [← same, List.map_map]
    exact List.map_id _
  have grouped : result.packets.map Packet.items = groups.map List.flatten := items.trans closed
  have chunk_sent : ∀ chunk ∈ units.flatMap (unitChunks backend),
      ∃ packet ∈ result.packets, chunk <:+: packet.items := by
    intro chunk member
    rw [← together] at member
    obtain ⟨group, groupMember, inside⟩ := List.mem_flatten.mp member
    have listed : group.flatten ∈ result.packets.map Packet.items := by
      rw [grouped]
      exact List.mem_map_of_mem groupMember
    obtain ⟨packet, packetMember, holds⟩ := List.mem_map.mp listed
    obtain ⟨before, after, split⟩ := List.append_of_mem inside
    refine ⟨packet, packetMember, before.flatten, after.flatten, ?_⟩
    rw [holds, split, List.flatten_append, List.flatten_cons, List.append_assoc]
  refine ⟨⟨units.flatMap (unitSkipped backend), ?_, ?_, packed.rejected⟩, ?_,
    ⟨groups, grouped, together⟩, ?_, ?_⟩
  · rw [← packed.counted, ← same]
  · have flat : result.packets.flatMap Packet.items = (units.flatMap (unitChunks backend)).flatten := by
      rw [List.flatMap_def, grouped, ← together, List.flatten_flatten]
    have each : ∀ unit ∈ units,
        ((unitChunks backend unit).flatten ++ unitSkipped backend unit).Perm unit :=
      fun unit _ => unitChunks_perm unit
    have perm := perm_flatMap_append (fun unit => unit) units each
    rw [List.flatMap_id'] at perm
    rw [flat]
    exact perm
  · intro packet member
    apply packed.holds.flush.passed
    rw [← items]
    exact List.mem_map_of_mem member
  · intro unit member within
    exact chunk_sent unit (List.mem_flatMap.mpr ⟨unit, member, mem_unitChunks within⟩)
  · intro unit member large part partMember within
    exact chunk_sent part
      (List.mem_flatMap.mpr ⟨unit, member, part_mem_unitChunks large partMember within⟩)

end

/-! Two candidates of one meeting and a judge that takes one item at a time. -/

def candidateItem (subject text : String) : Item Unit :=
  ⟨"validate", [subject], List.cons_ne_nil _ _, text, ()⟩

def oneItemBackend : Backend Unit where
  maxQuestionTokens := 10
  maxTotalTokens := 10
  maxItems := 1
  itemTokens := none
  packetInputEstimate := none
  allowSingleItemOverflow := false
  overflowInputLimit := none

def candidates : List (List (Item Unit)) :=
  [[candidateItem "a" "first", candidateItem "b" "second"]]

def candidatesPacked : PackResult Unit where
  packets := [⟨"judge", "sibling", "model", [candidateItem "a" "first"]⟩,
    ⟨"judge", "sibling", "model", [candidateItem "b" "second"]⟩]
  payloadTooLarge := 0
  unitsSplit := 1

theorem pack_packs_candidates : Packs oneItemBackend candidates candidatesPacked :=
  pack_packs (show pack oneItemBackend candidates "judge" "sibling" "model" = some candidatesPacked
    from rfl)

end CityPods.Judging
