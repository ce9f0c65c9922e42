import Mathlib.Algebra.Order.Ring.Rat
import Mathlib.Data.List.Sort
import CityPods.Foundation.Pieces

/-! # The served timeline

The edit list of an episode: spans lifted from source media and inserts, in the
order in which they are heard. Times are exact seconds.
-/

namespace CityPods.Audio

open Foundation
open Foundation.Pieces (covering)

/-- Where a segment comes from; the end of a source span may be unknown. -/
inductive Kind
  | source (sourceId : String) (sourceStart : ℚ) (sourceEnd : Option ℚ)
  | insert (insert : String) (assetId assetVersion : Option String)

structure Segment where
  servedStart : ℚ
  servedEnd : ℚ
  kind : Kind

structure Timeline where
  version : String
  segments : List Segment
  basis : String := "served"

/-- The summed served span. -/
def edlDuration (timeline : Timeline) : Option ℚ :=
  if timeline.segments.isEmpty then none
  else
    let total := (timeline.segments.map fun segment => segment.servedEnd - segment.servedStart).sum
    if 0 < total then some total else none

def servedToSource (timeline : Timeline) (instant : ℚ) : Option (String × ℚ) :=
  (covering Segment.servedStart Segment.servedEnd instant timeline.segments).bind fun segment =>
    match segment.kind with
    | .insert .. => none
    | .source sourceId sourceStart _ =>
        some (sourceId, sourceStart + (instant - segment.servedStart))

structure SourceSegment where
  servedStart : ℚ
  servedEnd : ℚ
  sourceStart : ℚ
  sourceEnd : Option ℚ

def Segment.ofSource? (sourceId : Option String) (segment : Segment) : Option SourceSegment :=
  match segment.kind with
  | .source id sourceStart sourceEnd =>
      if sourceId = some id then
        some ⟨segment.servedStart, segment.servedEnd, sourceStart, sourceEnd⟩
      else none
  | .insert .. => none

def sourceSegments (timeline : Timeline) (sourceId : Option String) : List SourceSegment :=
  timeline.segments.filterMap (Segment.ofSource? sourceId)

/-- The comparison with an unknown end raises. -/
inductive Error
  | typeError
  deriving DecidableEq

def SourceSegment.inSpan (segment : SourceSegment) (instant : ℚ) (last : Bool) :
    Except Error Bool :=
  if segment.sourceStart ≤ instant then
    match segment.sourceEnd with
    | none => .error .typeError
    | some sourceEnd => .ok (if last then instant ≤ sourceEnd else instant < sourceEnd)
  else .ok false

def servedIn (instant : ℚ) : List SourceSegment → Except Error (Option ℚ)
  | [] => .ok none
  | segment :: rest =>
      match segment.inSpan instant rest.isEmpty with
      | .error error => .error error
      | .ok true => .ok (some (segment.servedStart + (instant - segment.sourceStart)))
      | .ok false => servedIn instant rest

def sourceToServed (timeline : Timeline) (sourceId : Option String) (instant : ℚ) :
    Except Error (Option ℚ) :=
  servedIn instant (sourceSegments timeline sourceId)

def sortedSegments (timeline : Timeline) (sourceId : Option String) : List SourceSegment :=
  (sourceSegments timeline sourceId).insertionSort fun first second =>
    first.sourceStart ≤ second.sourceStart

def lastServedEnd (instant : ℚ) : List SourceSegment → Option ℚ
  | [] => none
  | segment :: rest =>
      if segment.sourceStart ≤ instant then
        (lastServedEnd instant rest).or (some segment.servedEnd)
      else none

/-- The edge of the last kept segment before the cut. -/
def nearestCutBoundary (timeline : Timeline) (sourceId : Option String) (instant : ℚ) : Option ℚ :=
  lastServedEnd instant (sortedSegments timeline sourceId)

def nextKeptBoundary (timeline : Timeline) (sourceId : Option String) (instant : ℚ) : Option ℚ :=
  ((sortedSegments timeline sourceId).find? fun segment => instant < segment.sourceStart).map
    SourceSegment.servedStart

/-- A timestamped item with whatever else it holds. -/
structure Item (α : Type) where
  start : ℚ
  stop : Option ℚ
  rest : α
  deriving DecidableEq

def firstSource (timeline : Timeline) : Option String :=
  timeline.segments.findSome? fun segment =>
    match segment.kind with
    | .source sourceId _ _ => some sourceId
    | .insert .. => none

section

variable {α : Type} (timeline : Timeline) (sourceId : Option String) (clampTo : Option ℚ)
  (snapCutStarts : Bool)

def remapStart (instant : ℚ) : Except Error (Option ℚ) := do
  match ← sourceToServed timeline sourceId instant with
  | some served => return some served
  | none => return if snapCutStarts then nextKeptBoundary timeline sourceId instant else none

def remapStop : Option ℚ → Except Error (Option ℚ)
  | none => return none
  | some instant => do
      match ← sourceToServed timeline sourceId instant with
      | some served => return some served
      | none =>
          match clampTo with
          | none => return none
          | some duration =>
              return some ((nearestCutBoundary timeline sourceId instant).getD duration)

def remapItems : List (Item α) → Except Error (List (Item α))
  | [] => return []
  | item :: rest => do
      match ← remapStart timeline sourceId snapCutStarts item.start with
      | none => remapItems rest
      | some start =>
          let stop ← remapStop timeline sourceId clampTo item.stop
          return { item with start := start, stop := stop } :: (← remapItems rest)

def remap (items : List (Item α)) : Except Error (List (Item α)) :=
  remapItems timeline (sourceId.or (firstSource timeline)) clampTo snapCutStarts items

end

end CityPods.Audio
