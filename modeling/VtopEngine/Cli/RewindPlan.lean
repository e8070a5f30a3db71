import Mathlib.Data.List.AList
import Mathlib.Data.List.Sort
import VtopEngine.Adapters.ByteSource

/-! # Which ranges recovery hands back

While recovery scans incomplete batches it gathers, per source unit, the lowest start to
rewind to (`RewindPlan` of `engine.rs`); a unit is one file at one inode, or one
topic-partition.

* `add`, `rebase`, `holdsBack`, `markers` — the operations of the plan.
-/

namespace VtopEngine.Cli

open Adapters VtopEngine.Core

/-- The source of a marker, whichever file at its path it was read from. -/
def sourceKey : ProgressMarker → String
  | .Kafka topic partition _ _ consumerGroup => s!"kafka|{consumerGroup}|{topic}#p{partition}"
  | .File path .. => s!"file|{path}"
  | .SyslogSpool spoolId path .. => s!"spool|{spoolId}|{path}"

/-- The source at one inode. -/
def unitKey (marker : ProgressMarker) : String :=
  match markerInode marker with
  | some inode => s!"{sourceKey marker}|{inode}"
  | none => s!"{sourceKey marker}|?"

/-- Where a range begins within its unit. -/
def startPosition : ProgressMarker → Int
  | .Kafka _ _ startOffset _ _ => startOffset
  | .File _ _ startByte .. | .SyslogSpool _ _ _ startByte .. => startByte

/-- The lowest start per unit, the pending starts per source and inode, and when each unit was last added. -/
structure RewindPlan where
  lowest : AList fun _ : String => ProgressMarker
  bySource : AList fun _ : String => List (Option Nat × Int)
  recency : AList fun _ : String => Nat
  added : Nat

namespace RewindPlan

def default : RewindPlan := ⟨∅, ∅, ∅, 0⟩

/-- The groups of a source with the start at `inode` changed, or added. -/
def lowered (groups : List (Option Nat × Int)) (inode : Option Nat) (position : Int) : List (Option Nat × Int) :=
  if groups.any fun group => group.1 = inode then
    groups.map fun group => if group.1 = inode then (group.1, min group.2 position) else group
  else groups ++ [(inode, position)]

/-- Record that the range starting at `start` is handed back. -/
def add (plan : RewindPlan) (start : ProgressMarker) : RewindPlan where
  lowest :=
    match plan.lowest.lookup (unitKey start) with
    | some held =>
      if startPosition held ≤ startPosition start then plan.lowest else plan.lowest.insert (unitKey start) start
    | none => plan.lowest.insert (unitKey start) start
  bySource := plan.bySource.insert (sourceKey start)
    (lowered ((plan.bySource.lookup (sourceKey start)).getD []) (markerInode start) (startPosition start))
  recency := plan.recency.insert (unitKey start) (plan.added + 1)
  added := plan.added + 1

/-- The groups of a source with the start at `inode` raised to where the rewind landed. -/
def raised (groups : List (Option Nat × Int)) (inode : Option Nat) (landed : Int) : List (Option Nat × Int) :=
  groups.map fun group => if group.1 = inode then (group.1, max group.2 landed) else group

/-- Replace each unit's start by where its rewind landed; a unit that landed nowhere keeps its own. -/
def rebase (plan : RewindPlan) (effective : AList fun _ : String => Int) : RewindPlan :=
  plan.lowest.entries.foldl
    (fun plan entry =>
      match effective.lookup entry.1, plan.bySource.lookup (sourceKey entry.2) with
      | some landed, some groups =>
        { plan with bySource := plan.bySource.insert (sourceKey entry.2) (raised groups (markerInode entry.2) landed) }
      | _, _ => plan)
    plan

/-- Whether a range of the same unit below `start` is about to be read again.  A marker without an inode is compared
with every inode's ranges, and a range without one counts against every marker. -/
def holdsBack (plan : RewindPlan) (start : ProgressMarker) : Bool :=
  match plan.bySource.lookup (sourceKey start) with
  | none => false
  | some groups => groups.any fun group =>
    (markerInode start = none || group.1 = none || group.1 = markerInode start) && group.2 < startPosition start

/-- By source, then by when the unit was last added, then by unit. -/
def Precedes (plan : RewindPlan) (left right : (_ : String) × ProgressMarker) : Prop :=
  sourceKey left.2 < sourceKey right.2 ∨ sourceKey left.2 = sourceKey right.2 ∧
      ((plan.recency.lookup left.1).getD 0 < (plan.recency.lookup right.1).getD 0 ∨
        (plan.recency.lookup left.1).getD 0 = (plan.recency.lookup right.1).getD 0 ∧ left.1 ≤ right.1)

instance (plan : RewindPlan) : DecidableRel plan.Precedes :=
  fun _ _ => inferInstanceAs (Decidable (_ ∨ _))

def markers (plan : RewindPlan) : List ProgressMarker := (plan.lowest.entries.insertionSort plan.Precedes).map Sigma.snd

end RewindPlan

/-- Group markers by their source, in the order the sources first appear. -/
def bySourceType (markers : List ProgressMarker) : List (SourceType × List ProgressMarker) :=
  markers.foldl
    (fun groups marker =>
      if groups.any fun group => group.1 = marker.sourceType then
        groups.map fun group => if group.1 = marker.sourceType then (group.1, group.2 ++ [marker]) else group
      else groups ++ [(marker.sourceType, [marker])])
    []

end VtopEngine.Cli
