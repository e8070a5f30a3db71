import VtopEngine.Log.Retention

/-! # A retention pass over segments of either format

`SegmentSet::retain` as it is written: it adds up the sealed segments' content bytes through
`SegmentReader::manifest`, an accessor for segments of the first format alone, drops the oldest
segments while the range is above its bound and they end at or below the floor, and reports
what it did and why it stopped.

* `StoredSet.retain` — the pass, with its outcome.
* `Reclaims` — what it should do: the shortest sufficient prefix, cut short at the floor.
* `retention_reclaims_iff` — it does that exactly where every sealed segment is of the first
  format; over a segment of the second format it panics.
-/

namespace VtopEngine.Log

open SegmentSet List

structure SegmentManifest where
  contentBytes : Nat
  deriving DecidableEq, Repr

inductive AnyManifest
  | V1 (manifest : SegmentManifest)
  | V2 (manifest : SegmentManifest)
  deriving DecidableEq, Repr

structure SegmentReader where
  (baseOffset nextOffset : Nat)
  stored : AnyManifest
  deriving DecidableEq, Repr

namespace SegmentReader

/-- The accessor for the first format; it panics on a segment of the second. -/
def manifest (reader : SegmentReader) : Except String SegmentManifest :=
  match reader.stored with
  | .V1 manifest => .ok manifest
  | .V2 _ => .error "manifest() is a v1 accessor; use manifest_v2()"

/-- The accessor for both formats, which a pass does not use. -/
def contentBytes (reader : SegmentReader) : Nat :=
  match reader.stored with
  | .V1 manifest | .V2 manifest => manifest.contentBytes

def IsV1 (reader : SegmentReader) : Prop :=
  match reader.stored with
  | .V1 _ => True
  | .V2 _ => False

end SegmentReader

inductive RetentionBlocked
  | CommittedFloor | ActiveSegment
  deriving DecidableEq, Repr

structure RetentionOutcome where
  (segmentsRemoved bytesRemoved retainedBytes : Nat)
  blocked : Option RetentionBlocked
  deriving DecidableEq, Repr

/-- A log with the manifest of each sealed segment, by its base offset, and the bytes in its active segment. -/
structure StoredSet extends SegmentSet where
  manifestAt : Nat → AnyManifest
  activeBytes : Nat

namespace SegmentSet

/-- The log without its oldest sealed segments. -/
def dropSealed (set : SegmentSet) (cut : Nat) : SegmentSet :=
  { set with
    sealed := set.sealed.drop cut
    layout := set.layout.sublist ((List.drop_sublist _ _).append_right _) }

end SegmentSet

namespace StoredSet

def readers (set : StoredSet) : List SegmentReader := set.sealedSpans.map fun span => ⟨span.1, span.2, set.manifestAt span.1⟩

def dropSealed (set : StoredSet) (cut : Nat) : StoredSet := { set with toSegmentSet := set.toSegmentSet.dropSealed cut }

end StoredSet

section Pass

variable (total maxTotalBytes floor : Nat)

/-- The loop over the sealed segments, oldest first: how many go, and the bytes that go with them. -/
def cutFrom : Nat → Nat → List SegmentReader → Except String (Nat × Nat)
  | cut, bytesRemoved, [] => .ok (cut, bytesRemoved)
  | cut, bytesRemoved, reader :: readers =>
    if total - bytesRemoved ≤ maxTotalBytes then .ok (cut, bytesRemoved)
    else if floor < reader.nextOffset then .ok (cut, bytesRemoved)
    else do
      let manifest ← reader.manifest
      cutFrom (cut + 1) (bytesRemoved + manifest.contentBytes) readers

end Pass

/-- Why a pass left the range above its bound, if it did. -/
def blockedBy (maxTotalBytes retainedBytes : Nat) (sealedLeft : Bool) : Option RetentionBlocked :=
  if maxTotalBytes < retainedBytes then some (if sealedLeft then .CommittedFloor else .ActiveSegment) else none

namespace StoredSet

def retain (set : StoredSet) (maxTotalBytes floor : Nat) : Except String (StoredSet × RetentionOutcome) := do
  let manifests ← set.readers.mapM SegmentReader.manifest
  let sealedBytes := (manifests.map (·.contentBytes)).sum
  let total := sealedBytes + set.activeBytes
  if total ≤ maxTotalBytes then return (set, ⟨0, 0, total, none⟩)
  let counted ← cutFrom total maxTotalBytes floor 0 0 set.readers
  let retainedBytes := total - counted.2
  let blocked := blockedBy maxTotalBytes retainedBytes (counted.1 < set.readers.length)
  if counted.1 = 0 then return (set, ⟨0, 0, retainedBytes, blocked⟩)
  return (set.dropSealed counted.1, ⟨counted.1, counted.2, retainedBytes, blocked⟩)

/-- The content bytes of the whole range. -/
def totalBytes (set : StoredSet) : Nat := (set.readers.map (·.contentBytes)).sum + set.activeBytes

end StoredSet

/-- A pass should drop the sealed segments of a prefix and nothing else.  The range is above its bound
before each of them goes, each ends at or below the floor, and the prefix ends where the bound
is met, the next segment ends above the floor, or no sealed segment is left. -/
structure Reclaims (set : StoredSet) (maxTotalBytes floor : Nat) (after : StoredSet) (outcome : RetentionOutcome) :
    Prop where
  isDropped : after = set.dropSealed outcome.segmentsRemoved
  within : outcome.segmentsRemoved ≤ set.readers.length
  bytesRemoved : outcome.bytesRemoved = ((set.readers.take outcome.segmentsRemoved).map (·.contentBytes)).sum
  retainedBytes : outcome.retainedBytes = after.totalBytes
  needed : ∀ cut < outcome.segmentsRemoved, maxTotalBytes < (set.dropSealed cut).totalBytes
  allowed : ∀ reader ∈ set.readers.take outcome.segmentsRemoved, reader.nextOffset ≤ floor
  stops : after.totalBytes ≤ maxTotalBytes ∨ ∀ reader ∈ after.readers.head?, floor < reader.nextOffset
  floorBlocks : outcome.blocked = some .CommittedFloor ↔ maxTotalBytes < outcome.retainedBytes ∧ after.sealed ≠ []
  activeBlocks : outcome.blocked = some .ActiveSegment ↔ maxTotalBytes < outcome.retainedBytes ∧ after.sealed = []
  records : after.records = set.records
  tail : after.tailBase = set.tailBase ∧ after.committedOffset = set.committedOffset ∧ after.activeBytes = set.activeBytes
  offsets : after.nextOffset = set.nextOffset
  fetches : ∀ framing startOffset maxBytes maxRecords highWatermark, after.baseOffset ≤ startOffset →
    after.fetchThrough framing startOffset maxBytes maxRecords highWatermark =
      set.fetchThrough framing startOffset maxBytes maxRecords highWatermark

/-! ## Dropping the oldest segments -/

theorem spans_drop (bases : List Nat) (last cut) :
    (bases.drop cut).zip ((bases.drop cut).tail ++ [last]) = (bases.zip (bases.tail ++ [last])).drop cut := by
  induction cut generalizing bases with
  | zero => rfl
  | succ cut ih =>
    cases bases with
    | nil => rfl
    | cons first rest =>
      rw [drop_succ_cons, ih]
      cases rest <;> simp

theorem sealedSpans_length (set : SegmentSet) : set.sealedSpans.length = set.sealed.length := by
  rw [sealedSpans, length_zip]
  cases set.sealed <;> simp

theorem SegmentSet.sealedSpans_dropSealed (set : SegmentSet) (cut) :
    (set.dropSealed cut).sealedSpans = set.sealedSpans.drop cut :=
  spans_drop set.sealed set.tailBase cut

open StoredSet

theorem StoredSet.readers_dropSealed (set : StoredSet) (cut) : (set.dropSealed cut).readers = set.readers.drop cut := by
  unfold readers
  rw [← map_drop, ← set.sealedSpans_dropSealed cut]
  rfl

theorem StoredSet.readers_length (set : StoredSet) : set.readers.length = set.sealed.length := by
  rw [readers, length_map, sealedSpans_length]

section Fetches

variable {set : SegmentSet} {framing : Framing} {maxBytes maxRecords highWatermark : Nat}

theorem head_le_head_drop (bases : List Nat) (last cut) (layout : (bases ++ [last]).Pairwise (· < ·)) :
    bases.head?.getD last ≤ (bases.drop cut).head?.getD last := by
  induction cut generalizing bases with
  | zero => exact le_refl _
  | succ cut ih =>
    cases bases with
    | nil => exact le_refl _
    | cons first rest =>
      have later := pairwise_cons.mp layout
      have next := ih rest later.2
      have ordered : first ≤ rest.head?.getD last := by
        cases rest with
        | nil => exact le_of_lt (later.1 last (by simp))
        | cons second rest => exact le_of_lt (later.1 second (by simp))
      exact le_trans ordered next

theorem baseOffset_le_dropSealed (set : SegmentSet) (cut) : set.baseOffset ≤ (set.dropSealed cut).baseOffset :=
  head_le_head_drop set.sealed set.tailBase cut set.layout

/-- At or above the new base, a fetch answers as it did. -/
theorem fetchThrough_dropSealed (reaches : (set.dropSealed cut).baseOffset ≤ startOffset) :
    (set.dropSealed cut).fetchThrough framing startOffset maxBytes maxRecords highWatermark =
      set.fetchThrough framing startOffset maxBytes maxRecords highWatermark := by
  exact fetchThrough_layout (le_trans (baseOffset_le_dropSealed set cut) reaches) reaches rfl rfl rfl

end Fetches

/-! ## The loop over the sealed segments -/

theorem SegmentReader.manifest_of_v1 {reader : SegmentReader} (isV1 : reader.IsV1) :
    reader.manifest = .ok ⟨reader.contentBytes⟩ := by
  unfold IsV1 at isV1
  unfold manifest contentBytes
  cases isStored : reader.stored with
  | V1 manifest => rfl
  | V2 manifest => simp [isStored] at isV1

theorem SegmentReader.manifest_of_v2 {reader : SegmentReader} (notV1 : ¬ reader.IsV1) :
    reader.manifest = .error "manifest() is a v1 accessor; use manifest_v2()" := by
  unfold IsV1 at notV1
  unfold manifest
  cases isStored : reader.stored with
  | V1 manifest => simp [isStored] at notV1
  | V2 manifest => rfl

def bytesOf (readers : List SegmentReader) : Nat := (readers.map (·.contentBytes)).sum

/-- Where the loop stops: how many more segments it takes, why each of them goes, and why no more do. -/
structure Stops (total maxTotalBytes floor bytesRemoved : Nat) (readers : List SegmentReader) (count : Nat) : Prop where
  within : count ≤ readers.length
  needed : ∀ cut < count, maxTotalBytes < total - (bytesRemoved + bytesOf (readers.take cut))
  allowed : ∀ reader ∈ readers.take count, reader.nextOffset ≤ floor
  stops : total - (bytesRemoved + bytesOf (readers.take count)) ≤ maxTotalBytes ∨
    ∀ reader ∈ (readers.drop count).head?, floor < reader.nextOffset

theorem cutFrom_stops {total maxTotalBytes floor cut bytesRemoved} {readers}
    (allV1 : ∀ reader ∈ readers, reader.IsV1) : ∃ count, cutFrom total maxTotalBytes floor cut bytesRemoved readers =
        .ok (cut + count, bytesRemoved + bytesOf (readers.take count)) ∧
      Stops total maxTotalBytes floor bytesRemoved readers count := by
  induction readers generalizing cut bytesRemoved with
  | nil => exact ⟨0, rfl, Nat.le_refl _, fun _ below => absurd below (Nat.not_lt_zero _), by simp, .inr (by simp)⟩
  | cons reader readers ih =>
    unfold cutFrom
    split
    case isTrue fits => exact ⟨0, rfl, Nat.zero_le _, fun _ below => absurd below (Nat.not_lt_zero _), by simp, .inl fits⟩
    case isFalse above =>
      split
      case isTrue held =>
        exact ⟨0, rfl, Nat.zero_le _, fun _ below => absurd below (Nat.not_lt_zero _), by simp, .inr (by simpa using held)⟩
      case isFalse free =>
        obtain ⟨count, isOk, stops⟩ := @ih (cut + 1) (bytesRemoved + reader.contentBytes)
          fun other member => allV1 other (.tail _ member)
        have taken : ∀ count, bytesRemoved + bytesOf ((reader :: readers).take (count + 1)) =
            bytesRemoved + reader.contentBytes + bytesOf (readers.take count) := by
          intro count
          simp [bytesOf, add_assoc]
        refine ⟨count + 1, ?_, Nat.succ_le_succ stops.within, ?_, ?_, ?_⟩
        · rw [reader.manifest_of_v1 (allV1 reader mem_cons_self), taken, Nat.add_comm count 1, ← Nat.add_assoc]
          exact isOk
        · intro earlier below
          cases earlier with
          | zero => exact not_le.mp above
          | succ earlier =>
            rw [taken]
            exact stops.needed earlier (Nat.lt_of_succ_lt_succ below)
        · intro other member
          rcases mem_cons.mp member with rfl | later
          · exact not_lt.mp free
          · exact stops.allowed other later
        · rw [taken]
          exact stops.stops

variable {readers : List SegmentReader}

theorem mapM_manifest_of_v1 (allV1 : ∀ reader ∈ readers, reader.IsV1) :
    readers.mapM SegmentReader.manifest = .ok (readers.map fun reader => ⟨reader.contentBytes⟩) := by
  induction readers with
  | nil => rfl
  | cons reader readers ih =>
    rw [mapM_cons, reader.manifest_of_v1 (allV1 reader mem_cons_self), ih fun other member => allV1 other (.tail _ member)]
    rfl

theorem v1_of_mapM_manifest
    (isOk : readers.mapM SegmentReader.manifest = .ok manifests) : ∀ reader ∈ readers, reader.IsV1 := by
  induction readers generalizing manifests with
  | nil => simp
  | cons reader readers ih =>
    rw [mapM_cons] at isOk
    by_cases isV1 : reader.IsV1
    · rw [reader.manifest_of_v1 isV1] at isOk
      cases isRest : readers.mapM SegmentReader.manifest with
      | error problem => simp [isRest, bind, Except.bind] at isOk
      | ok rest =>
        intro other member
        rcases mem_cons.mp member with rfl | later
        · exact isV1
        · exact ih isRest other later
    · rw [reader.manifest_of_v2 isV1] at isOk
      cases isOk

/-! ## The pass -/

theorem StoredSet.totalBytes_dropSealed (set : StoredSet) (cut) :
    (set.dropSealed cut).totalBytes = set.totalBytes - bytesOf (set.readers.take cut) := by
  have split := congrArg bytesOf (take_append_drop cut set.readers)
  simp only [bytesOf, map_append, sum_append] at split
  simp only [totalBytes, set.readers_dropSealed cut, bytesOf]
  show _ + set.activeBytes = _
  omega

/-- Dropping as many segments as the loop counts is what a pass should do. -/
theorem reclaims_of_stops {set : StoredSet} {count} (stops : Stops set.totalBytes maxTotalBytes floor 0 set.readers count) :
    Reclaims set maxTotalBytes floor (set.dropSealed count)
      ⟨count, bytesOf (set.readers.take count), set.totalBytes - bytesOf (set.readers.take count),
        blockedBy maxTotalBytes (set.totalBytes - bytesOf (set.readers.take count)) (count < set.readers.length)⟩ := by
  have sealedLeft : (set.dropSealed count).sealed ≠ [] ↔ count < set.readers.length := by
    rw [set.readers_length]
    show set.sealed.drop count ≠ [] ↔ _
    rw [Ne, drop_eq_nil_iff, not_le]
  have noneLeft : (set.dropSealed count).sealed = [] ↔ ¬ count < set.readers.length := by rw [← sealedLeft, not_not]
  refine ⟨rfl, stops.within, rfl, (set.totalBytes_dropSealed count).symm, ?_, stops.allowed, ?_, ?_, ?_, rfl,
    ⟨rfl, rfl, rfl⟩, rfl, fun _ _ _ _ _ reaches => fetchThrough_dropSealed reaches⟩
  · intro cut below
    have needed := stops.needed cut below
    rwa [zero_add, ← set.totalBytes_dropSealed cut] at needed
  · have stopped := stops.stops
    rwa [zero_add, ← set.totalBytes_dropSealed count, ← set.readers_dropSealed count] at stopped
  · rw [sealedLeft, blockedBy]
    split <;> simp_all
  · rw [noneLeft, blockedBy]
    split <;> simp_all

theorem cutFrom_fits (readers) (fits : total ≤ maxTotalBytes) :
    cutFrom total maxTotalBytes floor 0 0 readers = .ok (0, 0) := by
  cases readers with
  | nil => rfl
  | cons reader readers => exact if_pos fits

/-- A pass drops as many segments as the loop counts, also where the bound holds before the loop begins. -/
theorem retain_eq_ok {set : StoredSet} {count} (allV1 : ∀ reader ∈ set.readers, reader.IsV1)
    (isOk : cutFrom set.totalBytes maxTotalBytes floor 0 0 set.readers = .ok (count, bytesOf (set.readers.take count))) :
    set.retain maxTotalBytes floor = .ok (set.dropSealed count,
      ⟨count, bytesOf (set.readers.take count), set.totalBytes - bytesOf (set.readers.take count),
        blockedBy maxTotalBytes (set.totalBytes - bytesOf (set.readers.take count)) (count < set.readers.length)⟩) := by
  have counted : (set.readers.map fun reader => SegmentManifest.mk reader.contentBytes).map (·.contentBytes) =
      set.readers.map (·.contentBytes) := by simp
  unfold StoredSet.retain
  rw [mapM_manifest_of_v1 allV1]
  simp only [bind, Except.bind, counted]
  change (if set.totalBytes ≤ maxTotalBytes then _ else (cutFrom set.totalBytes _ _ _ _ _ >>= _)) = _
  split
  case isTrue fits =>
    obtain ⟨rfl, -⟩ := Prod.mk.inj (Except.ok.inj (isOk.symm.trans (cutFrom_fits set.readers fits)))
    have notBlocked : blockedBy maxTotalBytes set.totalBytes (decide (0 < set.readers.length)) = none :=
      if_neg (not_lt.mpr fits)
    rw [take_zero]
    change _ = Except.ok (_, RetentionOutcome.mk 0 0 set.totalBytes (blockedBy maxTotalBytes set.totalBytes _))
    rw [notBlocked]
    rfl
  case isFalse above =>
    rw [isOk]
    simp only [bind, Except.bind]
    split
    case isTrue nothing =>
      subst nothing
      rfl
    case isFalse => rfl

theorem retain_reclaims (set : StoredSet) (maxTotalBytes floor) (allV1 : ∀ reader ∈ set.readers, reader.IsV1) :
    ∃ after outcome, set.retain maxTotalBytes floor = .ok (after, outcome) ∧
      Reclaims set maxTotalBytes floor after outcome := by
  obtain ⟨count, isOk, stops⟩ := @cutFrom_stops set.totalBytes maxTotalBytes floor 0 0 set.readers allV1
  rw [zero_add, zero_add] at isOk
  exact ⟨_, _, retain_eq_ok allV1 isOk, reclaims_of_stops stops⟩

/-- A pass returns, and reclaims exactly the prefix it may, where every sealed segment is of the first format. -/
theorem retention_reclaims_iff (set : StoredSet) (maxTotalBytes floor : Nat) :
    (∃ after outcome, set.retain maxTotalBytes floor = .ok (after, outcome) ∧
        Reclaims set maxTotalBytes floor after outcome) ↔
      ∀ reader ∈ set.readers, reader.IsV1 := by
  constructor
  · rintro ⟨after, outcome, isOk, -⟩
    unfold StoredSet.retain at isOk
    -- The sum over the sealed segments asks each of them for its first-format manifest.
    cases isManifests : set.readers.mapM SegmentReader.manifest with
    | error problem => simp [isManifests, bind, Except.bind] at isOk
    | ok manifests => exact v1_of_mapM_manifest isManifests
  · exact retain_reclaims set maxTotalBytes floor

/-- Two records, one in a sealed segment of the second format and one in the active segment. -/
def secondFormatSet : StoredSet where
  records := List.replicate 2 ⟨0, 0, 0, 0, [], []⟩
  sealed := [0]
  tailBase := 1
  committedOffset := 2
  maxSegmentRecords := 1
  layout := by decide
  tailDurable := by decide
  durable := by decide
  manifestAt _ := .V2 ⟨100⟩
  activeBytes := 100

/-- A pass over it panics, even where its bytes fit the bound. -/
theorem second_format_panics : secondFormatSet.totalBytes ≤ 200 ∧
      secondFormatSet.retain 200 2 = .error "manifest() is a v1 accessor; use manifest_v2()" :=
  ⟨by decide, rfl⟩

end VtopEngine.Log
