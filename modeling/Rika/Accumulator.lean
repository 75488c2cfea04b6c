import Rika.Fold
import Rika.ThreadView

namespace Rika.Accumulator

open ThreadView
open StableSort (toSorted)
open Fold (refuse)

structure ThreadViewTurnDelta where
  turnId : String
  previous : Option ThreadViewTurnState
  current : Option ThreadViewTurnState
  upsert : List TranscriptUnit.Unit
  remove : List String

structure ThreadViewDelta where
  revision : Nat
  headerChanged : Bool
  turns : List ThreadViewTurnDelta

structure IndexedTurn where
  state : ThreadViewTurnState
  units : InsertionMap String TranscriptUnit.Unit

structure TurnIndex where
  turnsById : InsertionMap String IndexedTurn
  unitOwners : InsertionMap String String
  activeTurnIds : InsertionMap String Unit

structure ThreadViewAccumulator extends TurnIndex where
  currentHeader : ThreadViewHeader
  currentRevision : Nat
  materialized : Option ThreadViewSnapshot

def active (status : Status) : Bool :=
  status = .accepted || status = .running || status = .cancelling || status = .waiting

def TurnIndex.empty : TurnIndex := ⟨.empty, .empty, .empty⟩

def hydrateUnit (threadId turnId : String)
    (acc : InsertionMap String TranscriptUnit.Unit × InsertionMap String String) (unit : TranscriptUnit.Unit) :
    Except ThreadViewApplyError (InsertionMap String TranscriptUnit.Unit × InsertionMap String String) :=
  if unit.turnId ≠ turnId then .error (.invalidPatch threadId .unitTurnMismatch (some unit.key))
  else .ok (acc.1.set unit.key unit, acc.2.set unit.key turnId)

def hydrateTurn (threadId : String) (index : TurnIndex) (entry : ThreadViewTurn) :
    Except ThreadViewApplyError TurnIndex :=
  let turnId := entry.turn.id
  let state := turnState entry.toThreadViewTurnState
  if entry.turn.threadId ≠ threadId then .error (.invalidPatch threadId .turnThreadMismatch (some turnId))
  else do
    let hydrated ← entry.units.foldlM (hydrateUnit threadId turnId) (.empty, index.unitOwners)
    .ok
      { turnsById := index.turnsById.set turnId ⟨state, hydrated.1⟩
        unitOwners := hydrated.2
        activeTurnIds :=
          if active state.turn.status then index.activeTurnIds.set turnId () else index.activeTurnIds }

def fromSnapshot (snapshot : ThreadViewSnapshot) : Except ThreadViewApplyError ThreadViewAccumulator := do
  let threadId := snapshot.thread.id
  refuse <| (duplicateKey (snapshot.turns.map (·.turn.id))).map (.duplicateItem threadId .snapshotTurns)
  refuse <| (duplicateKey (snapshot.turns.flatMap fun entry => entry.units.map (·.key))).map
    (.duplicateItem threadId .snapshotUnits)
  refuse <| (duplicateKey (snapshot.pending.map (·.id))).map (.duplicateItem threadId .pending)
  refuse <| if limits.pending < snapshot.pending.length then
    some (.invalidPatch threadId .boundsExceeded none) else none
  let index ← snapshot.turns.foldlM (hydrateTurn threadId) .empty
  .ok
    { index with
      currentHeader := snapshot.toThreadViewHeader
      currentRevision := snapshot.revision
      materialized := none }

def TurnIndex.turn (index : TurnIndex) (turnId : String) : Option ThreadViewTurnState :=
  (index.turnsById.get turnId).map (·.state)

section

variable (collation : Collation)

def TurnIndex.units (index : TurnIndex) (turnId : String) : List TranscriptUnit.Unit :=
  match index.turnsById.get turnId with
  | none => []
  | some indexed => toSorted (TranscriptUnit.compareUnits collation) indexed.units.values

def IndexedTurn.entry (indexed : IndexedTurn) : ThreadViewTurn :=
  { indexed.state with units := toSorted (TranscriptUnit.compareUnits collation) indexed.units.values }

def ThreadViewAccumulator.view (a : ThreadViewAccumulator) : ThreadViewSnapshot :=
  { a.currentHeader with
    revision := a.currentRevision
    turns := toSorted (fun left right => compareTurns collation left.toThreadViewTurnState
      right.toThreadViewTurnState) (a.turnsById.values.map (·.entry collation)) }

/-- The view is computed once and kept until the next accepted patch. -/
def ThreadViewAccumulator.snapshot (a : ThreadViewAccumulator) :
    ThreadViewSnapshot × ThreadViewAccumulator :=
  match a.materialized with
  | some snapshot => (snapshot, a)
  | none => (a.view collation, { a with materialized := some (a.view collation) })

end

section

variable (a : ThreadViewAccumulator)

section

variable (patch : ThreadViewPatch)

def revisionError : Option ThreadViewApplyError :=
  let threadId := a.currentHeader.thread.id
  if patch.threadId ≠ threadId then some (.foreignThread threadId patch.threadId)
  else if patch.revision ≤ patch.baseRevision then
    some (.nonMonotonicRevision threadId patch.baseRevision patch.revision)
  else if patch.baseRevision ≠ a.currentRevision ∨ patch.revision ≠ patch.baseRevision + 1 then
    some (.resyncRequired ⟨threadId, a.currentRevision + 1, patch.baseRevision, a.currentRevision⟩)
  else none

def collectionError (header : ThreadViewHeader) : Option ThreadViewApplyError :=
  let threadId := a.currentHeader.thread.id
  ((duplicateKey (patch.upsert.map (·.key))).map (.duplicateItem threadId .upsert)).or <|
  ((duplicateKey patch.remove).map (.duplicateItem threadId .remove)).or <|
  ((patch.upsert.find? fun unit => unit.key ∈ patch.remove).map fun conflict =>
    .invalidPatch threadId .conflictingItemChange (some conflict.key)).or <|
  ((duplicateKey (patch.turnChanges.map (·.key))).map (.duplicateItem threadId .turnChanges)).or <|
  (if header.thread.id ≠ threadId then
    some (.invalidPatch threadId .invalidHeader (some header.thread.id)) else none).or <|
  ((duplicateKey (header.pending.map (·.id))).map (.duplicateItem threadId .pending)).or <|
  if limits.pending < header.pending.length then some (.invalidPatch threadId .boundsExceeded none) else none

def upsertUnitError (unit : TranscriptUnit.Unit) : Option ThreadViewApplyError :=
  let threadId := a.currentHeader.thread.id
  match a.unitOwners.get unit.key with
  | none => none
  | some owner =>
    if owner ≠ unit.turnId then some (.invalidPatch threadId .unitTurnMismatch (some unit.key))
    else
      match (a.turnsById.get owner).bind (·.units.get unit.key) with
      | none => none
      | some current =>
        if unit.revision < current.revision then
          some (.invalidPatch threadId .unitRevisionRegressed (some unit.key))
        else none

def unitError : Option ThreadViewApplyError :=
  let threadId := a.currentHeader.thread.id
  (patch.remove.findSome? fun key =>
    if a.unitOwners.has key then none else some (.invalidPatch threadId .missingItem (some key))).or <|
  patch.upsert.findSome? (upsertUnitError a)

def turnChangeError (change : ThreadViewTurnChange) : Option ThreadViewApplyError :=
  let threadId := a.currentHeader.thread.id
  let current := a.turn change.key
  match change with
  | .removeTurn turnId =>
    if current.isNone then some (.invalidPatch threadId .missingTurn (some turnId)) else none
  | .upsertTurn state =>
    if state.turn.threadId ≠ threadId then
      some (.invalidPatch threadId .turnThreadMismatch (some state.turn.id))
    else if current.any (state.projectionRevision < ·.projectionRevision) then
      some (.invalidPatch threadId .projectionRevisionRegressed (some state.turn.id))
    else none

/-- `turnChangesError`, with the changes by turn it collects on success. -/
def turnChangesError : Except ThreadViewApplyError (InsertionMap String ThreadViewTurnChange) :=
  patch.turnChanges.foldlM (fun changes change =>
    match turnChangeError a change with
    | some error => .error error
    | none => .ok (changes.set change.key change)) .empty

def upsertTurnError (changes : InsertionMap String ThreadViewTurnChange) : Option ThreadViewApplyError :=
  patch.upsert.findSome? fun unit =>
    let exists' :=
      match changes.get unit.turnId with
      | some (.upsertTurn _) => true
      | some (.removeTurn _) => false
      | none => a.turnsById.has unit.turnId
    if exists' then none
    else some (.invalidPatch a.currentHeader.thread.id .missingTurn (some unit.turnId))

end

end

structure TurnDelta where
  previous : Option ThreadViewTurnState
  current : Option ThreadViewTurnState
  upsert : List TranscriptUnit.Unit
  remove : List String

structure Progress extends TurnIndex where
  deltas : InsertionMap String TurnDelta

def Progress.deltaFor (p : Progress) (turnId : String) : TurnDelta :=
  (p.deltas.get turnId).getD ⟨p.turn turnId, p.turn turnId, [], []⟩

/- The three loops below look up with `!`; `none` is the `TypeError` a lookup
without a result throws. -/

def removeUnit (p : Progress) (key : String) : Option Progress := do
  let owner ← p.unitOwners.get key
  let indexed ← p.turnsById.get owner
  let delta := p.deltaFor owner
  some
    { p with
      turnsById := p.turnsById.set owner { indexed with units := indexed.units.delete key }
      unitOwners := p.unitOwners.delete key
      deltas := p.deltas.set owner { delta with remove := delta.remove ++ [key] } }

def changeTurn (remove : List String) (p : Progress) : ThreadViewTurnChange → Option Progress
  | .removeTurn key => do
    let indexed ← p.turnsById.get key
    let delta := p.deltaFor key
    some
      { turnsById := p.turnsById.delete key
        unitOwners := indexed.units.keys.foldl (fun owners unitKey => owners.delete unitKey) p.unitOwners
        activeTurnIds := p.activeTurnIds.delete key
        deltas := p.deltas.set key
          { delta with
            current := none
            remove := delta.remove ++ indexed.units.keys.filter (· ∉ remove) } }
  | .upsertTurn change =>
    let key := change.turn.id
    let state := turnState change
    let units := ((p.turnsById.get key).map (·.units)).getD .empty
    some
      { p with
        turnsById := p.turnsById.set key ⟨state, units⟩
        activeTurnIds :=
          if active state.turn.status then p.activeTurnIds.set key () else p.activeTurnIds.delete key
        deltas := p.deltas.set key { p.deltaFor key with current := some state } }

def upsertUnit (p : Progress) (unit : TranscriptUnit.Unit) : Option Progress := do
  let indexed ← p.turnsById.get unit.turnId
  let delta := p.deltaFor unit.turnId
  some
    { p with
      turnsById := p.turnsById.set unit.turnId { indexed with units := indexed.units.set unit.key unit }
      unitOwners := p.unitOwners.set unit.key unit.turnId
      deltas := p.deltas.set unit.turnId { delta with upsert := delta.upsert ++ [unit] } }

/-- Every rejection test of `apply`; all of them come before its first write. -/
def check (a : ThreadViewAccumulator) (patch : ThreadViewPatch) : Except ThreadViewApplyError Unit := do
  refuse (revisionError a patch)
  refuse (collectionError a patch (patch.header.getD a.currentHeader))
  refuse (unitError a patch)
  let changes ← turnChangesError a patch
  refuse (upsertTurnError a patch changes)

def change (index : TurnIndex) (patch : ThreadViewPatch) : Option Progress := do
  let removed ← patch.remove.foldlM removeUnit { index with deltas := .empty }
  let changed ← patch.turnChanges.foldlM (changeTurn patch.remove) removed
  patch.upsert.foldlM upsertUnit changed

def apply (a : ThreadViewAccumulator) (patch : ThreadViewPatch) :
    Option (Except ThreadViewApplyError ThreadViewDelta × ThreadViewAccumulator) :=
  match check a patch with
  | .error error => some (.error error, a)
  | .ok () => do
    let p ← change a.toTurnIndex patch
    some
      (.ok
        { revision := patch.revision
          headerChanged := patch.header.isSome
          turns := p.deltas.entries.map fun (turnId, delta) =>
            ⟨turnId, delta.previous, delta.current, delta.upsert, delta.remove⟩ },
      { p.toTurnIndex with
        currentHeader := patch.header.getD a.currentHeader
        currentRevision := patch.revision
        materialized := none })

end Rika.Accumulator
