import Rika.AccumulatorRuns

namespace Rika.Accumulator

open ThreadView
open Fold (refuse_eq_ok bind_eq_ok)
open InsertionMap (entries_ofList get_delete get_eq_some get_foldl_write_of_mem get_foldl_write_of_notMem get_set mem_keys)

structure Content where
  turns : InsertionMap String ThreadViewTurnState
  units : InsertionMap String TranscriptUnit.Unit

section

variable (snapshot : ThreadViewSnapshot)

def keyedTurns : List (String × ThreadViewTurnState) :=
  snapshot.turns.map fun entry => (entry.turn.id, entry.toThreadViewTurnState)

def keyedUnits : List (String × TranscriptUnit.Unit) :=
  (snapshot.turns.flatMap (·.units)).map fun unit => (unit.key, unit)

def content : Content := ⟨.ofList (keyedTurns snapshot), .ofList (keyedUnits snapshot)⟩

end

structure Content.Shows (content : Content) (snapshot : ThreadViewSnapshot) : Prop where
  turns : content.turns.entries = keyedTurns snapshot
  units : content.units.entries = keyedUnits snapshot

/-- Removed units go, upserted ones take their place, and the turn is shown as it is now or not at all. -/
def Content.applyTurn (content : Content) (delta : ThreadViewTurnDelta) : Content where
  turns := content.turns.write (delta.turnId, delta.current)
  units := delta.upsert.foldl (fun units unit => units.set unit.key unit)
    (delta.remove.foldl (fun units key => units.delete key) content.units)

def Content.applyDelta (content : Content) (delta : ThreadViewDelta) : Content := delta.turns.foldl Content.applyTurn content

section Writes

def unitWrites (remove : List String) (upsert : List TranscriptUnit.Unit) : List (String × Option TranscriptUnit.Unit) :=
  remove.map (·, none) ++ upsert.map fun unit => (unit.key, some unit)

theorem foldl_unitWrites (units : InsertionMap String TranscriptUnit.Unit) (remove : List String)
    (upsert : List TranscriptUnit.Unit) : (unitWrites remove upsert).foldl InsertionMap.write units =
      upsert.foldl (fun units unit => units.set unit.key unit) (remove.foldl (fun units key => units.delete key) units) := by
  rw [unitWrites, List.foldl_append, List.foldl_map, List.foldl_map]
  rfl

theorem applyDelta_eq (content : Content) (delta : ThreadViewDelta) :
    (content.applyDelta delta).turns = (delta.turns.map fun turn => (turn.turnId, turn.current)).foldl InsertionMap.write content.turns ∧
      (content.applyDelta delta).units =
        (delta.turns.flatMap fun turn => unitWrites turn.remove turn.upsert).foldl InsertionMap.write content.units := by
  rw [Content.applyDelta]
  generalize delta.turns = turns
  induction turns generalizing content with
  | nil => exact ⟨rfl, rfl⟩
  | cons turn turns ih =>
    obtain ⟨hturns, hunits⟩ := ih (content.applyTurn turn)
    rw [List.foldl_cons, List.map_cons, List.foldl_cons, List.flatMap_cons, List.foldl_append, foldl_unitWrites]
    exact ⟨hturns, hunits⟩

end Writes

section Held

def TurnIndex.unit (index : TurnIndex) (key : String) : Option TranscriptUnit.Unit :=
  (index.unitOwners.get key).bind fun owner => (index.turnsById.get owner).bind (·.units.get key)

theorem unit_eq_some {threadId : String} {index : TurnIndex} (h : index.Consistent threadId) {key : String}
    {unit : TranscriptUnit.Unit} : index.unit key = some unit ↔
      ∃ turnId indexed, index.turnsById.get turnId = some indexed ∧ indexed.units.get key = some unit := by
  rw [TurnIndex.unit]
  constructor
  · intro hunit
    obtain ⟨owner, -, hunit⟩ := Option.bind_eq_some_iff.mp hunit
    obtain ⟨indexed, hindexed, hunit⟩ := Option.bind_eq_some_iff.mp hunit
    exact ⟨owner, indexed, hindexed, hunit⟩
  · intro hheld
    obtain ⟨turnId, indexed, hindexed, hunit⟩ := hheld
    rw [(h.owner_iff key turnId).mpr ⟨indexed, unit, hindexed, hunit⟩, Option.bind_some, hindexed, Option.bind_some, hunit]

variable {collation : Collation} {a : ThreadViewAccumulator}

theorem content_shows (ha : a.Consistent collation) : (content (a.view collation)).Shows (a.view collation) := by
  constructor
  · refine entries_ofList ?_
    rw [keyedTurns, List.map_map]
    exact view_turns_nodup ha
  · have hnodup := view_units_nodup ha
    rw [← List.map_flatMap] at hnodup
    refine entries_ofList ?_
    rw [keyedUnits, List.map_map]
    exact hnodup

theorem content_turns (ha : a.Consistent collation) (turnId : String) :
    (content (a.view collation)).turns.get turnId = a.turn turnId := by
  ext state
  rw [get_eq_some, (content_shows ha).turns, turn_eq_some, keyedTurns, List.mem_map]
  constructor
  · intro h
    obtain ⟨entry, hentry, heq⟩ := h
    obtain ⟨turnId', indexed, hindexed, rfl⟩ := mem_view_turns.mp hentry
    rw [Prod.mk.injEq] at heq
    have hid : turnId' = turnId := (ha.index.filed turnId' indexed hindexed).turn_id.symm.trans heq.1
    exact ⟨indexed, hid ▸ hindexed, heq.2⟩
  · intro h
    obtain ⟨indexed, hindexed, rfl⟩ := h
    refine ⟨indexed.entry collation, mem_view_turns.mpr ⟨turnId, indexed, hindexed, rfl⟩, ?_⟩
    rw [Prod.mk.injEq]
    exact ⟨(ha.index.filed turnId indexed hindexed).turn_id, rfl⟩

theorem content_units (ha : a.Consistent collation) (key : String) :
    (content (a.view collation)).units.get key = a.unit key := by
  ext unit
  rw [get_eq_some, (content_shows ha).units, unit_eq_some ha.index, keyedUnits, List.mem_map]
  constructor
  · intro h
    obtain ⟨unit', hunit', heq⟩ := h
    rw [Prod.mk.injEq] at heq
    obtain ⟨hkey, rfl⟩ := heq
    obtain ⟨entry, hentry, hunit⟩ := List.mem_flatMap.mp hunit'
    obtain ⟨turnId, indexed, hindexed, rfl⟩ := mem_view_turns.mp hentry
    obtain ⟨key', hget⟩ := mem_entry_units.mp hunit
    have hsame : key' = key := ((ha.index.filed turnId indexed hindexed).unit_key key' _ hget).symm.trans hkey
    exact ⟨turnId, indexed, hindexed, hsame ▸ hget⟩
  · intro h
    obtain ⟨turnId, indexed, hindexed, hget⟩ := h
    refine ⟨unit, List.mem_flatMap.mpr ⟨indexed.entry collation, mem_view_turns.mpr ⟨turnId, indexed, hindexed, rfl⟩,
      mem_entry_units.mpr ⟨key, hget⟩⟩, ?_⟩
    rw [Prod.mk.injEq]
    exact ⟨(ha.index.filed turnId indexed hindexed).unit_key key unit hget, rfl⟩

end Held

section Tracking

def Progress.writes (p : Progress) : List (String × Option TranscriptUnit.Unit) :=
  p.deltas.entries.flatMap fun e => unitWrites e.2.remove e.2.upsert

/-- The deltas so far say how the turns and units came from those of another index. -/
structure Progress.Tracks (p : Progress) (a : TurnIndex) : Prop where
  previous : ∀ turnId delta, p.deltas.get turnId = some delta → delta.previous = a.turn turnId
  current : ∀ turnId delta, p.deltas.get turnId = some delta → delta.current = p.turn turnId
  untouched : ∀ turnId, p.deltas.get turnId = none → p.turn turnId = a.turn turnId
  nodup : (p.writes.map Prod.fst).Nodup
  written : ∀ write ∈ p.writes, p.unit write.1 = write.2
  kept : ∀ key, key ∉ p.writes.map Prod.fst → p.unit key = a.unit key

variable {a : TurnIndex} {p p' : Progress}

theorem tracks_empty (a : TurnIndex) : Progress.Tracks { a with deltas := .empty } a where
  previous := fun _ _ h => absurd h (Option.some_ne_none _).symm
  current := fun _ _ h => absurd h (Option.some_ne_none _).symm
  untouched := fun _ _ => rfl
  nodup := List.nodup_nil
  written := fun _ h => absurd h List.not_mem_nil
  kept := fun _ _ => rfl

theorem Progress.Tracks.deltaFor_previous (h : p.Tracks a) (turnId : String) : (p.deltaFor turnId).previous = a.turn turnId := by
  rw [deltaFor]
  cases hget : p.deltas.get turnId with
  | none => exact h.untouched turnId hget
  | some delta => exact h.previous turnId delta hget

theorem Progress.Tracks.deltaFor_current (h : p.Tracks a) (turnId : String) : (p.deltaFor turnId).current = p.turn turnId := by
  rw [deltaFor]
  cases hget : p.deltas.get turnId with
  | none => rfl
  | some delta => exact h.current turnId delta hget

variable {turnId key threadId : String} {remove keys : List String} {unit : TranscriptUnit.Unit}
    {changes : List ThreadViewTurnChange}

theorem Progress.Tracks.set (h : p.Tracks a) {delta : TurnDelta} {xs : List (String × Option TranscriptUnit.Unit)}
    (hdeltas : p'.deltas = p.deltas.set turnId delta) (hprevious : delta.previous = (p.deltaFor turnId).previous)
    (hcurrent : delta.current = p'.turn turnId) (hturns : ∀ other, other ≠ turnId → p'.turn other = p.turn other)
    (hwrites : (unitWrites delta.remove delta.upsert).Perm
      (unitWrites (p.deltaFor turnId).remove (p.deltaFor turnId).upsert ++ xs))
    (hnodup : (xs.map Prod.fst).Nodup) (hfresh : ∀ key ∈ xs.map Prod.fst, key ∉ p.writes.map Prod.fst)
    (hwritten : ∀ write ∈ xs, p'.unit write.1 = write.2) (hkept : ∀ key, key ∉ xs.map Prod.fst → p'.unit key = p.unit key) :
    p'.Tracks a ∧ p'.writes.Perm (p.writes ++ xs) := by
  have hperm : p'.writes.Perm (p.writes ++ xs) := by
    rw [Progress.writes, hdeltas]
    refine InsertionMap.flatMap_entries_set p.deltas (f := fun e => unitWrites e.2.remove e.2.upsert) (hwrites.trans ?_)
    rw [deltaFor]
    cases p.deltas.get turnId <;> exact .refl _
  have hkeys : (p'.writes.map Prod.fst).Perm (p.writes.map Prod.fst ++ xs.map Prod.fst) := by
    rw [← List.map_append]
    exact hperm.map _
  refine ⟨⟨?_, ?_, ?_, ?_, ?_, ?_⟩, hperm⟩
  · intro other delta' hget
    rw [hdeltas, get_set] at hget
    by_cases hother : other = turnId
    · rw [if_pos hother, Option.some_inj] at hget
      rw [← hget, hprevious, hother]
      exact h.deltaFor_previous turnId
    · rw [if_neg hother] at hget
      exact h.previous other delta' hget
  · intro other delta' hget
    rw [hdeltas, get_set] at hget
    by_cases hother : other = turnId
    · rw [if_pos hother, Option.some_inj] at hget
      rw [← hget, hcurrent, hother]
    · rw [if_neg hother] at hget
      rw [hturns other hother]
      exact h.current other delta' hget
  · intro other hget
    rw [hdeltas, get_set] at hget
    by_cases hother : other = turnId
    · rw [if_pos hother] at hget
      cases hget
    · rw [if_neg hother] at hget
      rw [hturns other hother]
      exact h.untouched other hget
  · rw [hkeys.nodup_iff, List.nodup_append']
    exact ⟨h.nodup, hnodup, fun key hkey hkey' => hfresh key hkey' hkey⟩
  · intro write hwrite
    rcases List.mem_append.mp (hperm.mem_iff.mp hwrite) with hold | hnew
    · have hnot : write.1 ∉ xs.map Prod.fst := fun hmem => hfresh _ hmem (List.mem_map_of_mem hold)
      rw [hkept _ hnot]
      exact h.written write hold
    · exact hwritten write hnew
  · intro key hkey
    rw [hkeys.mem_iff, List.mem_append, not_or] at hkey
    rw [hkept key hkey.2]
    exact h.kept key hkey.1

theorem unitWrites_remove (remove keys : List String) (upsert : List TranscriptUnit.Unit) :
    (unitWrites (remove ++ keys) upsert).Perm (unitWrites remove upsert ++ keys.map (·, none)) := by
  rw [unitWrites, unitWrites, List.map_append, List.append_assoc, List.append_assoc]
  exact List.Perm.append_left _ List.perm_append_comm

theorem unitWrites_upsert (remove : List String) (upsert : List TranscriptUnit.Unit) (unit : TranscriptUnit.Unit) :
    (unitWrites remove (upsert ++ [unit])).Perm (unitWrites remove upsert ++ [(unit.key, some unit)]) := by
  rw [unitWrites, unitWrites, List.map_append, ← List.append_assoc]
  exact .refl _

theorem map_fst_removed (keys : List String) :
    (keys.map fun key => (key, (none : Option TranscriptUnit.Unit))).map Prod.fst = keys := by
  rw [List.map_map]
  exact List.map_id _

theorem removeUnit_unit (h : removeUnit p key = some p') (other : String) :
    p'.unit other = if other = key then none else p.unit other := by
  obtain ⟨owner, indexed, howner, hindexed, hturns, howners, -⟩ := removeUnit_cases h
  rw [TurnIndex.unit, TurnIndex.unit, howners, hturns, get_delete]
  by_cases hkey : other = key
  · rw [if_pos hkey, if_pos hkey]
    rfl
  · rw [if_neg hkey, if_neg hkey]
    congr 1
    funext owner'
    rw [get_set]
    by_cases hsame : owner' = owner
    · rw [if_pos hsame, hsame, hindexed, Option.bind_some, Option.bind_some, get_delete, if_neg hkey]
    · rw [if_neg hsame]

theorem removeUnit_tracks (hp : p.Tracks a) (h : removeUnit p key = some p') (hfresh : key ∉ p.writes.map Prod.fst) :
    p'.Tracks a ∧ p'.writes.Perm (p.writes ++ [(key, none)]) := by
  have hturn := removeUnit_turn h
  have hunit := removeUnit_unit h
  obtain ⟨owner, howner, h⟩ := Option.bind_eq_some_iff.mp h
  obtain ⟨indexed, hindexed, h⟩ := Option.bind_eq_some_iff.mp h
  have hdeltas : p'.deltas = p.deltas.set owner { p.deltaFor owner with remove := (p.deltaFor owner).remove ++ [key] } := by
    cases h
    rfl
  refine hp.set hdeltas rfl ?_ (fun other _ => hturn other) (unitWrites_remove _ [key] _) (List.nodup_singleton _)
    (List.forall_mem_singleton.mpr hfresh) (List.forall_mem_singleton.mpr ?_) ?_
  · rw [hturn]
    exact hp.deltaFor_current owner
  · rw [hunit, if_pos rfl]
  · intro other hother
    rw [List.map_singleton, List.mem_singleton] at hother
    rw [hunit, if_neg hother]

theorem removeTurn_unit (hp : p.Consistent threadId) {indexed : IndexedTurn}
    (hindexed : p.turnsById.get turnId = some indexed) (h : changeTurn remove p (.removeTurn turnId) = some p') (key : String) :
    p'.unit key = if key ∈ indexed.units.keys then none else p.unit key := by
  rw [changeTurn, hindexed, Option.bind_eq_bind, Option.bind_some, Option.some_inj] at h
  subst h
  simp only [TurnIndex.unit]
  rw [get_foldl_delete]
  by_cases hkey : key ∈ indexed.units.keys
  · rw [if_pos hkey, if_pos hkey]
    rfl
  · rw [if_neg hkey, if_neg hkey]
    cases howner : p.unitOwners.get key with
    | none => rfl
    | some owner =>
      have hne : owner ≠ turnId := by
        intro heq
        obtain ⟨indexed', unit, hindexed', hunit⟩ := (hp.owner_iff key owner).mp howner
        rw [heq, hindexed, Option.some_inj] at hindexed'
        exact hkey (mem_keys.mpr ⟨unit, hindexed' ▸ hunit⟩)
      rw [Option.bind_some, Option.bind_some, get_delete, if_neg hne]

theorem upsertTurn_unit {state : ThreadViewTurnState}
    (h : changeTurn remove p (.upsertTurn state) = some p') (key : String) : p'.unit key = p.unit key := by
  cases h
  simp only [TurnIndex.unit]
  congr 1
  funext owner
  rw [get_set]
  by_cases hsame : owner = state.turn.id
  · rw [if_pos hsame, hsame]
    cases p.turnsById.get state.turn.id <;> rfl
  · rw [if_neg hsame]

theorem upsertUnit_unit (h : upsertUnit p unit = some p') (key : String) :
    p'.unit key = if key = unit.key then some unit else p.unit key := by
  obtain ⟨indexed, hindexed, h⟩ := Option.bind_eq_some_iff.mp h
  cases h
  simp only [TurnIndex.unit]
  rw [get_set]
  by_cases hkey : key = unit.key
  · rw [if_pos hkey, if_pos hkey, Option.bind_some, get_set, if_pos rfl, Option.bind_some, get_set,
      if_pos hkey]
  · rw [if_neg hkey, if_neg hkey]
    congr 1
    funext owner
    rw [get_set]
    by_cases hsame : owner = unit.turnId
    · rw [if_pos hsame, hsame, hindexed, Option.bind_some, Option.bind_some, get_set, if_neg hkey]
    · rw [if_neg hsame]

/-- While units are removed: nothing is upserted yet, what the patch names is gone, and what else is gone was of a turn that
is removed. -/
structure Progress.Removing (p : Progress) (a : TurnIndex) (remove : List String) (changes : List ThreadViewTurnChange) : Prop where
  removed : ∀ write ∈ p.writes, write.2 = none
  named : ∀ key ∈ remove, (key, none) ∈ p.writes
  origin : ∀ key ∈ p.writes.map Prod.fst, key ∈ remove ∨
    ∃ turnId, .removeTurn turnId ∈ changes ∧ a.unitOwners.get key = some turnId
  owners : ∀ key owner, p.unitOwners.get key = some owner → a.unitOwners.get key = some owner

theorem Progress.Removing.unit_eq_none
    (h : p.Removing a remove changes) (hp : p.Tracks a) (hkey : key ∈ p.writes.map Prod.fst) : p.unit key = none := by
  obtain ⟨write, hwrite, rfl⟩ := List.mem_map.mp hkey
  rw [hp.written write hwrite]
  exact h.removed write hwrite

theorem Progress.Removing.append (h : p.Removing a remove changes) (hperm : p'.writes.Perm (p.writes ++ keys.map (·, none)))
    (horigin : ∀ key ∈ keys, ∃ turnId, .removeTurn turnId ∈ changes ∧ a.unitOwners.get key = some turnId)
    (howners : ∀ key owner, p'.unitOwners.get key = some owner → p.unitOwners.get key = some owner) : p'.Removing a remove changes where
  removed := by
    intro write hwrite
    rcases List.mem_append.mp (hperm.mem_iff.mp hwrite) with hold | hnew
    · exact h.removed write hold
    · obtain ⟨_, _, rfl⟩ := List.mem_map.mp hnew
      rfl
  named := fun key hkey => hperm.mem_iff.mpr (List.mem_append_left _ (h.named key hkey))
  origin := by
    intro key hkey
    have hkeys := hperm.map Prod.fst
    rw [List.map_append, map_fst_removed] at hkeys
    rcases List.mem_append.mp (hkeys.mem_iff.mp hkey) with hold | hnew
    · exact h.origin key hold
    · exact .inr (horigin key hnew)
  owners := fun key owner hget => h.owners key owner (howners key owner hget)

theorem changeTurn_tracks {change : ThreadViewTurnChange}
    (hc : p.Consistent threadId) (hp : p.Tracks a) (hr : p.Removing a remove changes) (hmem : change ∈ changes)
    (h : changeTurn remove p change = some p') : p'.Tracks a ∧ p'.Removing a remove changes := by
  have hturn := changeTurn_turn h
  have howners : ∀ key owner, p'.unitOwners.get key = some owner → p.unitOwners.get key = some owner :=
    fun key owner hget => changeTurn_owners h hget
  cases change with
  | removeTurn turnId =>
    have hbind := h
    obtain ⟨indexed, hindexed, hbind⟩ := Option.bind_eq_some_iff.mp hbind
    have hunit := removeTurn_unit hc hindexed h
    have hheld : ∀ key ∈ indexed.units.keys, p.unitOwners.get key = some turnId ∧ p.unit key ≠ none := by
      intro key hkey
      obtain ⟨unit, hget⟩ := mem_keys.mp hkey
      refine ⟨(hc.owner_iff key turnId).mpr ⟨indexed, unit, hindexed, hget⟩, ?_⟩
      rw [(unit_eq_some hc).mpr ⟨turnId, indexed, hindexed, hget⟩]
      exact Option.some_ne_none unit
    have hnotNamed : ∀ key ∈ indexed.units.keys, key ∉ remove := fun key hkey hnamed =>
      (hheld key hkey).2 (hr.unit_eq_none hp (List.mem_map_of_mem (hr.named key hnamed)))
    have hall : indexed.units.keys.filter (· ∉ remove) = indexed.units.keys :=
      List.filter_eq_self.mpr fun key hkey => decide_eq_true (hnotNamed key hkey)
    have hdeltas : p'.deltas = p.deltas.set turnId { p.deltaFor turnId with
        current := none, remove := (p.deltaFor turnId).remove ++ indexed.units.keys } := by
      cases hbind
      rw [hall]
    have hself : p'.turn turnId = none := by rw [hturn]; exact if_pos rfl
    have hother : ∀ other, other ≠ turnId → p'.turn other = p.turn other := fun other hne => by
      rw [hturn, changedTurn_of_ne (Ne.symm hne)]
    obtain ⟨htracks, hperm⟩ := hp.set hdeltas rfl hself.symm hother (unitWrites_remove _ _ _)
      (by rw [map_fst_removed]; exact indexed.units.nodupKeys)
      (by
        rw [map_fst_removed]
        exact fun key hkey hwritten => (hheld key hkey).2 (hr.unit_eq_none hp hwritten))
      (List.forall_mem_map.mpr fun key hkey => by rw [hunit, if_pos hkey])
      (by
        rw [map_fst_removed]
        exact fun key hkey => by rw [hunit, if_neg hkey])
    refine ⟨htracks, hr.append hperm (fun key hkey => ⟨turnId, hmem, hr.owners key turnId (hheld key hkey).1⟩) howners⟩
  | upsertTurn state =>
    have hunit := upsertTurn_unit h
    have hdeltas : p'.deltas = p.deltas.set state.turn.id { p.deltaFor state.turn.id with current := some (turnState state) } := by
      cases h
      rfl
    have hself : p'.turn state.turn.id = some (turnState state) := by rw [hturn]; exact if_pos rfl
    have hother : ∀ other, other ≠ state.turn.id → p'.turn other = p.turn other := fun other hne => by
      rw [hturn, changedTurn_of_ne (Ne.symm hne)]
    obtain ⟨htracks, hperm⟩ : p'.Tracks a ∧ p'.writes.Perm (p.writes ++ ([] : List String).map (·, none)) :=
      hp.set hdeltas rfl hself.symm hother (.of_eq (List.append_nil _).symm)
      List.nodup_nil (fun _ hkey => absurd hkey List.not_mem_nil) (fun _ hwrite => absurd hwrite List.not_mem_nil)
      (fun key _ => hunit key)
    exact ⟨htracks, hr.append hperm (fun _ hkey => absurd hkey List.not_mem_nil) howners⟩

theorem upsertUnit_tracks (hp : p.Tracks a) (h : upsertUnit p unit = some p')
    (hfresh : unit.key ∉ p.writes.map Prod.fst) : p'.Tracks a ∧ p'.writes.Perm (p.writes ++ [(unit.key, some unit)]) := by
  have hturn := upsertUnit_turn h
  have hunit := upsertUnit_unit h
  obtain ⟨indexed, hindexed, h⟩ := Option.bind_eq_some_iff.mp h
  have hdeltas : p'.deltas = p.deltas.set unit.turnId
      { p.deltaFor unit.turnId with upsert := (p.deltaFor unit.turnId).upsert ++ [unit] } := by
    cases h
    rfl
  refine hp.set hdeltas rfl ?_ (fun other _ => hturn other) (unitWrites_upsert _ _ _) (List.nodup_singleton _)
    (List.forall_mem_singleton.mpr hfresh) (List.forall_mem_singleton.mpr ?_) ?_
  · rw [hturn]
    exact hp.deltaFor_current unit.turnId
  · rw [hunit, if_pos rfl]
  · intro other hother
    rw [List.map_singleton, List.mem_singleton] at hother
    rw [hunit, if_neg hother]

theorem removeUnits_track (hp : p.Tracks a) (h : keys.foldlM removeUnit p = some p')
    (hnodup : keys.Nodup) (hfresh : ∀ key ∈ keys, key ∉ p.writes.map Prod.fst) :
    p'.Tracks a ∧ p'.writes.Perm (p.writes ++ keys.map (·, none)) := by
  induction keys generalizing p with
  | nil =>
    cases h
    exact ⟨hp, .of_eq (List.append_nil _).symm⟩
  | cons key keys ih =>
    obtain ⟨hkey, hnodup⟩ := List.nodup_cons.mp hnodup
    rw [List.foldlM_cons] at h
    obtain ⟨p₁, h₁, h₂⟩ := Option.bind_eq_some_iff.mp h
    obtain ⟨htracks, hperm⟩ := removeUnit_tracks hp h₁ (hfresh key List.mem_cons_self)
    have hkeys : (p₁.writes.map Prod.fst).Perm (p.writes.map Prod.fst ++ [key]) := by
      have hmap := hperm.map Prod.fst
      rwa [List.map_append] at hmap
    have hrest : ∀ other ∈ keys, other ∉ p₁.writes.map Prod.fst := by
      intro other hother hmem
      rcases List.mem_append.mp (hkeys.mem_iff.mp hmem) with hold | hnew
      · exact hfresh other (List.mem_cons_of_mem _ hother) hold
      · exact hkey (List.mem_singleton.mp hnew ▸ hother)
    obtain ⟨htracks', hperm'⟩ := ih htracks h₂ hnodup hrest
    refine ⟨htracks', hperm'.trans ((hperm.append_right _).trans (.of_eq ?_))⟩
    rw [List.append_assoc, List.map_cons, List.singleton_append]

theorem changeTurns_track {rest : List ThreadViewTurnChange}
    (hc : p.Consistent threadId) (hp : p.Tracks a) (hr : p.Removing a remove changes) (hsub : rest ⊆ changes)
    (hthread : ∀ state, .upsertTurn state ∈ rest → state.turn.threadId = threadId)
    (h : rest.foldlM (changeTurn remove) p = some p') : p'.Tracks a ∧ p'.Removing a remove changes := by
  induction rest generalizing p with
  | nil =>
    cases h
    exact ⟨hp, hr⟩
  | cons change rest ih =>
    rw [List.foldlM_cons] at h
    obtain ⟨p₁, h₁, h₂⟩ := Option.bind_eq_some_iff.mp h
    obtain ⟨htracks, hremoving⟩ := changeTurn_tracks hc hp hr (hsub List.mem_cons_self) h₁
    have hconsistent : p₁.Consistent threadId :=
      changeTurn_consistent hc (fun state hstate => hthread state (hstate ▸ List.mem_cons_self)) h₁
    exact ih hconsistent htracks hremoving (fun _ hmem => hsub (List.mem_cons_of_mem _ hmem))
      (fun state hstate => hthread state (List.mem_cons_of_mem _ hstate)) h₂

theorem upsertUnits_track {units : List TranscriptUnit.Unit} (hp : p.Tracks a) (h : units.foldlM upsertUnit p = some p')
    (hnodup : (units.map (·.key)).Nodup) (hfresh : ∀ unit ∈ units, unit.key ∉ p.writes.map Prod.fst) : p'.Tracks a := by
  induction units generalizing p with
  | nil =>
    cases h
    exact hp
  | cons unit units ih =>
    rw [List.map_cons, List.nodup_cons] at hnodup
    rw [List.foldlM_cons] at h
    obtain ⟨p₁, h₁, h₂⟩ := Option.bind_eq_some_iff.mp h
    obtain ⟨htracks, hperm⟩ := upsertUnit_tracks hp h₁ (hfresh unit List.mem_cons_self)
    have hkeys : (p₁.writes.map Prod.fst).Perm (p.writes.map Prod.fst ++ [unit.key]) := by
      have hmap := hperm.map Prod.fst
      rwa [List.map_append] at hmap
    refine ih htracks h₂ hnodup.2 fun other hother hmem => ?_
    rcases List.mem_append.mp (hkeys.mem_iff.mp hmem) with hold | hnew
    · exact hfresh other (List.mem_cons_of_mem _ hother) hold
    · exact hnodup.1 (List.mem_map.mpr ⟨other, hother, List.mem_singleton.mp hnew⟩)

end Tracking

section Deltas

variable {collation : Collation} {a a' : ThreadViewAccumulator} {patch : ThreadViewPatch} {delta : ThreadViewDelta}

theorem check_upsert_notMem_remove (h : check a patch = .ok ()) : ∀ unit ∈ patch.upsert, unit.key ∉ patch.remove := by
  simp only [check, bind_eq_ok, refuse_eq_ok] at h
  obtain ⟨-, -, -, hcollection, -⟩ := h
  exact (collectionError_eq_none.mp hcollection).2.2.1

theorem change_tracks {p : Progress} (ha : a.Consistent collation) (hcheck : check a patch = .ok ())
    (h : change a.toTurnIndex patch = some p) : p.Tracks a.toTurnIndex := by
  have hadmitted := check_admitted hcheck
  obtain ⟨p₁, h₁, h⟩ := Option.bind_eq_some_iff.mp h
  obtain ⟨p₂, h₂, h₃⟩ := Option.bind_eq_some_iff.mp h
  have hempty := tracks_empty a.toTurnIndex
  obtain ⟨htracks₁, hperm₁⟩ := removeUnits_track hempty h₁ hadmitted.remove_nodup fun _ _ hmem => absurd hmem List.not_mem_nil
  have hwrites : p₁.writes.Perm (patch.remove.map (·, none)) := hperm₁
  obtain ⟨p₁', h₁', hconsistent₁, howners₁⟩ := removeUnits_some (a := a) (p := { a.toTurnIndex with deltas := .empty }) ha.index
    hadmitted.remove_nodup
    (fun key hkey => InsertionMap.has_iff.mp (hadmitted.removed key hkey)) (fun _ _ howner => howner)
  obtain rfl : p₁ = p₁' := Option.some_inj.mp (h₁.symm.trans h₁')
  have hremoving₁ : p₁.Removing a.toTurnIndex patch.remove patch.turnChanges := by
    refine ⟨fun write hwrite => ?_, fun key hkey => ?_, fun key hkey => ?_, howners₁⟩
    · obtain ⟨_, _, rfl⟩ := List.mem_map.mp (hwrites.mem_iff.mp hwrite)
      rfl
    · exact hwrites.mem_iff.mpr (List.mem_map_of_mem hkey)
    · have hkeys := hwrites.map Prod.fst
      rw [map_fst_removed] at hkeys
      exact .inl (hkeys.mem_iff.mp hkey)
  obtain ⟨htracks₂, hremoving₂⟩ := changeTurns_track hconsistent₁ htracks₁ hremoving₁ (List.Subset.refl _)
    (fun state hstate => (turnChangeError_upsertTurn (hadmitted.changes _ hstate)).1) h₂
  refine upsertUnits_track htracks₂ h₃ hadmitted.upsert_nodup fun unit hunit hmem => ?_
  -- a unit that is gone was named, or was of a turn that is removed and so holds none that is upserted
  rcases hremoving₂.origin unit.key hmem with hnamed | ⟨turnId, hturn, howner⟩
  · exact check_upsert_notMem_remove hcheck unit hunit hnamed
  · have hsame := upsertUnitError_owner (hadmitted.owner unit hunit) howner
    have hholder := hadmitted.holder unit hunit
    rw [changedTurns, foldl_changedTurn_of_mem hadmitted.changes_nodup hturn hsame] at hholder
    simp [changedTurn, ThreadViewTurnChange.key, hsame] at hholder

theorem apply_eq_ok (h : apply a patch = some (.ok delta, a')) : ∃ p, check a patch = .ok () ∧ change a.toTurnIndex patch = some p ∧
    delta.turns = p.deltas.entries.map (fun e => ⟨e.1, e.2.previous, e.2.current, e.2.upsert, e.2.remove⟩) ∧
      a'.toTurnIndex = p.toTurnIndex := by
  rw [apply] at h
  cases hcheck : check a patch with
  | error error =>
    rw [hcheck] at h
    cases h
  | ok u =>
    rw [hcheck] at h
    obtain ⟨p, hp, h⟩ := Option.bind_eq_some_iff.mp h
    cases h
    exact ⟨p, rfl, hp, rfl, rfl⟩

/-- The turns are as they were and as they are, no key is there twice, and applying the delta gives what the view shows.
-/
structure DeltaExact (before after : Content) (delta : ThreadViewDelta) : Prop where
  turns_nodup : (delta.turns.map (·.turnId)).Nodup
  keys_nodup : (delta.turns.flatMap fun turn => turn.remove ++ turn.upsert.map (·.key)).Nodup
  previous : ∀ turn ∈ delta.turns, turn.previous = before.turns.get turn.turnId
  current : ∀ turn ∈ delta.turns, turn.current = after.turns.get turn.turnId
  turns : ∀ turnId, (before.applyDelta delta).turns.get turnId = after.turns.get turnId
  units : ∀ key, (before.applyDelta delta).units.get key = after.units.get key

theorem deltaExact_of_consistent (ha : a.Consistent collation) (ha' : a'.Consistent collation)
    (h : apply a patch = some (.ok delta, a')) :
    DeltaExact (content (a.view collation)) (content (a'.view collation)) delta := by
  obtain ⟨p, hcheck, hchange, hturns, hindex⟩ := apply_eq_ok h
  have htracks := change_tracks ha hcheck hchange
  have hturn (turnId : String) : a'.turn turnId = p.turn turnId := by rw [hindex]
  have hunit (key : String) : a'.unit key = p.unit key := by rw [hindex]
  have hwrites : (delta.turns.flatMap fun turn => unitWrites turn.remove turn.upsert) = p.writes := by
    rw [hturns, List.flatMap_map, Progress.writes]
  have hkeys : (delta.turns.flatMap fun turn => turn.remove ++ turn.upsert.map (·.key)) = p.writes.map Prod.fst := by
    rw [← hwrites, List.map_flatMap]
    refine List.flatMap_congr fun turn _ => ?_
    rw [unitWrites, List.map_append, map_fst_removed, List.map_map]
    rfl
  have hids : delta.turns.map (·.turnId) = p.deltas.keys := by
    rw [hturns, List.map_map]
    rfl
  have hnodup : ((delta.turns.map fun turn => (turn.turnId, turn.current)).map Prod.fst).Nodup := by
    rw [List.map_map]
    exact hids ▸ p.deltas.nodupKeys
  have hget : ∀ turn ∈ delta.turns, ∃ delta', p.deltas.get turn.turnId = some delta' ∧ delta'.previous = turn.previous ∧
      delta'.current = turn.current := by
    intro turn hmem
    rw [hturns] at hmem
    obtain ⟨e, he, rfl⟩ := List.mem_map.mp hmem
    exact ⟨e.2, get_eq_some.mpr he, rfl, rfl⟩
  obtain ⟨happlyTurns, happlyUnits⟩ := applyDelta_eq (content (a.view collation)) delta
  have hcurrent : ∀ turn ∈ delta.turns, turn.current = (content (a'.view collation)).turns.get turn.turnId := by
    intro turn hmem
    obtain ⟨delta', hdelta, -, hsame⟩ := hget turn hmem
    rw [content_turns ha', hturn, ← hsame]
    exact htracks.current _ _ hdelta
  refine ⟨hids ▸ p.deltas.nodupKeys, hkeys ▸ htracks.nodup, ?_, hcurrent, ?_, ?_⟩
  · intro turn hmem
    obtain ⟨delta', hdelta, hsame, -⟩ := hget turn hmem
    rw [content_turns ha, ← hsame]
    exact htracks.previous _ _ hdelta
  · intro turnId
    rw [happlyTurns]
    by_cases hmem : turnId ∈ delta.turns.map (·.turnId)
    · obtain ⟨turn, hturnMem, rfl⟩ := List.mem_map.mp hmem
      rw [get_foldl_write_of_mem (List.mem_map.mpr ⟨turn, hturnMem, rfl⟩) hnodup]
      exact hcurrent turn hturnMem
    · have hnot : turnId ∉ (delta.turns.map fun turn => (turn.turnId, turn.current)).map Prod.fst := by
        rw [List.map_map]
        exact hmem
      rw [get_foldl_write_of_notMem hnot, content_turns ha, content_turns ha', hturn]
      rw [hids] at hmem
      exact (htracks.untouched turnId (InsertionMap.get_eq_none.mpr hmem)).symm
  · intro key
    rw [happlyUnits, hwrites, content_units ha', hunit]
    by_cases hmem : key ∈ p.writes.map Prod.fst
    · obtain ⟨write, hwrite, rfl⟩ := List.mem_map.mp hmem
      rw [get_foldl_write_of_mem hwrite htracks.nodup]
      exact (htracks.written write hwrite).symm
    · rw [get_foldl_write_of_notMem hmem, content_units ha]
      exact (htracks.kept key hmem).symm

/-- Whatever calls reached an accumulator made from a snapshot, the delta of a patch that it accepts makes its new view of its
old one. -/
theorem apply_delta_exact (collation : Collation) {snapshot : ThreadViewSnapshot} {start : ThreadViewAccumulator} {calls : List Call}
    (hstart : fromSnapshot snapshot = .ok start) (hcalls : calls.foldlM (call collation) start = some a)
    (happly : apply a patch = some (.ok delta, a')) :
    (content (a.snapshot collation).1).Shows (a.snapshot collation).1 ∧ (content (a'.snapshot collation).1).Shows (a'.snapshot collation).1 ∧
      DeltaExact (content (a.snapshot collation).1) (content (a'.snapshot collation).1) delta := by
  obtain ⟨a₁, hcalls₁, ha⟩ := calls_consistent (fromSnapshot_consistent hstart collation) calls
  obtain rfl : a₁ = a := Option.some_inj.mp (hcalls₁.symm.trans hcalls)
  have ha' := apply_consistent ha happly
  rw [snapshot_fst ha, snapshot_fst ha']
  exact ⟨content_shows ha, content_shows ha', deltaExact_of_consistent ha ha' happly⟩

/-- One turn and its prompt go while another one comes. -/
theorem apply_delta_exact_sample :
    let snapshot := sampleSnapshot "thread" [sampleEntry (sampleTurn "first" "thread" .running) 0]
    ∃ a delta a', fromSnapshot snapshot = .ok a ∧ apply a samplePatch = some (.ok delta, a') ∧ delta.turns.length = 2 ∧
      DeltaExact (content (a.snapshot .codePoint).1) (content (a'.snapshot .codePoint).1) delta := by
  have hstart : fromSnapshot (sampleSnapshot "thread" [sampleEntry (sampleTurn "first" "thread" .running) 0]) =
      .ok (hydrated (sampleSnapshot "thread" [sampleEntry (sampleTurn "first" "thread" .running) 0])) := rfl
  obtain ⟨delta, a', happly, hlength⟩ : ∃ delta a',
      apply (hydrated (sampleSnapshot "thread" [sampleEntry (sampleTurn "first" "thread" .running) 0])) samplePatch =
        some (.ok delta, a') ∧ delta.turns.length = 2 := ⟨_, _, rfl, rfl⟩
  have hcalls : ([] : List Call).foldlM (call .codePoint)
      (hydrated (sampleSnapshot "thread" [sampleEntry (sampleTurn "first" "thread" .running) 0])) = some _ := rfl
  exact ⟨_, delta, a', hstart, happly, hlength, (apply_delta_exact .codePoint hstart hcalls happly).2.2⟩

end Deltas

end Rika.Accumulator
