import Rika.ChainSelection
import Rika.PageAgreement
import Mathlib.Order.Interval.Finset.Nat

namespace Rika.TranscriptBounds

open ChainSelection (Forest Link)
open ThreadView (PageCursor promptKey)
open TranscriptPages (Entry ValidTurnId maximumTranscriptUnits nul_notMem)
open TranscriptUnit (encodeUnitOrder)

structure BoundedTranscriptEntries where
  entries : List Entry
  partialCursor : Option PageCursor
  truncated : Bool
  oversizedEntry : Bool

def transcriptCursorFor (entry : Option Entry) : Option PageCursor :=
  entry.map fun entry => ⟨entry.turn.createdAt, entry.turn.id, encodeUnitOrder entry.unit.order⟩

def identity (entry : Entry) (id : String) : String := entry.turn.id ++ "\x00" ++ id

/-- `idOf` is the `id` of the blocks that are not looked into, and `encodedBytes`
the bytes of an entry as JSON. -/
structure Format where
  idOf : String → String → Option String
  encodedBytes : Entry → Nat

/-- `maximumTranscriptUnits` and `maximumTranscriptPayloadBytes`. -/
structure Limits where
  units : Nat
  bytes : Nat

variable (format : Format) (limits : Limits)

def blockId (unit : TranscriptUnit.Unit) : Option String :=
  match unit.content with
  | .entry _ _ => none
  | .block (.authorizationCard id _ _ _ _ _) => some id
  | .block (.toolCall call) => some call.id
  | .block (.other tag payload) => format.idOf tag payload

def userKey (turnId : String) : String := "turn:" ++ turnId ++ ":user"

section

variable (entries : List Entry)

def blocks : InsertionMap String Nat :=
  .ofList <| entries.zipIdx.filterMap fun item => (blockId format item.1.unit).map fun id => (identity item.1 id, item.2)

def prompts : InsertionMap String Nat :=
  .ofList <| entries.zipIdx.filterMap fun item =>
    if item.1.unit.key = userKey item.1.turn.id then some (item.1.turn.id, item.2) else none

def parentOf (entry : Entry) : Link Nat :=
  match entry.unit.parentId with
  | none => .root
  | some parentId => ((blocks format entries).get (identity entry parentId)).elim .missing .under

def forest : Forest Nat where
  link index := (entries[index]?).elim .missing (parentOf format entries)
  lead index := (entries[index]?).bind fun entry => (prompts entries).get entry.turn.id
  size index := (entries[index]?).elim 0 fun entry => format.encodedBytes entry + 1
  maximumItems := limits.units
  maximumSize := limits.bytes

def selected : Finset Nat :=
  ((forest format limits entries).select (entries.length + 1) 1 (List.range entries.length).reverse).selected

end

def suffixStart (selected : Finset Nat) : Nat → Nat
  | 0 => 0
  | start + 1 => if start ∈ selected then suffixStart selected start else start + 1

def kept (selected : Finset Nat) (entries : List Entry) : List Entry :=
  (entries.zipIdx.filter fun item => item.2 ∈ selected).map Prod.fst

def boundTranscriptEntries (entries : List Entry) : BoundedTranscriptEntries :=
  if (entries.getLast?.elim 0 fun entry => format.encodedBytes entry + 1) + 1 > limits.bytes then ⟨[], none, false, true⟩
  else
    let selected := selected format limits entries
    if selected.card = entries.length then ⟨entries, none, false, false⟩
    else
      ⟨kept selected entries, transcriptCursorFor entries[suffixStart selected entries.length]?, true, false⟩

def arrayBytes (entries : List Entry) : Nat :=
  if entries = [] then 2 else 1 + (entries.map fun entry => format.encodedBytes entry + 1).sum

/-- The entries of a turn that are its prompt, by the key `promptUnit` gives it. -/
def IsPromptOf (turnId : String) (entry : Entry) : Prop := entry.turn.id = turnId ∧ entry.unit.key = promptKey turnId

def IsParentOf (entry : Entry) (parentId : String) (parent : Entry) : Prop :=
  parent.turn.id = entry.turn.id ∧ blockId format parent.unit = some parentId

/-- Prompts have no parent, as `promptUnit` makes them. -/
def PromptsRooted (entries : List Entry) : Prop :=
  ∀ entry ∈ entries, IsPromptOf entry.turn.id entry → entry.unit.parentId = none

structure WellFormed (entries kept : List Entry) : Prop where
  sublist : kept.Sublist entries
  units : kept.length ≤ limits.units
  bytes : arrayBytes format kept ≤ limits.bytes
  parents : ∀ entry ∈ kept, ∀ parentId, entry.unit.parentId = some parentId → ∃ parent ∈ kept, IsParentOf format entry parentId parent
  prompts : ∀ entry ∈ kept, (∃ prompt ∈ entries, IsPromptOf entry.turn.id prompt) → ∃ prompt ∈ kept, IsPromptOf entry.turn.id prompt

def Plain (id : String) : Prop := '%' ∉ id.toList ∧ ':' ∉ id.toList

section Keys

def escape (c : Char) : List Char := if c = '%' then "%25".toList else if c = ':' then "%3A".toList else [c]

theorem length_escape_pos (c : Char) : 0 < (escape c).length := by
  rw [escape]
  split
  · exact Nat.succ_pos _
  · split <;> exact Nat.succ_pos _

theorem length_flatMap_escape (text : List Char) : text.length ≤ (text.flatMap escape).length := by
  induction text with
  | nil => exact Nat.le_refl _
  | cons c text ih =>
    rw [List.flatMap_cons, List.length_append, List.length_cons]
    have := length_escape_pos c
    omega

theorem flatMap_escape_eq_self {text : List Char} : text.flatMap escape = text ↔ '%' ∉ text ∧ ':' ∉ text := by
  induction text with
  | nil => simp
  | cons c text ih =>
    rw [List.flatMap_cons, List.mem_cons, List.mem_cons, not_or, not_or]
    by_cases hplain : escape c = [c]
    · have hc : '%' ≠ c ∧ ':' ≠ c := by
        constructor
        · rintro rfl
          revert hplain
          decide
        · rintro rfl
          revert hplain
          decide
      rw [hplain, List.singleton_append, List.cons_inj_right, ih]
      exact ⟨fun h => ⟨⟨hc.1, h.1⟩, hc.2, h.2⟩, fun h => ⟨h.1.2, h.2.2⟩⟩
    · have hlength : (escape c).length = 3 ∧ ¬('%' ≠ c ∧ ':' ≠ c) := by
        rw [escape] at hplain ⊢
        by_cases hpercent : c = '%'
        · rw [if_pos hpercent]
          exact ⟨rfl, fun h => h.1 hpercent.symm⟩
        · rw [if_neg hpercent] at hplain ⊢
          by_cases hcolon : c = ':'
          · rw [if_pos hcolon]
            exact ⟨rfl, fun h => h.2 hcolon.symm⟩
          · exact absurd (if_neg hcolon) hplain
      constructor
      · intro h
        have hlengths := congrArg List.length h
        rw [List.length_append, hlength.1, List.length_cons] at hlengths
        have := length_flatMap_escape text
        omega
      · intro h
        exact absurd ⟨h.1.1, h.2.1⟩ hlength.2

theorem toList_encodeString (value : String) : (TranscriptUnit.encodeString value).toList = value.toList.flatMap escape :=
  String.toList_ofList

theorem toList_userKey (id : String) : (userKey id).toList = "turn:".toList ++ id.toList ++ ":user".toList := by
  rw [userKey, String.toList_append, String.toList_append]

theorem toList_promptKey (id : String) :
    (promptKey id).toList = "turn:".toList ++ id.toList.flatMap escape ++ ":user".toList := by
  have hturn : TranscriptUnit.encodeString "turn" = "turn" := by decide +kernel
  have huser : TranscriptUnit.encodeString "user" = "user" := by decide +kernel
  rw [promptKey, TranscriptUnit.identityKey, List.foldl_cons, List.foldl_cons, List.foldl_nil, hturn, huser]
  simp only [String.toList_append, toList_encodeString]
  rw [List.append_assoc, List.append_assoc, List.append_assoc, List.append_assoc]
  rfl

theorem userKey_eq_promptKey {id : String} : userKey id = promptKey id ↔ Plain id := by
  rw [← String.toList_inj, toList_userKey, toList_promptKey, List.append_left_inj, List.append_right_inj, eq_comm]
  exact flatMap_escape_eq_self

end Keys

section Indices

variable {format} {entries : List Entry}

theorem append_cons_inj {α : Type*} {a : α} {left right left' right' : List α} (hleft : a ∉ left) (hleft' : a ∉ left')
    (h : left ++ a :: right = left' ++ a :: right') : left = left' ∧ right = right' := by
  induction left generalizing left' with
  | nil =>
    cases left' with
    | nil => exact ⟨rfl, (List.cons.inj h).2⟩
    | cons b left' =>
      have hb := (List.cons.inj h).1
      exact absurd (hb ▸ List.mem_cons_self) hleft'
  | cons b left ih =>
    cases left' with
    | nil =>
      have hb := (List.cons.inj h).1
      exact absurd (hb ▸ List.mem_cons_self) hleft
    | cons c left' =>
      obtain ⟨hbc, hrest⟩ := List.cons.inj h
      obtain ⟨rfl, rfl⟩ := ih (fun hmem => hleft (List.mem_cons_of_mem _ hmem)) (fun hmem => hleft' (List.mem_cons_of_mem _ hmem)) hrest
      exact ⟨hbc ▸ rfl, rfl⟩

variable {id : String} {entry : Entry} {index : Nat}

theorem identity_inj {other : Entry} {id' : String} (hentry : ValidTurnId entry.turn.id) (hother : ValidTurnId other.turn.id)
    (h : identity entry id = identity other id') : entry.turn.id = other.turn.id ∧ id = id' := by
  have hlist := congrArg String.toList h
  simp only [identity, String.toList_append, List.append_assoc] at hlist
  obtain ⟨hturn, hid⟩ := append_cons_inj (nul_notMem hentry) (nul_notMem hother) hlist
  exact ⟨String.toList_inj.mp hturn, String.toList_inj.mp hid⟩

theorem prompts_get (h : (prompts entries).get id = some index) :
    ∃ prompt, entries[index]? = some prompt ∧ prompt.turn.id = id ∧ prompt.unit.key = userKey id := by
  obtain ⟨⟨prompt, place⟩, hmem, hsome⟩ := List.mem_filterMap.mp (InsertionMap.mem_of_get_ofList h)
  dsimp only at hsome
  split at hsome
  · next hkey =>
      cases hsome
      exact ⟨prompt, List.mk_mem_zipIdx_iff_getElem?.mp hmem, rfl, hkey⟩
  · cases hsome

theorem exists_prompts_get {prompt : Entry} (hprompt : prompt ∈ entries) (hkey : prompt.unit.key = userKey prompt.turn.id) :
    ∃ index, (prompts entries).get prompt.turn.id = some index := by
  obtain ⟨index, hindex⟩ := List.mem_iff_getElem?.mp hprompt
  refine InsertionMap.exists_get_ofList (List.mem_map.mpr ⟨(prompt.turn.id, index), ?_, rfl⟩)
  exact List.mem_filterMap.mpr ⟨(prompt, index), List.mk_mem_zipIdx_iff_getElem?.mpr hindex, if_pos hkey⟩

theorem blocks_get (hvalid : ∀ entry ∈ entries, ValidTurnId entry.turn.id) (hentry : entry ∈ entries)
    {parentId : String} (h : (blocks format entries).get (identity entry parentId) = some index) :
    ∃ parent, entries[index]? = some parent ∧ IsParentOf format entry parentId parent := by
  obtain ⟨⟨parent, place⟩, hmem, hsome⟩ := List.mem_filterMap.mp (InsertionMap.mem_of_get_ofList h)
  obtain ⟨id, hid, hidentity⟩ := Option.map_eq_some_iff.mp hsome
  obtain ⟨hsame, rfl⟩ : identity parent id = identity entry parentId ∧ place = index := Prod.mk.inj hidentity
  obtain ⟨hturn, rfl⟩ := identity_inj (hvalid parent (List.fst_mem_of_mem_zipIdx hmem)) (hvalid entry hentry) hsame
  exact ⟨parent, List.mk_mem_zipIdx_iff_getElem?.mp hmem, hturn, hid⟩

end Indices

section Forests

variable {format} {limits : Limits} {entries : List Entry}

variable {entry : Entry} {index : Nat}

theorem parentOf_root (h : entry.unit.parentId = none) : parentOf format entries entry = .root := by
  rw [parentOf, h]

theorem parentOf_some {parentId : String} (h : entry.unit.parentId = some parentId) :
    parentOf format entries entry = ((blocks format entries).get (identity entry parentId)).elim .missing .under := by
  rw [parentOf, h]

theorem link_none (h : entries[index]? = none) : (forest format limits entries).link index = .missing :=
  congrArg (Option.elim · Link.missing (parentOf format entries)) h

theorem link_eq (h : entries[index]? = some entry) :
    (forest format limits entries).link index = parentOf format entries entry :=
  congrArg (Option.elim · Link.missing (parentOf format entries)) h

theorem lead_eq (h : entries[index]? = some entry) :
    (forest format limits entries).lead index = (prompts entries).get entry.turn.id :=
  congrArg (Option.bind · fun entry : Entry => (prompts entries).get entry.turn.id) h

theorem size_eq (h : entries[index]? = some entry) :
    (forest format limits entries).size index = format.encodedBytes entry + 1 :=
  congrArg (Option.elim · 0 fun entry => format.encodedBytes entry + 1) h

theorem link_under (hvalid : ∀ entry ∈ entries, ValidTurnId entry.turn.id) {parent : Nat}
    (h : (forest format limits entries).link index = .under parent) :
    ∃ entry parentId parentEntry, entries[index]? = some entry ∧ entry.unit.parentId = some parentId ∧
      entries[parent]? = some parentEntry ∧ IsParentOf format entry parentId parentEntry := by
  cases hentry : entries[index]? with
  | none =>
    rw [link_none hentry] at h
    cases h
  | some entry =>
    rw [link_eq hentry] at h
    cases hparent : entry.unit.parentId with
    | none =>
      rw [parentOf_root hparent] at h
      cases h
    | some parentId =>
      rw [parentOf_some hparent] at h
      cases hget : (blocks format entries).get (identity entry parentId) with
      | none =>
        rw [hget] at h
        cases h
      | some place =>
        rw [hget] at h
        cases h
        obtain ⟨parentEntry, hplace, his⟩ := blocks_get hvalid (List.mem_of_getElem? hentry) hget
        exact ⟨entry, parentId, parentEntry, rfl, hparent, hplace, his⟩

theorem link_root (hentry : entries[index]? = some entry) (h : entry.unit.parentId = none) :
    (forest format limits entries).link index = .root := by
  rw [link_eq hentry, parentOf_root h]

theorem lead_prompt {lead : Nat} (h : (forest format limits entries).lead index = some lead) :
    ∃ entry prompt, entries[index]? = some entry ∧ entries[lead]? = some prompt ∧ prompt.turn.id = entry.turn.id ∧
      prompt.unit.key = userKey entry.turn.id := by
  obtain ⟨entry, hentry, hget⟩ := Option.bind_eq_some_iff.mp h
  obtain ⟨prompt, hprompt, hturn, hkey⟩ := prompts_get hget
  exact ⟨entry, prompt, hentry, hprompt, hturn, hkey⟩

variable (format limits) in
theorem led (hvalid : ∀ entry ∈ entries, ValidTurnId entry.turn.id) (hplain : ∀ entry ∈ entries, Plain entry.turn.id)
    (hprompts : PromptsRooted entries) : (forest format limits entries).Led := by
  refine ⟨?_, ?_, ?_⟩
  · intro index lead h
    obtain ⟨entry, prompt, hentry, hprompt, hturn, hkey⟩ := lead_prompt h
    refine link_root hprompt (hprompts prompt (List.mem_of_getElem? hprompt) ⟨rfl, ?_⟩)
    rw [hkey, hturn]
    exact userKey_eq_promptKey.mpr (hplain entry (List.mem_of_getElem? hentry))
  · intro index lead h
    obtain ⟨entry, prompt, hentry, hprompt, hturn, -⟩ := lead_prompt h
    rw [lead_eq hprompt, hturn, ← lead_eq hentry]
    exact h
  · intro index parent h
    obtain ⟨entry, parentId, parentEntry, hentry, -, hparent, his⟩ := link_under hvalid h
    rw [lead_eq hparent, lead_eq hentry, his.1]

variable (format limits) in
theorem selected_subset (hvalid : ∀ entry ∈ entries, ValidTurnId entry.turn.id) :
    selected format limits entries ⊆ Finset.range entries.length := by
  intro index hindex
  refine Finset.mem_range.mpr (ChainSelection.Forest.select_forall (p := (· < entries.length)) ?_ ?_ ?_ index hindex)
  · intro index parent _ h
    obtain ⟨-, -, parentEntry, -, -, hparent, -⟩ := link_under hvalid h
    exact (List.getElem?_eq_some_iff.mp hparent).1
  · intro index lead _ h
    obtain ⟨-, prompt, -, hprompt, -⟩ := lead_prompt h
    exact (List.getElem?_eq_some_iff.mp hprompt).1
  · intro index hindex
    exact List.mem_range.mp (List.mem_reverse.mp hindex)

end Forests

section Kept

variable {format} {entries : List Entry} {s : Finset Nat}

theorem kept_sublist (s : Finset Nat) (entries : List Entry) : (kept s entries).Sublist entries := by
  have h := (List.filter_sublist (l := entries.zipIdx) (p := fun item => item.2 ∈ s)).map Prod.fst
  rw [List.zipIdx_map_fst] at h
  exact h

theorem mem_kept {entry : Entry} : entry ∈ kept s entries ↔ ∃ index ∈ s, entries[index]? = some entry := by
  rw [kept, List.mem_map]
  constructor
  · rintro ⟨⟨other, index⟩, hmem, rfl⟩
    obtain ⟨hmem, hs⟩ := List.mem_filter.mp hmem
    exact ⟨index, of_decide_eq_true hs, List.mk_mem_zipIdx_iff_getElem?.mp hmem⟩
  · rintro ⟨index, hs, hentry⟩
    exact ⟨(entry, index), List.mem_filter.mpr ⟨List.mk_mem_zipIdx_iff_getElem?.mpr hentry, decide_eq_true hs⟩, rfl⟩

section

variable (hs : s ⊆ Finset.range entries.length)

include hs

theorem sum_kept {f : Entry → Nat} {g : Nat → Nat}
    (hg : ∀ index entry, entries[index]? = some entry → g index = f entry) : ((kept s entries).map f).sum = ∑ index ∈ s, g index := by
  let items := entries.zipIdx.filter fun item => item.2 ∈ s
  have hitems : items.map Prod.snd = (List.range entries.length).filter (· ∈ s) := by
    rw [List.range_eq_range', ← List.zipIdx_map_snd 0 entries, List.filter_map]
    rfl
  have hnodup : (items.map Prod.snd).Nodup := by
    rw [hitems]
    exact List.nodup_range.filter _
  have hfinset : (items.map Prod.snd).toFinset = s := by
    ext index
    rw [hitems, List.mem_toFinset, List.mem_filter, List.mem_range, decide_eq_true_eq]
    exact ⟨And.right, fun h => ⟨Finset.mem_range.mp (hs h), h⟩⟩
  have hkept : kept s entries = items.map Prod.fst := rfl
  rw [hkept, ← hfinset, List.sum_toFinset _ hnodup, List.map_map, List.map_map]
  refine congrArg List.sum (List.map_congr_left fun item hitem => ?_)
  exact (hg _ _ (List.mem_zipIdx_iff_getElem?.mp (List.mem_filter.mp hitem).1)).symm

theorem length_kept : (kept s entries).length = s.card := by
  have h := sum_kept hs (f := fun _ => 1) (g := fun _ => 1) fun _ _ _ => rfl
  rw [List.map_const', List.sum_replicate, Finset.sum_const] at h
  simpa using h

theorem kept_eq_self (hcard : s.card = entries.length) : kept s entries = entries :=
  (kept_sublist s entries).eq_of_length ((length_kept hs).trans hcard)

end

end Kept

section Suffixes

variable {s : Finset Nat}

theorem suffixStart_le (s : Finset Nat) (n : Nat) : suffixStart s n ≤ n := by
  induction n with
  | zero => exact Nat.le_refl 0
  | succ n ih =>
    rw [suffixStart]
    split
    · exact Nat.le_succ_of_le ih
    · exact Nat.le_refl _

variable {n : Nat}

theorem mem_of_suffixStart_le {index : Nat} (hstart : suffixStart s n ≤ index) (hindex : index < n) : index ∈ s := by
  induction n with
  | zero => cases hindex
  | succ n ih =>
    rw [suffixStart] at hstart
    split at hstart
    · next hmem =>
        rcases Nat.lt_succ_iff_lt_or_eq.mp hindex with hlt | rfl
        · exact ih hstart hlt
        · exact hmem
    · exact absurd hindex (Nat.not_lt.mpr hstart)

theorem suffixStart_lt (hpos : 0 < n) (h : n - 1 ∈ s) : suffixStart s n < n := by
  cases n with
  | zero => cases hpos
  | succ n =>
    rw [Nat.add_sub_cancel] at h
    rw [suffixStart, if_pos h]
    exact Nat.lt_succ_of_le (suffixStart_le s n)

theorem length_le_suffixStart_add_card (s : Finset Nat) (n : Nat) : n ≤ suffixStart s n + s.card := by
  have hsubset : Finset.Ico (suffixStart s n) n ⊆ s := by
    intro index hindex
    obtain ⟨hstart, hlt⟩ := Finset.mem_Ico.mp hindex
    exact mem_of_suffixStart_le hstart hlt
  have hcard := Finset.card_le_card hsubset
  rw [Nat.card_Ico] at hcard
  omega

end Suffixes

section Windows

variable {format} {limits : Limits} {entries : List Entry}

variable (format limits) in
theorem boundTranscriptEntries_entries (hvalid : ∀ entry ∈ entries, ValidTurnId entry.turn.id) :
    (boundTranscriptEntries format limits entries).entries = [] ∨
      (boundTranscriptEntries format limits entries).entries = kept (selected format limits entries) entries := by
  rw [boundTranscriptEntries]
  split
  · exact .inl rfl
  · dsimp only
    split
    · next hcard => exact .inr (kept_eq_self (selected_subset format limits hvalid) hcard).symm
    · exact .inr rfl

theorem wellFormed_nil (hroom : 2 ≤ limits.bytes) : WellFormed format limits entries [] where
  sublist := List.nil_sublist _
  units := Nat.zero_le _
  bytes := hroom
  parents _ h := absurd h List.not_mem_nil
  prompts _ h := absurd h List.not_mem_nil

theorem wellFormed_kept (hroom : 2 ≤ limits.bytes) (hvalid : ∀ entry ∈ entries, ValidTurnId entry.turn.id)
    (hplain : ∀ entry ∈ entries, Plain entry.turn.id) (hprompts : PromptsRooted entries) :
    WellFormed format limits entries (kept (selected format limits entries) entries) := by
  have hsubset := selected_subset format limits hvalid
  have hclosed := ChainSelection.Forest.select_closed (entries.length + 1) 1 (led format limits hvalid hplain hprompts)
    (List.range entries.length).reverse
  have hwithin := ChainSelection.Forest.select_within (forest format limits entries) (entries.length + 1)
    (Nat.le_trans (Nat.le_succ 1) hroom) (List.range entries.length).reverse
  constructor
  case sublist => exact kept_sublist _ _
  case units =>
    rw [length_kept hsubset]
    exact hwithin.items
  case bytes =>
    rw [arrayBytes]
    split
    · exact hroom
    · rw [sum_kept hsubset fun index entry h => size_eq h]
      exact hwithin.size_eq ▸ hwithin.size_le
  case parents =>
    intro entry hentry parentId hparentId
    obtain ⟨index, hindex, hget⟩ := mem_kept.mp hentry
    obtain ⟨hmissing, hunder⟩ := hclosed.rooted index hindex
    cases hlink : (forest format limits entries).link index with
    | root =>
      rw [link_eq hget, parentOf_some hparentId] at hlink
      cases hblock : (blocks format entries).get (identity entry parentId) with
      | none | some parent =>
        rw [hblock] at hlink
        cases hlink
    | missing => exact absurd hlink hmissing
    | under parent =>
      obtain ⟨entry', parentId', parentEntry, hget', hparentId', hparent, his⟩ := link_under hvalid hlink
      rw [hget, Option.some.injEq] at hget'
      subst hget'
      rw [hparentId, Option.some.injEq] at hparentId'
      subst hparentId'
      exact ⟨parentEntry, mem_kept.mpr ⟨parent, hunder parent hlink, hparent⟩, his⟩
  case prompts =>
    intro entry hentry hprompt
    obtain ⟨prompt, hmem, hturn, hkey⟩ := hprompt
    obtain ⟨index, hindex, hget⟩ := mem_kept.mp hentry
    have huser : promptKey entry.turn.id = userKey entry.turn.id :=
      (userKey_eq_promptKey.mpr (hplain entry (List.mem_of_getElem? hget))).symm
    obtain ⟨place, hplace⟩ := exists_prompts_get hmem (hkey.trans (huser.trans (hturn ▸ rfl)))
    have hlead : (forest format limits entries).lead index = some place := by
      rw [lead_eq hget, ← hturn, hplace]
    obtain ⟨entry', lead, hget', hplace', hturn', hkey'⟩ := lead_prompt hlead
    rw [hget, Option.some.injEq] at hget'
    subst hget'
    exact ⟨lead, mem_kept.mpr ⟨place, hclosed.leads index hindex place hlead, hplace'⟩, hturn', hkey'.trans huser.symm⟩

def sampleState : Selection.ProjectionState := ⟨.running, none, Usage.emptyUsageState, ⟨none, none⟩⟩

section

variable (id : String)

def promptEntry : Entry :=
  ⟨ThreadUsage.sampleTurn id 1, ThreadView.promptUnit id "prompt", 1, 1, -1, sampleState⟩

def replyUnit : TranscriptUnit.Unit where
  key := "reply"
  turnId := id
  parentId := none
  modelResponseId := none
  order := TranscriptPages.plainOrder
  revision := 1
  executionOutcome := none
  content := .entry .assistant "reply"

def replyEntry : Entry := ⟨ThreadUsage.sampleTurn id 1, replyUnit id, 1, 1, -1, sampleState⟩

theorem reply_ne_userKey : "reply" ≠ userKey id := by
  intro h
  have hlist := congrArg String.toList h
  rw [toList_userKey, List.append_assoc] at hlist
  exact absurd (List.cons.inj hlist).1 (by decide)

theorem reply_ne_promptKey : "reply" ≠ promptKey id := by
  intro h
  have hlist := congrArg String.toList h
  rw [toList_promptKey, List.append_assoc] at hlist
  exact absurd (List.cons.inj hlist).1 (by decide)

end

variable {id : String}

theorem forall_reply {p : String → Prop} (h : p id) : ∀ entry ∈ [promptEntry id, replyEntry id], p entry.turn.id := by
  intro entry hentry
  rcases List.mem_cons.mp hentry with rfl | hentry
  · exact h
  · rw [List.mem_singleton.mp hentry]
    exact h

theorem promptsRooted_reply (id : String) : PromptsRooted [promptEntry id, replyEntry id] := by
  intro entry hentry _
  rcases List.mem_cons.mp hentry with rfl | hentry
  · rfl
  · rw [List.mem_singleton.mp hentry]
    rfl

theorem not_wellFormed_reply (id : String) : ¬WellFormed format limits [promptEntry id, replyEntry id] [replyEntry id] := by
  intro h
  obtain ⟨prompt, hprompt, -, hkey⟩ := h.prompts (replyEntry id) (List.mem_singleton_self _)
    ⟨promptEntry id, List.mem_cons_self, rfl, rfl⟩
  rw [List.mem_singleton.mp hprompt] at hkey
  exact reply_ne_promptKey id hkey

/-- A prompt whose key is not found by is left out where there is only room for its reply. -/
theorem boundTranscriptEntries_drops_prompt (h : ¬Plain id) {units : Nat} (hunits : 0 < units) :
    (boundTranscriptEntries format ⟨units, format.encodedBytes (replyEntry id) + 2⟩ [promptEntry id, replyEntry id]).entries =
      [replyEntry id] := by
  have hprompt : (promptEntry id).unit.key ≠ userKey (promptEntry id).turn.id := fun hkey => h (userKey_eq_promptKey.mp hkey.symm)
  have hreply : (replyEntry id).unit.key ≠ userKey (replyEntry id).turn.id := reply_ne_userKey id
  have hprompts : prompts [promptEntry id, replyEntry id] = .empty := by
    simp only [prompts, List.zipIdx_cons, List.zipIdx_nil, List.filterMap_cons, if_neg hprompt, if_neg hreply, List.filterMap_nil]
    rfl
  let bounds := forest format ⟨units, format.encodedBytes (replyEntry id) + 2⟩ [promptEntry id, replyEntry id]
  have hlead (index : Nat) : bounds.lead index = none := by
    change (_ : Option Entry).bind (fun entry => (prompts _).get entry.turn.id) = none
    rw [hprompts]
    exact Option.bind_eq_none_iff.mpr fun _ _ => rfl
  have hselected : selected format ⟨units, format.encodedBytes (replyEntry id) + 2⟩ [promptEntry id, replyEntry id] = {1} := by
    have hnewest : bounds.addItem 3 ⟨∅, 1⟩ 1 = ⟨{1}, format.encodedBytes (replyEntry id) + 2⟩ := by
      rw [ChainSelection.Forest.admit_root rfl (hlead 1) (Finset.notMem_empty 1), if_neg, Finset.empty_union]
      · exact congrArg (ChainSelection.Selection.mk {1}) (Nat.add_comm 1 _)
      · rintro (hitems | hsize)
        · change 0 + 1 > units at hitems
          omega
        · change 1 + (format.encodedBytes (replyEntry id) + 1) > format.encodedBytes (replyEntry id) + 2 at hsize
          omega
    have hprompt : bounds.addItem 3 ⟨{1}, format.encodedBytes (replyEntry id) + 2⟩ 0 = ⟨{1}, format.encodedBytes (replyEntry id) + 2⟩ := by
      rw [ChainSelection.Forest.admit_root rfl (hlead 0) (fun hmem => absurd (Finset.mem_singleton.mp hmem) (by decide)), if_pos]
      refine .inr ?_
      change format.encodedBytes (replyEntry id) + 2 + (format.encodedBytes (promptEntry id) + 1) > format.encodedBytes (replyEntry id) + 2
      omega
    change ((List.range 2).reverse.foldl (bounds.addItem 3) ⟨∅, 1⟩).selected = {1}
    rw [show (List.range 2).reverse = [1, 0] from rfl, List.foldl_cons, List.foldl_cons, List.foldl_nil, hnewest, hprompt]
  rw [boundTranscriptEntries, if_neg]
  · have hcard : ({1} : Finset Nat).card ≠ [promptEntry id, replyEntry id].length := fun hlength => by cases hlength
    rw [hselected, if_neg hcard]
    rfl
  · change ¬format.encodedBytes (replyEntry id) + 1 + 1 > format.encodedBytes (replyEntry id) + 2
    omega

/-- Windows of turns are well formed, whatever the room, just where their ids are in the keys of prompts as they are. -/
theorem boundTranscriptEntries_wellFormed_iff {ids : Set String} (hids : ∀ id ∈ ids, ValidTurnId id) {units : Nat} (hunits : 0 < units) :
    (∀ bytes entries, 2 ≤ bytes → (∀ entry ∈ entries, entry.turn.id ∈ ids) → PromptsRooted entries →
        WellFormed format ⟨units, bytes⟩ entries (boundTranscriptEntries format ⟨units, bytes⟩ entries).entries) ↔
      ∀ id ∈ ids, Plain id := by
  constructor
  · intro h id hid
    by_contra hplain
    have hformed := h _ _ (Nat.le_add_left 2 (format.encodedBytes (replyEntry id))) (forall_reply hid) (promptsRooted_reply id)
    rw [boundTranscriptEntries_drops_prompt hplain hunits] at hformed
    exact not_wellFormed_reply id hformed
  · intro hplain bytes entries hroom hturns hprompts
    have hvalid : ∀ entry ∈ entries, ValidTurnId entry.turn.id := fun entry hentry => hids _ (hturns entry hentry)
    rcases boundTranscriptEntries_entries format ⟨units, bytes⟩ hvalid with heq | heq
    · rw [heq]
      exact wellFormed_nil hroom
    · rw [heq]
      exact wellFormed_kept hroom hvalid (fun entry hentry => hplain _ (hturns entry hentry)) hprompts

theorem boundTranscriptEntries_wellFormed_iff_sample :
    (∀ id ∈ ({"turn-1"} : Set String), ValidTurnId id) ∧
      ((∀ bytes entries, 2 ≤ bytes → (∀ entry ∈ entries, entry.turn.id ∈ ({"turn-1"} : Set String)) → PromptsRooted entries →
          WellFormed ⟨fun _ _ => none, fun _ => 300⟩ ⟨maximumTranscriptUnits, bytes⟩ entries
            (boundTranscriptEntries ⟨fun _ _ => none, fun _ => 300⟩ ⟨maximumTranscriptUnits, bytes⟩ entries).entries) ↔
        ∀ id ∈ ({"turn-1"} : Set String), Plain id) := by
  have hids : ∀ id ∈ ({"turn-1"} : Set String), ValidTurnId id := by
    intro id hid
    rw [Set.mem_singleton_iff.mp hid]
    exact ⟨by decide +kernel, by simp⟩
  exact ⟨hids, boundTranscriptEntries_wellFormed_iff hids (by decide)⟩

/-- A colon in the id of a turn hides its prompt. -/
theorem prompt_is_left_out :
    let format : Format := ⟨fun _ _ => none, fun _ => 300⟩
    let entries := [promptEntry "turn:1", replyEntry "turn:1"]
    (∀ entry ∈ entries, ValidTurnId entry.turn.id) ∧ PromptsRooted entries ∧
      (boundTranscriptEntries format ⟨maximumTranscriptUnits, 302⟩ entries).entries = [replyEntry "turn:1"] ∧
      ¬WellFormed format ⟨maximumTranscriptUnits, 302⟩ entries (boundTranscriptEntries format ⟨maximumTranscriptUnits, 302⟩ entries).entries := by
  intro format entries
  have hvalid : ValidTurnId "turn:1" := ⟨by decide +kernel, by simp⟩
  have hplain : ¬Plain "turn:1" := fun h => absurd h.2 (by decide +kernel)
  have hentries : (boundTranscriptEntries format ⟨maximumTranscriptUnits, 302⟩ entries).entries = [replyEntry "turn:1"] :=
    boundTranscriptEntries_drops_prompt hplain (by decide)
  refine ⟨forall_reply hvalid, promptsRooted_reply "turn:1", hentries, ?_⟩
  rw [hentries]
  exact not_wellFormed_reply "turn:1"

end Windows

end Rika.TranscriptBounds
