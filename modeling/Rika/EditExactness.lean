import Rika.EditTool
import Rika.TextEncodings

namespace Rika.EditTool

open CodeWords Substrings TextEncodings Utf8Stream WideText

section Specification

def TextBytes (text : Units) (bytes : List UInt8) : Prop := ∃ chars, text = units chars ∧ bytes = encode chars

/-- The old text is at one position of the bytes, and its bytes are replaced there. -/
def ReplacedOnce (oldStr newStr : Units) (bytes written : List UInt8) : Prop :=
  ∃ pattern before after, TextBytes oldStr pattern ∧ Only pattern bytes before after ∧
    written = before ++ textBytes newStr ++ after

/-- Every occurrence of the old text in the bytes that overlaps none before it is replaced. -/
def ReplacedAll (oldStr newStr : Units) (bytes written : List UInt8) : Prop :=
  (∀ pattern, TextBytes oldStr pattern → Replaced pattern (textBytes newStr) bytes written) ∧
    ((∀ pattern, ¬TextBytes oldStr pattern) → written = bytes)

def ReplacedAs (request : Request) (bytes written : List UInt8) : Prop :=
  if request.replaceAll = some true then ReplacedAll request.oldStr request.newStr bytes written
  else ReplacedOnce request.oldStr request.newStr bytes written

variable {Target : Type}

/-- An edit that succeeds replaces in the bytes of its file what it names, and one that fails
changes nothing. -/
def Exact [DecidableEq Target] (host : Host Target) (files : FileSystem Target) (request : Request) : Prop :=
  match edit host files request with
  | (.error _, after) => after = files
  | (.ok _, after) => ∃ target bytes written, host.resolveExisting files request.path = .ok target ∧
      files target = some (.file bytes) ∧ after = Function.update files target (some (.file written)) ∧
        ReplacedAs request bytes written

/-- The texts differ, and the old one is found: once, unless every occurrence is replaced. -/
structure Applies (request : Request) (content : Units) : Prop where
  differs : request.oldStr ≠ request.newStr
  nonempty : request.oldStr ≠ []
  found : ∃ first, indexOf content request.oldStr 0 = some first ∧ (request.replaceAll ≠ some true →
    indexOf content request.oldStr (first + request.oldStr.length) = none)

/-- The file of a request can be read, and the texts of the request are found in it. -/
structure Reaches (host : Host Target) (files : FileSystem Target) (request : Request) (target : Target)
    (bytes : List UInt8) : Prop where
  resolves : host.resolveExisting files request.path = .ok target
  stat : host.statFails target = none
  read : host.readFails target = none
  file : files target = some (.file bytes)
  applies : Applies request (units (decodeAll bytes))

/-- Nothing is lost between the bytes of a file and the texts of a request. -/
structure Lossless (request : Request) (bytes : List UInt8) : Prop where
  utf8 : ∃ text, bytes = encode text ∧ text.head? ≠ some byteOrderMark
  oldText : ∃ chars, request.oldStr = units chars
  apart : request.replaceAll ≠ some true → ∀ first, indexOf (units (decodeAll bytes)) request.oldStr 0 = some first →
    ∀ k, 0 < k → k < request.oldStr.length → ¬request.oldStr <+: (units (decodeAll bytes)).drop (first + k)
  halves : request.replaceAll = some true → joins request.newStr request.newStr = true →
    [] ∉ (split (units (decodeAll bytes)) request.oldStr).tail.dropLast

/-- A write that fails leaves the bytes, and nothing is lost by one that succeeds. -/
def Sound (host : Host Target) (request : Request) (target : Target) (bytes : List UInt8) : Prop :=
  match host.writeFails target with
  | some (_, left) => left = bytes
  | none => Lossless request bytes

theorem Reaches.unique {host : Host Target} {files : FileSystem Target} {request : Request} {target other : Target}
    {bytes others : List UInt8} (h : Reaches host files request target bytes)
    (h' : Reaches host files request other others) : target = other ∧ bytes = others := by
  have hresolves := h.resolves
  rw [h'.resolves] at hresolves
  have htarget : target = other := (Except.ok.inj hresolves).symm
  have hfile := h.file
  rw [htarget, h'.file] at hfile
  exact ⟨htarget, (Node.file.inj (Option.some.inj hfile)).symm⟩

end Specification

section Texts

theorem units_eq_flatMap (text : List Char) : units text = text.flatMap charUnits := rfl

theorem encode_eq_flatMap (text : List Char) : encode text = text.flatMap encodeChar := rfl

theorem flatMap_intercalate {α β : Type} (word : α → List β) (separator : List α) (pieces : List (List α)) :
    (separator.intercalate pieces).flatMap word = (separator.flatMap word).intercalate (pieces.map (List.flatMap word)) := by
  induction pieces with
  | nil => rfl
  | cons piece pieces ih =>
    cases pieces with
    | nil => rw [List.intercalate_singleton, List.map_cons, List.map_nil, List.intercalate_singleton]
    | cons other pieces =>
      rw [List.intercalate_cons_cons, List.flatMap_append, List.flatMap_append, ih, List.map_cons, List.map_cons,
        List.map_cons, List.intercalate_cons_cons]

theorem scalars_intercalate {newStr : Units} {pieces : List (List Char)}
    (h : joins newStr newStr = true → [] ∉ pieces.tail.dropLast) :
    scalars (newStr.intercalate (pieces.map units)) = (scalars newStr).intercalate pieces := by
  induction pieces with
  | nil => rfl
  | cons piece pieces ih =>
    cases pieces with
    | nil => rw [List.map_cons, List.map_nil, List.intercalate_singleton, List.intercalate_singleton, scalars_units]
    | cons other pieces =>
      have hrest : joins newStr newStr = true → [] ∉ (other :: pieces).tail.dropLast := by
        intro hjoins hmem
        refine h hjoins ?_
        cases pieces with
        | nil => cases hmem
        | cons last pieces => exact List.mem_cons_of_mem other hmem
      have hapart : joins newStr (newStr.intercalate ((other :: pieces).map units)) = false := by
        cases pieces with
        | nil =>
          rw [List.map_cons, List.map_nil, List.intercalate_singleton]
          exact joins_units newStr other
        | cons last pieces =>
          rw [List.map_cons, List.map_cons, List.intercalate_cons_cons, List.append_assoc]
          by_cases hother : other = []
          · subst hother
            cases newStr with
            | nil => exact joins_nil _
            | cons u newStr =>
              have hmeet : joins (u :: newStr) (u :: newStr) ≠ true := fun hjoins => h hjoins List.mem_cons_self
              exact eq_false_of_ne_true hmeet
          · exact joins_units_append hother _ _
      rw [List.map_cons, List.map_cons, List.intercalate_cons_cons, List.append_assoc, scalars_units_append,
        ← List.map_cons, scalars_append hapart, ih hrest, List.intercalate_cons_cons, List.append_assoc]

theorem textBytes_between (p q : List Char) (newStr : Units) :
    textBytes (units p ++ newStr ++ units q) = encode p ++ textBytes newStr ++ encode q := by
  rw [textBytes, List.append_assoc, scalars_units_append, scalars_append (joins_units newStr q), scalars_units,
    encode_append, encode_append, List.append_assoc]
  rfl

end Texts

section Content

theorem units_ne_nil {text : List Char} (h : units text ≠ []) : text ≠ [] := fun hnil => h (congrArg units hnil)

theorem indexOf_zero {text pattern : Units} {first : Nat} (h : indexOf text pattern 0 = some first) :
    ∃ before after, before.length = first ∧ First pattern text before after := by
  obtain ⟨i, hfind, rfl⟩ := Option.map_eq_some_iff.mp h
  exact find_some hfind

theorem replaceText_once {content before after : Units} (oldStr newStr : Units)
    (h : First oldStr content before after) : replaceText content oldStr newStr false = before ++ newStr ++ after := by
  have hindex : (indexOf content oldStr 0).getD 0 = before.length := by
    rw [indexOf, List.drop_zero, find_of_first h]
    rfl
  obtain ⟨hbefore, hafter⟩ := cut_eq h.eq
  rw [replaceText, if_neg Bool.false_ne_true]
  dsimp only
  rw [hindex, hbefore, hafter]

theorem replacedOnce_iff {request : Request} {bytes : List UInt8} (hall : request.replaceAll ≠ some true)
    (happlies : Applies request (units (decodeAll bytes))) :
    ReplacedOnce request.oldStr request.newStr bytes
        (textBytes (replaceText (units (decodeAll bytes)) request.oldStr request.newStr false)) ↔ Lossless request bytes := by
  obtain ⟨first, hfound, hnext⟩ := happlies.found
  have hagain := hnext hall
  obtain ⟨before, after, rfl, hfirst⟩ := indexOf_zero hfound
  rw [replaceText_once _ _ hfirst]
  constructor
  · intro h
    obtain ⟨pattern, b, a, htext, honly, hwritten⟩ := h
    obtain ⟨chars, hold, rfl⟩ := htext
    have hne : chars ≠ [] := units_ne_nil (hold ▸ happlies.nonempty)
    rw [hold] at hfirst
    obtain ⟨p, q, hread, rfl, rfl⟩ := unitWords.first_of_flatMap hne hfirst
    rw [← units_eq_flatMap, ← units_eq_flatMap, textBytes_between] at hwritten
    have hkept : encode (p ++ scalars request.newStr ++ q) = b ++ encode (scalars request.newStr) ++ a := by
      rw [encode_append, encode_append]
      exact hwritten
    have hbytes := encode_decodeAll_of_replaced hne honly.eq hread.eq hkept
    refine ⟨(encode_decodeAll_iff bytes).mp hbytes, ⟨chars, hold⟩, fun _ first hindex => ?_,
      fun htrue => absurd htrue hall⟩
    rw [hfound] at hindex
    rw [← Option.some.inj hindex, hold]
    rw [hold] at hagain
    refine (only_iff hfirst hagain).mp ?_
    rw [← hbytes] at honly
    obtain ⟨p', q', _, rfl, rfl⟩ := byteWords.place hne honly.eq
    have hplace := (byteWords.only_iff hne).mp honly
    rw [(hread.unique hplace.first).1, (hread.unique hplace.first).2]
    exact (unitWords.only_iff hne).mpr hplace
  · intro h
    obtain ⟨chars, hold⟩ := h.oldText
    have hne : chars ≠ [] := units_ne_nil (hold ▸ happlies.nonempty)
    have honly : Only request.oldStr (units (decodeAll bytes)) before after :=
      (only_iff hfirst hagain).mpr (h.apart hall _ hfound)
    rw [hold] at honly
    obtain ⟨p, q, _, rfl, rfl⟩ := unitWords.first_of_flatMap hne honly.first
    have hplace := (unitWords.only_iff hne).mp honly
    have hbytes := (encode_decodeAll_iff bytes).mpr h.utf8
    refine ⟨encode chars, encode p, encode q, ⟨chars, hold, rfl⟩, ?_, textBytes_between p q _⟩
    have hwords := (byteWords.only_iff hne).mpr hplace
    rwa [← encode_eq_flatMap (decodeAll bytes), hbytes] at hwords

theorem replacedAll_of_lossless {request : Request} {bytes : List UInt8} (hall : request.replaceAll = some true)
    (hnonempty : request.oldStr ≠ []) (h : Lossless request bytes) :
    ReplacedAll request.oldStr request.newStr bytes
      (textBytes (replaceText (units (decodeAll bytes)) request.oldStr request.newStr true)) := by
  obtain ⟨chars, hold⟩ := h.oldText
  have hne : chars ≠ [] := units_ne_nil (hold ▸ hnonempty)
  have hhalves := h.halves hall
  have hpieces := pieces_split hnonempty (units (decodeAll bytes))
  rw [replaceText, if_pos rfl]
  generalize split (units (decodeAll bytes)) request.oldStr = pieces at hpieces hhalves
  rw [hold] at hpieces ⊢
  obtain ⟨others, hothers, rfl⟩ := unitWords.pieces_of_flatMap hne hpieces rfl
  have hmeet : joins request.newStr request.newStr = true → [] ∉ others.tail.dropLast := by
    intro hjoins hmem
    refine hhalves hjoins ?_
    rw [← List.map_tail, ← List.map_dropLast]
    exact List.mem_map_of_mem (f := List.flatMap charUnits) hmem
  refine ⟨fun pattern htext => ?_, fun hnone => absurd ⟨chars, rfl, rfl⟩ (hnone (encode chars))⟩
  obtain ⟨same, heq, rfl⟩ := htext
  rw [units_injective heq] at hne hothers
  refine ⟨others.map encode, ?_, ?_⟩
  · have hwords := byteWords.pieces_flatMap hne hothers
    rwa [← encode_eq_flatMap (decodeAll bytes), (encode_decodeAll_iff bytes).mpr h.utf8] at hwords
  · rw [textBytes]
    exact (congrArg encode (scalars_intercalate hmeet)).trans (flatMap_intercalate encodeChar _ _)

end Content

section Edits

variable {Target : Type} [DecidableEq Target] {host : Host Target} {files : FileSystem Target} {request : Request}

theorem nextContent_cases (request : Request) (content : Units) :
    (∃ details, nextContent request content = .error details) ∧ ¬Applies request content ∨
      nextContent request content =
          .ok (replaceText content request.oldStr request.newStr (request.replaceAll = some true)) ∧
        Applies request content := by
  rw [nextContent]
  by_cases hsame : request.oldStr = request.newStr
  · rw [if_pos hsame]
    exact Or.inl ⟨⟨_, rfl⟩, fun h => h.differs hsame⟩
  rw [if_neg hsame]
  by_cases hempty : request.oldStr.length = 0
  · rw [if_pos hempty]
    exact Or.inl ⟨⟨_, rfl⟩, fun h => h.nonempty (List.length_eq_zero_iff.mp hempty)⟩
  rw [if_neg hempty]
  have hnonempty : request.oldStr ≠ [] := fun hnil => hempty (List.length_eq_zero_iff.mpr hnil)
  cases hfound : indexOf content request.oldStr 0 with
  | none =>
    refine Or.inl ⟨⟨_, rfl⟩, fun h => ?_⟩
    obtain ⟨first, hfirst, _⟩ := h.found
    rw [hfound] at hfirst
    exact absurd hfirst.symm (Option.some_ne_none first)
  | some first =>
    dsimp only
    by_cases hsecond : ((indexOf content request.oldStr (first + request.oldStr.length)).isSome &&
        decide (request.replaceAll ≠ some true)) = true
    · rw [if_pos hsecond]
      refine Or.inl ⟨⟨_, rfl⟩, fun h => ?_⟩
      obtain ⟨place, hplace, hnext⟩ := h.found
      rw [hfound] at hplace
      rw [Bool.and_eq_true, decide_eq_true_eq, Option.some.inj hplace] at hsecond
      rw [hnext hsecond.2] at hsecond
      exact Bool.false_ne_true hsecond.1
    · rw [if_neg hsecond]
      refine Or.inr ⟨rfl, hsame, hnonempty, first, hfound, fun hall => ?_⟩
      rw [Bool.and_eq_true, decide_eq_true_eq, not_and] at hsecond
      exact Option.not_isSome_iff_eq_none.mp fun hsome => hsecond hsome hall

section

variable (host : Host Target) (files : FileSystem Target) (request : Request)

theorem edit_cases :
    (∃ failure, edit host files request = (.error failure, files)) ∧ (∀ target bytes, ¬Reaches host files request target bytes) ∨
      ∃ target bytes result, Reaches host files request target bytes ∧ edit host files request =
        match host.writeFails target with
        | some (reason, left) => (.error (.platform reason), Function.update files target (some (.file left)))
        | none => (.ok result, Function.update files target (some (.file
            (textBytes (replaceText (units (decodeAll bytes)) request.oldStr request.newStr (request.replaceAll = some true)))))) := by
  cases hresolve : host.resolveExisting files request.path with
  | error details =>
    refine Or.inl ⟨⟨.runtime details, by rw [edit, hresolve]⟩, fun target bytes h => ?_⟩
    have hresolves := h.resolves
    rw [hresolve] at hresolves
    cases hresolves
  | ok target =>
    have hsame : ∀ {other bytes}, Reaches host files request other bytes → other = target := by
      intro other bytes h
      have hresolves := h.resolves
      rw [hresolve] at hresolves
      exact (Except.ok.inj hresolves).symm
    rw [edit, hresolve]
    dsimp only
    rw [requireRegularFile]
    cases hstat : host.statFails target with
    | some reason =>
      refine Or.inl ⟨⟨_, rfl⟩, fun other bytes h => ?_⟩
      have hfails := h.stat
      rw [hsame h, hstat] at hfails
      exact absurd hfails (Option.some_ne_none reason)
    | none =>
      cases hfile : files target with
      | none =>
        refine Or.inl ⟨⟨_, rfl⟩, fun other bytes h => ?_⟩
        have hnode := h.file
        rw [hsame h, hfile] at hnode
        exact absurd hnode.symm (Option.some_ne_none _)
      | some node =>
        cases node with
        | other =>
          refine Or.inl ⟨⟨_, rfl⟩, fun other bytes h => ?_⟩
          have hnode := h.file
          rw [hsame h, hfile] at hnode
          exact absurd (Option.some.inj hnode) Node.noConfusion
        | file bytes =>
          dsimp only
          rw [readFileString]
          cases hread : host.readFails target with
          | some reason =>
            refine Or.inl ⟨⟨_, rfl⟩, fun other bytes h => ?_⟩
            have hfails := h.read
            rw [hsame h, hread] at hfails
            exact absurd hfails (Option.some_ne_none reason)
          | none =>
            rw [hfile]
            dsimp only
            rcases nextContent_cases request (units (decodeAll bytes)) with ⟨⟨details, hnext⟩, hnot⟩ | ⟨hnext, happlies⟩
            · rw [hnext]
              refine Or.inl ⟨⟨_, rfl⟩, fun other bytes' h => hnot ?_⟩
              have hnode := h.file
              rw [hsame h, hfile] at hnode
              rw [Node.file.inj (Option.some.inj hnode)]
              exact h.applies
            · rw [hnext]
              dsimp only
              rw [writeFileString]
              refine Or.inr ⟨target, bytes, editResult request (units (decodeAll bytes))
                  (replaceText (units (decodeAll bytes)) request.oldStr request.newStr (request.replaceAll = some true)),
                ⟨hresolve, hstat, hread, hfile, happlies⟩, ?_⟩
              cases host.writeFails target with
              | none => rfl
              | some failed => rfl

/-- An edit that applies is exact just where a failed write leaves the file and no byte order mark, lone surrogate or
overlap is in the way. -/
theorem edit_exact_iff : (request.replaceAll ≠ some true → (Exact host files request ↔
        ∀ target bytes, Reaches host files request target bytes → Sound host request target bytes)) ∧
      ((∀ target bytes, Reaches host files request target bytes → Sound host request target bytes) →
        Exact host files request) := by
  rcases edit_cases host files request with ⟨⟨failure, hedit⟩, hnone⟩ | ⟨target, bytes, result, hreaches, hedit⟩
  · have hexact : Exact host files request := by
      rw [Exact, hedit]
    exact ⟨fun _ => ⟨fun _ target bytes h => absurd h (hnone target bytes), fun _ => hexact⟩, fun _ => hexact⟩
  have hcondition : (∀ target bytes, Reaches host files request target bytes → Sound host request target bytes) ↔
      Sound host request target bytes := by
    refine ⟨fun h => h target bytes hreaches, fun h other others hother => ?_⟩
    rw [← (hreaches.unique hother).1, ← (hreaches.unique hother).2]
    exact h
  rw [hcondition, Exact, hedit, Sound]
  cases hfails : host.writeFails target with
  | some failed =>
    have hleft : Function.update files target (some (.file failed.2)) = files ↔ failed.2 = bytes := by
      rw [Function.update_eq_self_iff, hreaches.file, Option.some_inj, Node.file.injEq]
    exact ⟨fun _ => hleft, hleft.mpr⟩
  | none =>
    dsimp only
    generalize hwritten : textBytes (replaceText (units (decodeAll bytes)) request.oldStr request.newStr
      (request.replaceAll = some true)) = written
    have hreplaced : (∃ other others kept, host.resolveExisting files request.path = .ok other ∧
        files other = some (.file others) ∧
          Function.update files target (some (.file written)) = Function.update files other (some (.file kept)) ∧
            ReplacedAs request others kept) ↔ ReplacedAs request bytes written := by
      constructor
      · intro h
        obtain ⟨other, others, kept, hresolves, hfile, hupdate, hkept⟩ := h
        rw [hreaches.resolves] at hresolves
        rw [← Except.ok.inj hresolves] at hfile hupdate
        rw [hreaches.file] at hfile
        have hfiles := congrFun hupdate target
        rw [Function.update_self, Function.update_self] at hfiles
        rw [Node.file.inj (Option.some.inj hfile), Node.file.inj (Option.some.inj hfiles)]
        exact hkept
      · intro h
        exact ⟨target, bytes, written, hreaches.resolves, hreaches.file, rfl, h⟩
    rw [hreplaced, ReplacedAs, ← hwritten]
    refine ⟨fun hall => ?_, fun hlossless => ?_⟩
    · rw [if_neg hall, decide_eq_false hall]
      exact replacedOnce_iff hall hreaches.applies
    · by_cases hall : request.replaceAll = some true
      · rw [if_pos hall, decide_eq_true hall]
        exact replacedAll_of_lossless hall hreaches.applies.nonempty hlossless
      · rw [if_neg hall, decide_eq_false hall]
        exact (replacedOnce_iff hall hreaches.applies).mpr hlossless

end

section Sample

def sampleHost : Host Unit := ⟨fun _ _ => .ok (), fun _ => none, fun _ => none, fun _ => none⟩

def sampleFiles : FileSystem Unit := fun _ => some (.file (encode ['a', 'a', 'a']))

def sampleRequest : Request := ⟨"notes", units ['a', 'a'], units ['b'], none⟩

def soundFiles : FileSystem Unit := fun _ => some (.file (encode ['a', 'a', 'b']))

def soundRequest : Request := ⟨"notes", units ['a', 'b'], units ['c'], none⟩

theorem sound_edit_exact : Exact sampleHost soundFiles soundRequest := by
  refine (edit_exact_iff sampleHost soundFiles soundRequest).2 fun target bytes h => ?_
  have hbytes : encode ['a', 'a', 'b'] = bytes := Node.file.inj (Option.some.inj h.file)
  subst hbytes
  refine ⟨⟨['a', 'a', 'b'], rfl, by decide⟩, ⟨['a', 'b'], rfl⟩, fun _ first hfound k hpos hlt => ?_,
    fun hall => absurd hall (by decide)⟩
  have hfirst : indexOf (units (decodeAll (encode ['a', 'a', 'b']))) (units ['a', 'b']) 0 = some 1 := by decide +kernel
  rw [← Option.some.inj (hfirst.symm.trans hfound)]
  have hlength : k < 2 := hlt
  obtain rfl : k = 1 := by omega
  decide +kernel

/-- A text that is twice in a file, where the one overlaps the other, is replaced once. -/
theorem overlapping_replaced : ¬Exact sampleHost sampleFiles sampleRequest := by
  have hedit : (edit sampleHost sampleFiles sampleRequest).1.isOk = true := by decide +kernel
  intro h
  rw [Exact] at h
  cases hresult : edit sampleHost sampleFiles sampleRequest with
  | mk answer after =>
    rw [hresult] at h hedit
    cases answer with
    | error failure => exact Bool.false_ne_true hedit
    | ok result =>
      obtain ⟨target, bytes, written, _, hfile, _, hreplaced⟩ := h
      rw [ReplacedAs, if_neg (by decide)] at hreplaced
      obtain ⟨pattern, before, after, htext, honly, _⟩ := hreplaced
      obtain ⟨chars, hold, rfl⟩ := htext
      have hchars : ['a', 'a'] = chars := units_injective hold
      have hbytes : encode ['a', 'a', 'a'] = bytes := Node.file.inj (Option.some.inj hfile)
      subst hchars hbytes
      have hfirst := honly.only [] (encode ['a']) rfl
      have hsecond := honly.only (encode ['a']) [] rfl
      rw [← hfirst] at hsecond
      exact absurd hsecond (by decide)

end Sample

end Edits

end Rika.EditTool
