import Rika.RuntimeFilesystem

namespace Rika.NativeRuntime

open WideText RuntimeFilesystem

structure Result where
  text : Units
  truncated : Bool
  running : Option Bool
  processId : Option Units
  exitCode : Option Int
  elapsedMillis : Option Nat
  stdout : Option Units
  stderr : Option Units
  diff : Option Units
deriving DecidableEq

inductive RequestTag
  | read
  | bash
  | edit

def outputRecovery : RequestTag → String
  | .read => "request a smaller read_range"
  | .bash => "page or narrow the command"
  | .edit => "read a narrower file range to inspect the remaining diff"

/-- What `trim` has yet to give away, has kept, and whether it has cut. -/
structure Trim where
  remaining : Nat
  keptBytes : Nat
  marked : Bool

def trimValue (totalBytes : Nat) (recovery : String) (state : Trim) (value : Units) : Units × Trim :=
  if state.marked then ([], state)
  else
    let kept := boundedPrefix value state.remaining
    let acceptedBytes := byteLength kept
    let keptBytes := state.keptBytes + acceptedBytes
    if kept = value then (kept, ⟨state.remaining - acceptedBytes, keptBytes, false⟩)
    else (kept ++ separator kept ++ marker keptBytes totalBytes recovery, ⟨state.remaining - acceptedBytes, keptBytes, true⟩)

def trim (totalBytes : Nat) (recovery : String) (state : Trim) : Option Units → Option Units × Trim
  | none => (none, state)
  | some value =>
    let (value, state) := trimValue totalBytes recovery state value
    (some value, state)

def boundFields (result : Result) (limit : Int) (totalBytes : Nat) (recovery : String) : Result :=
  let state : Trim := ⟨(max 0 (limit - byteLength (longestMarker totalBytes recovery) - 1)).toNat, 0, false⟩
  let (text, state) := trimValue totalBytes recovery state result.text
  let (stdout, state) := trim totalBytes recovery state result.stdout
  let (stderr, state) := trim totalBytes recovery state result.stderr
  let (diff, _) := trim totalBytes recovery state result.diff
  { result with text, truncated := true, stdout, stderr, diff }

def Result.values (result : Result) : List Units :=
  result.text :: (result.stdout.toList ++ result.stderr.toList ++ result.diff.toList)

def totalBytes (values : List Units) : Nat := (values.map byteLength).sum

def boundResult (tag : RequestTag) (outputLimit : Int) (result : Result) : Result :=
  if (totalBytes result.values : Int) ≤ outputLimit then result
  else boundFields result outputLimit (totalBytes result.values) (outputRecovery tag)

section Trimming

variable {total : Nat} {recovery : String}

def trimAll (total : Nat) (recovery : String) (state : Trim) : List Units → List Units
  | [] => []
  | value :: values =>
    (trimValue total recovery state value).1 :: trimAll total recovery (trimValue total recovery state value).2 values

theorem trimAll_values (result : Result) (limit : Int) :
    (boundFields result limit total recovery).values =
      trimAll total recovery
        ⟨(max 0 (limit - byteLength (longestMarker total recovery) - 1)).toNat, 0, false⟩ result.values := by
  rw [boundFields, Result.values, Result.values]
  cases result.stdout <;> cases result.stderr <;> cases result.diff <;> rfl

theorem trimAll_marked (remaining keptBytes : Nat) (values : List Units) :
    trimAll total recovery ⟨remaining, keptBytes, true⟩ values = values.map fun _ => [] := by
  induction values with
  | nil => rfl
  | cons value values ih =>
    rw [trimAll, trimValue, if_pos rfl, ih]
    rfl

variable {remaining keptBytes : Nat} {text : List Char}

theorem trimValue_fits (h : utf8Size text ≤ remaining) :
    trimValue total recovery ⟨remaining, keptBytes, false⟩ (units text) =
      (units text, ⟨remaining - utf8Size text, keptBytes + utf8Size text, false⟩) := by
  have hkept : boundedPrefix (units text) (remaining : Int) = units text := boundedPrefix_eq_self.mpr h
  rw [trimValue, if_neg Bool.false_ne_true]
  dsimp only
  rw [hkept, if_pos rfl, byteLength_units]

theorem trimValue_cut (h : remaining < utf8Size text) :
    trimValue total recovery ⟨remaining, keptBytes, false⟩ (units text) =
      (units (fitting remaining text) ++ separator (units (fitting remaining text)) ++
          marker (keptBytes + utf8Size (fitting remaining text)) total recovery,
        ⟨remaining - utf8Size (fitting remaining text), keptBytes + utf8Size (fitting remaining text), true⟩) := by
  have hkept : boundedPrefix (units text) (remaining : Int) = units (fitting remaining text) :=
    boundedPrefix_units text remaining
  have hne : units (fitting remaining text) ≠ units text := by
    intro heq
    exact absurd (fitting_eq_self.mp (units_injective heq)) (Nat.not_le.mpr h)
  rw [trimValue, if_neg Bool.false_ne_true]
  dsimp only
  rw [hkept, if_neg hne, byteLength_units]

/-- Texts that do not all fit are cut in one of them: those before stay, those after are emptied. -/
theorem trimAll_cut {remaining keptBytes : Nat} {texts : List (List Char)} (h : remaining < utf8Size texts.flatten) :
    ∃ before text after, texts = before ++ text :: after ∧ utf8Size before.flatten ≤ remaining ∧
      remaining - utf8Size before.flatten < utf8Size text ∧
      trimAll total recovery ⟨remaining, keptBytes, false⟩ (texts.map units) =
        before.map units ++
          (units (fitting (remaining - utf8Size before.flatten) text) ++
              separator (units (fitting (remaining - utf8Size before.flatten) text)) ++
            marker (keptBytes + utf8Size (before.flatten ++ fitting (remaining - utf8Size before.flatten) text)) total
              recovery) ::
          after.map fun _ => [] := by
  induction texts generalizing remaining keptBytes with
  | nil => exact absurd h (Nat.not_lt_zero _)
  | cons text texts ih =>
    rw [List.flatten_cons, utf8Size_append] at h
    rw [List.map_cons, trimAll]
    by_cases hfits : utf8Size text ≤ remaining
    · have hrest : remaining - utf8Size text < utf8Size texts.flatten := by omega
      obtain ⟨before, cut, after, hsplit, hbefore, hcut, htrim⟩ :=
        @ih (remaining - utf8Size text) (keptBytes + utf8Size text) hrest
      refine ⟨text :: before, cut, after, congrArg (text :: ·) hsplit, ?_, ?_, ?_⟩
      · rw [List.flatten_cons, utf8Size_append]
        omega
      · rw [List.flatten_cons, utf8Size_append, ← Nat.sub_sub]
        exact hcut
      · rw [trimValue_fits hfits, htrim, List.flatten_cons, utf8Size_append text before.flatten, ← Nat.sub_sub,
          List.append_assoc text, utf8Size_append text (before.flatten ++ _), Nat.add_assoc]
        rfl
    · rw [Nat.not_le] at hfits
      refine ⟨[], text, texts, rfl, Nat.zero_le _, hfits, ?_⟩
      rw [trimValue_cut hfits, trimAll_marked, List.map_map]
      rfl

theorem fitting_flatten {before : List (List Char)} (after : List (List Char))
    (hbefore : utf8Size before.flatten ≤ remaining) (hcut : remaining - utf8Size before.flatten < utf8Size text) :
    fitting remaining (before ++ text :: after).flatten =
      before.flatten ++ fitting (remaining - utf8Size before.flatten) text := by
  rw [List.flatten_append, List.flatten_cons, fitting_append hbefore, fitting_append_of_lt hcut]

end Trimming

section Results

def Result.WellFormed (result : Result) : Prop := ∀ value ∈ result.values, ∃ text, value = units text

variable {values : List Units} {recovery : String} {limit : Int}

theorem exists_map_units (h : ∀ value ∈ values, ∃ text, value = units text) :
    ∃ texts : List (List Char), values = texts.map units := by
  induction values with
  | nil => exact ⟨[], rfl⟩
  | cons value values ih =>
    obtain ⟨⟨text, rfl⟩, hrest⟩ := List.forall_mem_cons.mp h
    obtain ⟨texts, rfl⟩ := ih hrest
    exact ⟨text :: texts, rfl⟩

theorem flatten_map_units (texts : List (List Char)) : (texts.map units).flatten = units texts.flatten := by
  induction texts with
  | nil => rfl
  | cons text texts ih => rw [List.map_cons, List.flatten_cons, ih, List.flatten_cons, units_append]

theorem totalBytes_append (values others : List Units) : totalBytes (values ++ others) = totalBytes values + totalBytes others := by
  rw [totalBytes, List.map_append, List.sum_append]
  rfl

theorem totalBytes_map_units (texts : List (List Char)) : totalBytes (texts.map units) = utf8Size texts.flatten := by
  induction texts with
  | nil => rfl
  | cons text texts ih =>
    rw [List.flatten_cons, utf8Size_append, ← ih, ← byteLength_units]
    exact List.sum_cons

theorem totalBytes_map_nil {α : Type} (values : List α) : totalBytes (values.map fun _ => []) = 0 := by
  induction values with
  | nil => rfl
  | cons value values ih =>
    change 0 + totalBytes (values.map fun _ => []) = 0
    rw [ih]

def budget (limit : Int) (total : Nat) (recovery : String) : Nat :=
  (limit - byteLength (longestMarker total recovery) - 1).toNat

/-- One text is cut to the longest prefix that the budget has room for; those before it stay and those after it are
emptied. -/
def Cut (limit : Int) (recovery : String) (values answers : List Units) : Prop :=
  ∃ before value after kept, values = before ++ value :: after ∧ kept <+: value ∧ kept ≠ value ∧
    answers = before ++ (kept ++ separator kept ++
      marker (totalBytes (before ++ [kept])) (totalBytes values) recovery) :: after.map (fun _ => []) ∧
    ∃ text keptText, values.flatten = units text ∧ (before ++ [kept]).flatten = units keptText ∧
      LongestPrefix (budget limit (totalBytes values) recovery) text keptText

structure Bounded (limit : Int) (recovery : String) (result answer : Result) : Prop where
  unchanged : answer =
    { result with text := answer.text, truncated := true, stdout := answer.stdout, stderr := answer.stderr, diff := answer.diff }
  stdout : answer.stdout.isSome = result.stdout.isSome
  stderr : answer.stderr.isSome = result.stderr.isSome
  diff : answer.diff.isSome = result.diff.isSome
  cut : Cut limit recovery result.values answer.values
  size : (totalBytes answer.values : Int) ≤ limit

theorem isSome_trim {total : Nat} (state : Trim) (value : Option Units) :
    (trim total recovery state value).1.isSome = value.isSome := by
  cases value <;> rfl

theorem boundFields_unchanged (result : Result) (limit : Int) (total : Nat) (recovery : String) :
    let answer := boundFields result limit total recovery
    answer = { result with
        text := answer.text, truncated := true, stdout := answer.stdout, stderr := answer.stderr, diff := answer.diff } ∧
      answer.stdout.isSome = result.stdout.isSome ∧ answer.stderr.isSome = result.stderr.isSome ∧
        answer.diff.isSome = result.diff.isSome := by
  rw [boundFields]
  exact ⟨rfl, isSome_trim _ _, isSome_trim _ _, isSome_trim _ _⟩

theorem byteLength_marked_le (text : List Char) (others : Units) :
    byteLength (units text ++ separator (units text) ++ others) ≤ utf8Size text + 1 + byteLength others := by
  rw [separator]
  split
  · rw [List.append_nil, byteLength_units_append]
    omega
  · have hnewline : [newline] = units ['\n'] := rfl
    rw [hnewline, ← units_append, byteLength_units_append, utf8Size_append]
    exact Nat.le_refl _

theorem cut_trimAll {texts : List (List Char)}
    (h : budget limit (totalBytes (texts.map units)) recovery < utf8Size texts.flatten) :
    Cut limit recovery (texts.map units) (trimAll (totalBytes (texts.map units)) recovery
      ⟨budget limit (totalBytes (texts.map units)) recovery, 0, false⟩ (texts.map units)) := by
  obtain ⟨before, text, after, hsplit, hbefore, hcut, htrim⟩ :=
    @trimAll_cut (totalBytes (texts.map units)) recovery _ 0 _ h
  generalize htotal : totalBytes (texts.map units) = total at *
  have hkept : fitting (budget limit total recovery) texts.flatten =
      before.flatten ++ fitting (budget limit total recovery - utf8Size before.flatten) text := by
    rw [hsplit]
    exact fitting_flatten after hbefore hcut
  generalize hfitting : fitting (budget limit total recovery - utf8Size before.flatten) text = kept at *
  have hinit : kept <+: text := by
    rw [← hfitting]
    exact (longestPrefix_fitting _ _).isPrefix
  have hne : kept ≠ text := by
    intro heq
    rw [← hfitting] at heq
    exact absurd (fitting_eq_self.mp heq) (Nat.not_le.mpr hcut)
  have hjoin : (before.map units ++ [units kept]).flatten = units (before.flatten ++ kept) := by
    rw [List.flatten_append, flatten_map_units, units_append, List.flatten_singleton]
  have hbytes : totalBytes (before.map units ++ [units kept]) = utf8Size (before.flatten ++ kept) := by
    rw [totalBytes_append, totalBytes_map_units, utf8Size_append, ← byteLength_units kept]
    rfl
  refine ⟨before.map units, units text, after.map units, units kept, ?_, ?_, ?_, ?_, texts.flatten,
    before.flatten ++ kept, flatten_map_units _, hjoin, ?_⟩
  · rw [hsplit, List.map_append, List.map_cons]
  · obtain ⟨rest, hrest⟩ := hinit
    exact ⟨units rest, by rw [← units_append, hrest]⟩
  · exact fun heq => hne (units_injective heq)
  · rw [htrim, hbytes, htotal, Nat.zero_add, List.map_map]
    rfl
  · rw [htotal, ← hkept]
    exact longestPrefix_fitting _ _

theorem Cut.size {answers : List Units} (h : Cut limit recovery values answers)
    (hwell : ∀ value ∈ values, ∃ text, value = units text)
    (hlimit : (byteLength (longestMarker (totalBytes values) recovery) : Int) + 1 ≤ limit) :
    (totalBytes answers : Int) ≤ limit := by
  obtain ⟨before, value, after, kept, hvalues, hinit, _, hanswers, text, keptText, htext, hkept, hlongest⟩ := h
  obtain ⟨texts, htexts⟩ := exists_map_units hwell
  obtain ⟨earlier, hearlier⟩ : ∃ texts : List (List Char), before = texts.map units :=
    exists_map_units fun other hother => hwell other (hvalues ▸ List.mem_append_left _ hother)
  have hkeptUnits : kept = units (scalars kept) := by
    have hscalars := congrArg scalars hkept
    rw [List.flatten_append, hearlier, flatten_map_units, List.flatten_singleton, scalars_units_append,
      scalars_units] at hscalars
    rw [List.flatten_append, hearlier, flatten_map_units, List.flatten_singleton, ← hscalars, units_append] at hkept
    exact List.append_cancel_left hkept
  have hkeptText : earlier.flatten ++ scalars kept = keptText := by
    refine units_injective ?_
    rw [← hkept, List.flatten_append, hearlier, flatten_map_units, List.flatten_singleton, units_append, ← hkeptUnits]
  have htotal : totalBytes values = utf8Size text := by
    rw [htexts, flatten_map_units] at htext
    rw [htexts, totalBytes_map_units, units_injective htext]
  have hnumber : totalBytes (before ++ [kept]) = utf8Size keptText := by
    rw [totalBytes_append, hearlier, totalBytes_map_units, ← hkeptText, utf8Size_append]
    rfl
  have hle : utf8Size keptText ≤ totalBytes values := by
    obtain ⟨rest, hrest⟩ := hlongest.isPrefix
    rw [htotal, ← hrest, utf8Size_append]
    exact Nat.le_add_right _ _
  have hmarker := byteLength_marker_le hle recovery
  have hmarked := byteLength_marked_le (scalars kept) (marker (utf8Size keptText) (totalBytes values) recovery)
  have hsize := hlongest.size
  rw [← hkeptUnits] at hmarked
  rw [budget] at hsize
  rw [hanswers, hnumber, totalBytes_append, hearlier, totalBytes_map_units]
  rw [← hkeptText, utf8Size_append] at hsize
  have hlater := totalBytes_map_nil after
  rw [totalBytes] at hlater
  rw [totalBytes, List.map_cons, List.sum_cons, hlater]
  omega

/-- The result of a tool keeps to its limit, and is cut as late as that leaves room for. -/
theorem boundResult_bounded (tag : RequestTag) (limit : Int) (result : Result) (hwell : result.WellFormed)
    (hlimit : (byteLength (longestMarker (totalBytes result.values) (outputRecovery tag)) : Int) + 1 ≤ limit) :
    ((totalBytes result.values : Int) ≤ limit → boundResult tag limit result = result) ∧
      (limit < totalBytes result.values → Bounded limit (outputRecovery tag) result (boundResult tag limit result)) := by
  rw [boundResult]
  constructor
  · intro hfits
    rw [if_pos hfits]
  · intro hover
    rw [if_neg (Int.not_le.mpr hover)]
    obtain ⟨texts, htexts⟩ := exists_map_units hwell
    obtain ⟨hunchanged, hstdout, hstderr, hdiff⟩ :=
      boundFields_unchanged result limit (totalBytes result.values) (outputRecovery tag)
    have hbudget : budget limit (totalBytes (texts.map units)) (outputRecovery tag) < utf8Size texts.flatten := by
      rw [htexts, totalBytes_map_units] at hover
      rw [budget]
      omega
    have hstart : (max 0 (limit - byteLength (longestMarker (totalBytes result.values) (outputRecovery tag)) - 1)).toNat =
        budget limit (totalBytes result.values) (outputRecovery tag) := by
      rw [budget]
      omega
    have hcut : Cut limit (outputRecovery tag) result.values
        (boundFields result limit (totalBytes result.values) (outputRecovery tag)).values := by
      rw [trimAll_values, hstart, htexts]
      exact cut_trimAll hbudget
    exact ⟨hunchanged, hstdout, hstderr, hdiff, hcut, hcut.size hwell hlimit⟩

def sampleOutput : List Char := List.replicate 120 'a' ++ ['𝕏']

def sampleResult : Result := ⟨units "ran".toList, false, some false, none, some 0, some 5, some (units sampleOutput), none, none⟩

theorem wellFormed_sampleResult : sampleResult.WellFormed := by
  intro value hmem
  rcases List.mem_cons.mp hmem with rfl | hmem
  · exact ⟨_, rfl⟩
  · exact ⟨_, List.mem_singleton.mp hmem⟩

theorem boundResult_bounded_sample :
    Bounded 100 "page or narrow the command" sampleResult (boundResult .bash 100 sampleResult) ∧
      (boundResult .bash 100 sampleResult).text = units "ran".toList :=
  ⟨(boundResult_bounded .bash 100 sampleResult wellFormed_sampleResult (by decide +kernel)).2 (by decide +kernel),
    by decide +kernel⟩

end Results

end Rika.NativeRuntime
