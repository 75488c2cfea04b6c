import Rika.ProcessRegistry

namespace Rika.ProcessRegistry

open Utf8Stream (Decoder)
open WideText (Units units units_append)

def Happening.bytes (channel : Channel) : Happening → List UInt8
  | .read other bytes => if other = channel then bytes else []
  | .ended _ _ | .watched _ | .returned _ | .notFound _ => []

def Happening.ends (channel : Channel) : Happening → Bool
  | .ended other _ => other = channel
  | .read _ _ | .watched _ | .returned _ | .notFound _ => false

def Happening.fails : Happening → Bool
  | .ended _ succeeded => !succeeded
  | .watched exitCode => exitCode = none || exitCode = some (-1)
  | .read _ _ | .returned _ | .notFound _ => false

def Happening.output : Happening → Option Output
  | .returned output => some output
  | .read _ _ | .ended _ _ | .watched _ | .notFound _ => none

def happenings (processId : ProcessId) (facts : List Fact) : List Happening :=
  (facts.filter fun fact => fact.processId = processId).map (·.happening)

section

variable (channel : Channel) (history : List Happening)

def bytesRead : List UInt8 := history.flatMap (Happening.bytes channel)

def hasEnded : Bool := history.any (Happening.ends channel)

def decodedText : List Char :=
  (Decoder.start.decode (bytesRead channel history)).1 ++
    if hasEnded channel history then (Decoder.start.decode (bytesRead channel history)).2.flush else []

end

def returned (history : List Happening) : List Output := history.filterMap Happening.output

def untilExit : List Output → List Output
  | [] => []
  | output :: outputs => if output.running then output :: untilExit outputs else [output]

def joined (channel : Channel) (outputs : List Output) : Units := outputs.flatMap (·.text channel)

/-- The outputs up to the exit have all that was decoded, once, unless one of them is marked, and then the last one
again. -/
structure Conserved (history : List Happening) : Prop where
  again : ∀ output ∈ (returned history).drop (untilExit (returned history)).length,
    (untilExit (returned history)).getLast? = some output
  early : (∀ output ∈ untilExit (returned history), output.truncated = false) →
    ∀ channel, joined channel (untilExit (returned history)) <+: units (decodedText channel history)
  current : (∀ output ∈ untilExit (returned history), output.truncated = false) →
    ∀ output, history.getLast? = some (.returned output) →
      ∀ channel, joined channel (untilExit (returned history)) = units (decodedText channel history)
  whole : (∀ output ∈ untilExit (returned history), output.truncated = false) →
    ∀ output ∈ returned history, output.running = false →
      ∀ channel, joined channel (untilExit (returned history)) = units (decodedText channel history) ∧
        hasEnded channel history = true
  failure : history.any Happening.fails = true → ∀ output ∈ returned history, output.running = false →
    ∃ marked ∈ untilExit (returned history), marked.truncated = true

section Histories

variable {history : List Happening} {channel : Channel}

section

variable (history more : List Happening)

theorem returned_append : returned (history ++ more) = returned history ++ returned more :=
  List.filterMap_append

theorem bytesRead_append :
    bytesRead channel (history ++ more) = bytesRead channel history ++ bytesRead channel more :=
  List.flatMap_append

theorem hasEnded_append :
    hasEnded channel (history ++ more) = (hasEnded channel history || hasEnded channel more) :=
  List.any_append

end

variable {happening : Happening}

theorem bytesRead_silent (h : happening.bytes channel = []) :
    bytesRead channel (history ++ [happening]) = bytesRead channel history := by
  rw [bytesRead_append, bytesRead, bytesRead, List.flatMap_cons, h, List.flatMap_nil, List.append_nil, List.append_nil]

theorem hasEnded_silent (h : happening.ends channel = false) :
    hasEnded channel (history ++ [happening]) = hasEnded channel history := by
  rw [hasEnded_append, hasEnded, hasEnded, List.any_cons, h, List.any_nil, Bool.or_false, Bool.or_false]

theorem joined_append (outputs more : List Output) :
    joined channel (outputs ++ more) = joined channel outputs ++ joined channel more :=
  List.flatMap_append

theorem decodedText_silent (hbytes : happening.bytes channel = [])
    (hends : happening.ends channel = false) : decodedText channel (history ++ [happening]) = decodedText channel history := by
  rw [decodedText, decodedText, bytesRead_silent hbytes, hasEnded_silent hends]

theorem decodedText_append_read (hopen : hasEnded channel history = false) (bytes : List UInt8) :
    decodedText channel (history ++ [.read channel bytes]) =
      decodedText channel history ++ ((Decoder.start.decode (bytesRead channel history)).2.decode bytes).1 := by
  have hbytes : bytesRead channel [.read channel bytes] = bytes := by
    simp [bytesRead, Happening.bytes]
  have hends : hasEnded channel [.read channel bytes] = false := rfl
  rw [decodedText, decodedText, bytesRead_append, hasEnded_append, hopen, hbytes, hends, Decoder.decode_append]
  simp only [Bool.or_self, Bool.false_eq_true, if_false, List.append_nil]

theorem decodedText_append_ended (hopen : hasEnded channel history = false) (succeeded : Bool) :
    decodedText channel (history ++ [.ended channel succeeded]) =
      decodedText channel history ++ (Decoder.start.decode (bytesRead channel history)).2.flush := by
  have hbytes : bytesRead channel [.ended channel succeeded] = [] := rfl
  have hends : hasEnded channel [.ended channel succeeded] = true := by
    simp [hasEnded, Happening.ends]
  rw [decodedText, decodedText, bytesRead_append, hasEnded_append, hopen, hbytes, hends, List.append_nil, Bool.false_or,
    if_pos rfl, if_neg Bool.false_ne_true, List.append_nil]

theorem untilExit_append {outputs : List Output} (h : ∀ output ∈ outputs, output.running = true) (more : List Output) :
    untilExit (outputs ++ more) = outputs ++ untilExit more := by
  induction outputs with
  | nil => rfl
  | cons output outputs ih =>
    rw [List.cons_append, untilExit, if_pos (h output List.mem_cons_self),
      ih fun other hother => h other (List.mem_cons_of_mem _ hother), List.cons_append]

theorem untilExit_running {outputs : List Output} (h : ∀ output ∈ outputs, output.running = true) :
    untilExit outputs = outputs := by
  have happend := untilExit_append h []
  rwa [List.append_nil, untilExit, List.append_nil] at happend

theorem untilExit_singleton (output : Output) : untilExit [output] = [output] := by
  rw [untilExit, untilExit]
  split <;> rfl

theorem happenings_append (processId : ProcessId) (facts more : List Fact) :
    happenings processId (facts ++ more) = happenings processId facts ++ happenings processId more := by
  rw [happenings, List.filter_append, List.map_append]
  rfl

theorem happenings_map_self (processId : ProcessId) (more : List Happening) :
    happenings processId (more.map (Fact.mk processId)) = more := by
  induction more with
  | nil => rfl
  | cons happening more ih =>
    have hkeep : happenings processId ((happening :: more).map (Fact.mk processId)) =
        happening :: happenings processId (more.map (Fact.mk processId)) := by
      simp [happenings]
    rw [hkeep, ih]

theorem happenings_map_other {processId other : ProcessId} (h : other ≠ processId) (more : List Happening) :
    happenings processId (more.map (Fact.mk other)) = [] := by
  simp [happenings, h]

theorem happenings_concat_self (processId : ProcessId) (facts : List Fact) (happening : Happening) :
    happenings processId (facts ++ [⟨processId, happening⟩]) = happenings processId facts ++ [happening] := by
  rw [happenings_append]
  exact congrArg _ (happenings_map_self processId [happening])

theorem happenings_concat_other {processId other : ProcessId} (h : other ≠ processId) (facts : List Fact) (happening : Happening) :
    happenings processId (facts ++ [⟨other, happening⟩]) = happenings processId facts := by
  rw [happenings_append]
  exact (congrArg _ (happenings_map_other h [happening])).trans (List.append_nil _)

end Histories

def Alive (history : List Happening) : Prop := ∀ output ∈ returned history, output.running = true

/-- The exit has been told, by an output that is returned since. -/
structure Over (history : List Happening) (output : Output) : Prop where
  exited : output.running = false
  returned : ∃ before count, returned history = before ++ output :: List.replicate count output ∧
    ∀ other ∈ before, other.running = true

variable {history : List Happening} {output : Output}

theorem Over.mem (h : Over history output) : output ∈ Rika.ProcessRegistry.returned history := by
  obtain ⟨before, count, hreturned, _⟩ := h.returned
  rw [hreturned]
  exact List.mem_append_right _ List.mem_cons_self

theorem Over.not_alive (h : Over history output) : ¬ Alive history := by
  intro halive
  have hrunning := halive output h.mem
  rw [h.exited] at hrunning
  exact Bool.noConfusion hrunning

theorem Over.untilExit (h : Over history output) :
    ∃ before count, Rika.ProcessRegistry.returned history = before ++ output :: List.replicate count output ∧
      untilExit (Rika.ProcessRegistry.returned history) = before ++ [output] := by
  obtain ⟨before, count, hreturned, hbefore⟩ := h.returned
  refine ⟨before, count, hreturned, ?_⟩
  rw [hreturned, untilExit_append hbefore, Rika.ProcessRegistry.untilExit, h.exited, if_neg Bool.false_ne_true]

theorem Over.unique {other : Output} (h : Over history output) (hother : Over history other) : output = other := by
  obtain ⟨before, _, _, huntil⟩ := h.untilExit
  obtain ⟨otherBefore, _, _, hotherUntil⟩ := hother.untilExit
  have hlast := congrArg List.getLast? (huntil.symm.trans hotherUntil)
  rw [List.getLast?_concat, List.getLast?_concat] at hlast
  exact Option.some.inj hlast

def Entry.failing (entry : Entry) : Bool :=
  (entry.drains .stdout).exit = some false || (entry.drains .stderr).exit = some false ||
    entry.processExit = some none || entry.processExit = some (some (-1))

/-- What has been decoded and not been returned is held, unless it is marked. -/
structure Holds (history : List Happening) (pending : PendingOutput) (held : Channel → Units) : Prop where
  decoded : ∀ channel, joined channel (untilExit (returned history)) ++ held channel = units (decodedText channel history)
  text : pending.truncated = false → ∀ channel, pending.text channel = held channel
  empty : ∀ output, history.getLast? = some (.returned output) → ∀ channel, held channel = []

/-- What an entry holds for a history of its process. -/
structure Sound (history : List Happening) (entry : Entry) : Prop where
  decoder : ∀ channel, (entry.drains channel).decoder = (Decoder.start.decode (bytesRead channel history)).2
  ended : ∀ channel, hasEnded channel history = (entry.drains channel).exit.isSome
  held : (∀ output ∈ untilExit (returned history), output.truncated = false) →
    ∃ held, Holds history entry.output held
  settled : ∀ exit, entry.exit = some (.ok exit) →
    ∃ exits, entry.exits = some exits ∧ (isFailure exits = true → entry.marked = true)
  looked : ∀ outputLimit exit, entry.admission = some (.looked outputLimit (some exit)) → entry.exit = some (.ok exit)
  failed : history.any Happening.fails = true → entry.failing = true
  marked : entry.marked = true →
    entry.output.truncated = true ∨ ∃ output ∈ untilExit (returned history), output.truncated = true
  admitted : entry.admission.isSome = true → Alive history
  phase : Alive history ∨ ∃ output, Over history output ∧ entry.output = .empty ∧ ∃ exit, entry.exit = some (.ok exit)

section Entries

variable {history : List Happening} {entry changed : Entry} {more : List Happening} {channel : Channel}

variable {exits : Bool × Bool × Option Int} {pending : PendingOutput} {happening : Happening} {output : Output}

theorem exits_eq : entry.exits = some exits ↔
      (entry.drains .stdout).exit = some exits.1 ∧ (entry.drains .stderr).exit = some exits.2.1 ∧
        entry.processExit = some exits.2.2 := by
  obtain ⟨stdoutExit, stderrExit, processExit⟩ := exits
  rw [Entry.exits]
  cases (entry.drains .stdout).exit <;> cases (entry.drains .stderr).exit <;> cases entry.processExit <;> simp

theorem exit_of_exits (h : entry.exits = some exits) (channel : Channel) : (entry.drains channel).exit.isSome = true := by
  obtain ⟨hstdout, hstderr, _⟩ := exits_eq.mp h
  cases channel with
  | stdout => rw [hstdout]; rfl
  | stderr => rw [hstderr]; rfl

theorem isFailure_of_failing (h : entry.exits = some exits) (hfailing : entry.failing = true) : isFailure exits = true := by
  obtain ⟨hstdout, hstderr, hprocess⟩ := exits_eq.mp h
  rw [Entry.failing, hstdout, hstderr, hprocess] at hfailing
  simpa [isFailure, or_assoc] using hfailing

theorem Sound.not_open (h : Sound history entry) (hopen : (entry.drains channel).exit = none) {exit : ProcessExit} :
    entry.exit ≠ some (.ok exit) := by
  intro hexit
  obtain ⟨exits, hexits, _⟩ := h.settled exit hexit
  have hsome := exit_of_exits hexits channel
  rw [hopen] at hsome
  exact Bool.noConfusion hsome

theorem Sound.alive (h : Sound history entry) (hexit : ∀ exit, entry.exit ≠ some (.ok exit)) : Alive history := by
  rcases h.phase with halive | ⟨_, _, _, exit, hsome⟩
  · exact halive
  · exact absurd hsome (hexit exit)

theorem truncated_appendOutput (pending : PendingOutput) (channel : Channel) (text : Units) :
    (appendOutput pending channel text).truncated = false → pending.truncated = false := by
  intro h
  cases channel <;> exact (Bool.or_eq_false_iff.mp h).1

theorem text_appendOutput {channel : Channel} {text : Units}
    (h : (appendOutput pending channel text).truncated = false) (other : Channel) :
    (appendOutput pending channel text).text other =
      if other = channel then pending.text other ++ text else pending.text other := by
  have hpending := truncated_appendOutput pending channel text h
  have haccepted : (if pending.truncated then [] else
      RuntimeFilesystem.boundedPrefix text (pendingOutputLimit - pending.retainedBytes)) = text := by
    cases channel <;> exact of_decide_eq_false (Bool.or_eq_false_iff.mp h).2 |> Decidable.not_not.mp
  cases channel <;> cases other
  · exact congrArg (pending.stdout ++ ·) haccepted
  · rfl
  · rfl
  · exact congrArg (pending.stderr ++ ·) haccepted

theorem returned_append_none (h : happening.output = none) : returned (history ++ [happening]) = returned history := by
  rw [returned_append]
  have hnone : returned [happening] = [] := by rw [returned, List.filterMap_cons, h, List.filterMap_nil]
  rw [hnone, List.append_nil]

theorem getLast_append_none (h : happening.output = none) : (history ++ [happening]).getLast? ≠ some (.returned output) := by
  intro hlast
  rw [List.getLast?_concat] at hlast
  rw [Option.some.inj hlast] at h
  cases h

theorem Holds.append {held : Channel → Units} (h : Holds history pending held)
    (houtput : happening.output = none) {text : List Char}
    (hdecoded : decodedText channel (history ++ [happening]) = decodedText channel history ++ text)
    (hothers : ∀ other, other ≠ channel → decodedText other (history ++ [happening]) = decodedText other history) :
    Holds (history ++ [happening]) (appendOutput pending channel (units text))
      (fun other => if other = channel then held other ++ units text else held other) := by
  refine ⟨fun other => ?_, fun htruncated other => ?_, fun output hlast => absurd hlast (getLast_append_none houtput)⟩
  · rw [returned_append_none houtput]
    by_cases heq : other = channel
    · subst heq
      rw [if_pos rfl, hdecoded, units_append, ← h.decoded other, List.append_assoc]
    · rw [if_neg heq, hothers other heq]
      exact h.decoded other
  · rw [text_appendOutput htruncated, h.text (truncated_appendOutput _ _ _ htruncated)]

theorem Holds.silent {held : Channel → Units} (h : Holds history pending held) (houtput : happening.output = none)
    (hdecoded : ∀ channel, decodedText channel (history ++ [happening]) = decodedText channel history) :
    Holds (history ++ [happening]) pending held := by
  refine ⟨fun channel => ?_, h.text, fun output hlast => absurd hlast (getLast_append_none houtput)⟩
  rw [returned_append_none houtput, hdecoded]
  exact h.decoded channel

theorem alive_append_none (houtput : happening.output = none) (h : Alive history) : Alive (history ++ [happening]) := by
  rw [Alive, returned_append_none houtput]
  exact h

theorem any_append_fails (happening : Happening) :
    (history ++ [happening]).any Happening.fails = (history.any Happening.fails || happening.fails) := by
  simp

theorem drains_append (text : Units) (drain : Drain) (other : Channel) :
    (entry.append channel text drain).drains other = if other = channel then drain else entry.drains other :=
  Function.update_apply _ _ _ _

theorem failing_append (hopen : (entry.drains channel).exit = none) {text : Units} {drain : Drain}
    (h : entry.failing = true ∨ drain.exit = some false) : (entry.append channel text drain).failing = true := by
  have hprocess : (entry.append channel text drain).processExit = entry.processExit := rfl
  rw [Entry.failing, drains_append, drains_append, hprocess]
  rw [Entry.failing] at h
  cases channel with
  | stdout | stderr =>
    rw [hopen] at h
    simpa [or_assoc, or_comm, or_left_comm] using h

structure Adds (history : List Happening) (channel : Channel) (happening : Happening) (text : List Char) (drain : Drain) :
    Prop where
  output : happening.output = none
  others : ∀ other, other ≠ channel → happening.bytes other = [] ∧ happening.ends other = false
  decoder : drain.decoder = (Decoder.start.decode (bytesRead channel (history ++ [happening]))).2
  ended : happening.ends channel = drain.exit.isSome
  decoded : decodedText channel (history ++ [happening]) = decodedText channel history ++ text
  fails : happening.fails = true → drain.exit = some false

theorem Sound.append {text : List Char} {drain : Drain} (h : Sound history entry)
    (hopen : (entry.drains channel).exit = none) (hadds : Adds history channel happening text drain) :
    Sound (history ++ [happening]) (entry.append channel (units text) drain) := by
  have halive := alive_append_none hadds.output (h.alive fun exit => h.not_open hopen)
  have hends : ∀ other, hasEnded other [happening] = happening.ends other := fun other => by simp [hasEnded]
  refine ⟨fun other => ?_, fun other => ?_, fun hclear => ?_, fun exit hexit => absurd hexit (h.not_open hopen),
    h.looked, fun hfails => ?_, fun hmarked => ?_, fun _ => halive, Or.inl halive⟩
  · rw [drains_append]
    by_cases hother : other = channel
    · rw [if_pos hother, hother, hadds.decoder]
    · rw [if_neg hother, bytesRead_silent (hadds.others other hother).1, h.decoder]
  · rw [drains_append]
    by_cases hother : other = channel
    · rw [if_pos hother, hother, hasEnded_append, hends, hadds.ended, h.ended, hopen]
      rfl
    · rw [if_neg hother, hasEnded_silent (hadds.others other hother).2, h.ended]
  · rw [returned_append_none hadds.output] at hclear
    obtain ⟨held, hheld⟩ := h.held hclear
    refine ⟨_, hheld.append hadds.output hadds.decoded fun other hother => ?_⟩
    exact decodedText_silent (hadds.others other hother).1 (hadds.others other hother).2
  · rw [any_append_fails, Bool.or_eq_true] at hfails
    exact failing_append hopen (hfails.imp h.failed hadds.fails)
  · rw [returned_append_none hadds.output]
    refine (h.marked hmarked).imp_left fun htruncated => ?_
    cases htext : (entry.append channel (units text) drain).output.truncated with
    | true => rfl
    | false => exact (truncated_appendOutput _ _ _ htext).symm.trans htruncated

theorem Sound.drain {bytes : List UInt8} (h : Sound history entry) (hchange : entry.drain channel bytes = some (changed, more)) :
    Sound (history ++ more) changed := by
  rw [Entry.drain] at hchange
  split at hchange
  · cases hchange
  · next hopen =>
      cases hchange
      have hnotEnded : hasEnded channel history = false := by rw [h.ended, hopen]; rfl
      have hbytes : bytesRead channel [.read channel bytes] = bytes := by simp [bytesRead, Happening.bytes]
      refine h.append hopen ⟨rfl, fun other hother => ⟨if_neg hother.symm, rfl⟩, ?_, rfl, ?_, fun hfails => absurd hfails Bool.false_ne_true⟩
      · rw [bytesRead_append, hbytes, Decoder.decode_append, h.decoder]
      · rw [decodedText_append_read hnotEnded, h.decoder]

theorem Sound.drained {succeeded : Bool} (h : Sound history entry)
    (hchange : entry.drained channel succeeded = some (changed, more)) : Sound (history ++ more) changed := by
  rw [Entry.drained] at hchange
  split at hchange
  · cases hchange
  · next hopen =>
      cases hchange
      have hnotEnded : hasEnded channel history = false := by rw [h.ended, hopen]; rfl
      refine h.append hopen ⟨rfl, fun other hother => ⟨rfl, decide_eq_false hother.symm⟩, ?_, decide_eq_true rfl, ?_,
        fun hfails => ?_⟩
      · rw [bytesRead_silent rfl, h.decoder]
      · rw [decodedText_append_ended hnotEnded, h.decoder]
      · rw [Happening.fails, Bool.not_eq_true'] at hfails
        rw [hfails]

theorem Sound.watched {exitCode : Option Int} (h : Sound history entry) (hchange : entry.watched exitCode = some (changed, more)) :
    Sound (history ++ more) changed := by
  rw [Entry.watched] at hchange
  split at hchange
  · cases hchange
  · next hopen =>
      cases hchange
      have houtput : (Happening.watched exitCode).output = none := rfl
      have hnotExited : ∀ exit, entry.exit ≠ some (.ok exit) := by
        intro exit hexit
        obtain ⟨exits, hexits, _⟩ := h.settled exit hexit
        have hprocess := (exits_eq.mp hexits).2.2
        rw [hopen] at hprocess
        cases hprocess
      have halive := alive_append_none houtput (h.alive hnotExited)
      refine ⟨fun channel => ?_, fun channel => ?_, fun hclear => ?_, fun exit hexit => absurd hexit (hnotExited exit),
        h.looked, fun hfails => ?_, fun hmarked => ?_, fun _ => halive, Or.inl halive⟩
      · rw [bytesRead_silent rfl, h.decoder]
      · rw [hasEnded_silent rfl, h.ended]
      · rw [returned_append_none houtput] at hclear
        obtain ⟨held, hheld⟩ := h.held hclear
        exact ⟨held, hheld.silent houtput fun channel => decodedText_silent rfl rfl⟩
      · rw [any_append_fails, Bool.or_eq_true] at hfails
        rcases hfails with hbefore | hnow
        · have hfailing := h.failed hbefore
          rw [Entry.failing, hopen] at hfailing
          rw [Entry.failing]
          simp only [reduceCtorEq, decide_false, Bool.or_false] at hfailing
          rw [hfailing, Bool.true_or, Bool.true_or]
        · rw [Happening.fails] at hnow
          rw [Entry.failing, Bool.or_assoc]
          simp only [Option.some.injEq]
          rw [hnow, Bool.or_true]
      · rw [returned_append_none houtput]
        exact h.marked hmarked

theorem Sound.mark (h : Sound history entry) (hchange : entry.mark = some (changed, more)) :
    Sound (history ++ more) changed := by
  rw [Entry.mark] at hchange
  split at hchange
  · cases hchange
  · next exits hexits =>
      obtain ⟨hcondition, hchange⟩ := Option.ite_none_right_eq_some.mp hchange
      cases hchange
      rw [Bool.and_eq_true, Bool.not_eq_true'] at hcondition
      have hnotExited : ∀ exit, entry.exit ≠ some (.ok exit) := by
        intro exit hexit
        obtain ⟨others, hothers, hmarked⟩ := h.settled exit hexit
        rw [hexits] at hothers
        cases hothers
        have hmark := hmarked hcondition.1
        rw [hcondition.2] at hmark
        exact Bool.noConfusion hmark
      rw [List.append_nil]
      refine ⟨h.decoder, h.ended, fun hclear => ?_, fun exit hexit => absurd hexit (hnotExited exit), h.looked, h.failed,
        fun _ => Or.inl rfl, h.admitted, Or.inl (h.alive hnotExited)⟩
      obtain ⟨held, hheld⟩ := h.held hclear
      exact ⟨held, hheld.decoded, fun hfalse => absurd hfalse.symm Bool.false_ne_true, hheld.empty⟩

theorem Sound.settle {nanos : Nat} (h : Sound history entry) (hchange : entry.settle nanos = some (changed, more)) :
    Sound (history ++ more) changed := by
  rw [Entry.settle] at hchange
  split at hchange
  · next exits hexits hexit =>
      obtain ⟨hcondition, hchange⟩ := Option.ite_none_left_eq_some.mp hchange
      cases hchange
      rw [List.append_nil]
      have hnotExited : ∀ exit, entry.exit ≠ some (.ok exit) := by
        intro exit hsome
        rw [hexit] at hsome
        cases hsome
      refine ⟨h.decoder, h.ended, h.held, fun _ _ => ⟨exits, hexits, fun hfailure => ?_⟩, fun outputLimit exit hadmission => ?_,
        h.failed, h.marked, h.admitted, Or.inl (h.alive hnotExited)⟩
      · rw [hfailure, Bool.true_and, Bool.not_eq_true', Bool.not_eq_false] at hcondition
        exact hcondition
      · exact absurd (h.looked outputLimit exit hadmission) (hnotExited exit)
  · cases hchange

theorem Sound.enter {outputLimit : Int} (h : Sound history entry) (halive : Alive history)
    (hchange : entry.enter outputLimit = some (changed, more)) : Sound (history ++ more) changed := by
  rw [Entry.enter] at hchange
  split at hchange
  · cases hchange
  · cases hchange
    rw [List.append_nil]
    refine ⟨h.decoder, h.ended, h.held, h.settled, fun other exit hadmission => ?_, h.failed, h.marked, fun _ => halive, h.phase⟩
    cases hadmission

section

variable (h : Sound history entry)

include h

theorem Sound.notFound (error : ProcessNotFound) : Sound (history ++ [.notFound error]) entry := by
  have houtput : (Happening.notFound error).output = none := rfl
  have hreturned : returned (history ++ [.notFound error]) = returned history := returned_append_none houtput
  refine ⟨fun channel => ?_, fun channel => ?_, fun hclear => ?_, h.settled, h.looked, fun hfails => ?_, fun hmarked => ?_,
    fun hadmitted => alive_append_none houtput (h.admitted hadmitted), ?_⟩
  · rw [bytesRead_silent rfl, h.decoder]
  · rw [hasEnded_silent rfl, h.ended]
  · rw [hreturned] at hclear
    obtain ⟨held, hheld⟩ := h.held hclear
    exact ⟨held, hheld.silent houtput fun channel => decodedText_silent rfl rfl⟩
  · rw [any_append_fails, Happening.fails, Bool.or_false] at hfails
    exact h.failed hfails
  · rw [hreturned]
    exact h.marked hmarked
  · refine h.phase.imp (alive_append_none houtput) fun hover => ?_
    obtain ⟨output, hover, hrest⟩ := hover
    exact ⟨output, ⟨hover.exited, by rw [hreturned]; exact hover.returned⟩, hrest⟩

theorem Sound.setAdmission {admission : Option Poll}
    (hadmitted : admission.isSome = true → entry.admission.isSome = true)
    (hlooked : ∀ outputLimit exit, admission = some (.looked outputLimit (some exit)) → entry.exit = some (.ok exit)) :
    Sound history { entry with admission := admission } :=
  ⟨h.decoder, h.ended, h.held, h.settled, hlooked, h.failed, h.marked, fun hsome => h.admitted (hadmitted hsome), h.phase⟩

theorem Sound.look (hchange : entry.look = some (changed, more)) :
    Sound (history ++ more) changed := by
  rw [Entry.look] at hchange
  split at hchange
  · next outputLimit hadmission =>
      have hsome : entry.admission.isSome = true := by rw [hadmission]; rfl
      split at hchange
      · cases hchange
        rw [List.append_nil]
        refine h.setAdmission (fun _ => hsome) fun other exit hlooked => ?_
        cases hlooked
      · next exit hexit =>
          cases hchange
          rw [List.append_nil]
          refine h.setAdmission (fun _ => hsome) fun other seen hlooked => ?_
          cases hlooked
          exact hexit
      · cases hchange
        refine (h.notFound _).setAdmission (fun hnone => absurd hnone Bool.false_ne_true) fun other exit hlooked => ?_
        cases hlooked
  · cases hchange
  · cases hchange

theorem Sound.leave (hchange : entry.leave = some (changed, more)) :
    Sound (history ++ more) changed := by
  rw [Entry.leave] at hchange
  cases hchange
  rw [List.append_nil]
  refine h.setAdmission (fun hnone => absurd hnone Bool.false_ne_true) fun other exit hlooked => ?_
  cases hlooked

theorem Sound.close (error : ProcessNotFound) :
    Sound history { entry with exit := entry.exit.or (some (.error error)) } := by
  have hexit : ∀ exit, entry.exit.or (some (.error error)) = some (.ok exit) ↔ entry.exit = some (.ok exit) := by
    intro exit
    cases entry.exit with
    | none => exact iff_of_false (fun heq => by cases heq) fun heq => by cases heq
    | some known => rfl
  refine ⟨h.decoder, h.ended, h.held, fun exit hsome => h.settled exit ((hexit exit).mp hsome),
    fun outputLimit exit hadmission => (hexit exit).mpr (h.looked outputLimit exit hadmission), h.failed, h.marked, h.admitted, ?_⟩
  refine h.phase.imp_right fun hover => ?_
  obtain ⟨output, hover, hempty, exit, hsome⟩ := hover
  exact ⟨output, hover, hempty, exit, (hexit exit).mpr hsome⟩

end

theorem untilExit_append_of_exit {outputs : List Output} (h : ∃ output ∈ outputs, output.running = false) (later : List Output) :
    untilExit (outputs ++ later) = untilExit outputs := by
  induction outputs with
  | nil =>
    obtain ⟨output, hmem, _⟩ := h
    cases hmem
  | cons first outputs ih =>
    rw [List.cons_append, untilExit, untilExit]
    cases hrunning : first.running with
    | false => rw [if_neg Bool.false_ne_true, if_neg Bool.false_ne_true]
    | true =>
      obtain ⟨output, hmem, hexited⟩ := h
      rcases List.mem_cons.mp hmem with rfl | hlater
      · rw [hrunning] at hexited
        exact Bool.noConfusion hexited
      · rw [if_pos rfl, if_pos rfl, ih ⟨output, hlater, hexited⟩]

theorem returned_concat (output : Output) : returned (history ++ [.returned output]) = returned history ++ [output] :=
  returned_append _ _

theorem pollOutput_unmarked {processId : ProcessId} {outputLimit : Int} {exit : Option ProcessExit} {nanos : Nat}
    (h : (pollOutput processId entry outputLimit exit nanos).truncated = false) :
    entry.output.truncated = false ∧
      ∀ channel, (pollOutput processId entry outputLimit exit nanos).text channel = entry.output.text channel := by
  obtain ⟨houtput, hbounded⟩ := Bool.or_eq_false_iff.mp h
  refine ⟨houtput, fun channel => ?_⟩
  rw [pollOutput]
  simp only [hbounded, Bool.false_eq_true, if_false]
  cases channel <;> rfl

theorem decodedText_returned (output : Output) (channel : Channel) :
    decodedText channel (history ++ [.returned output]) = decodedText channel history :=
  decodedText_silent rfl rfl

theorem Sound.take {processId : ProcessId} {outputLimit : Int} {exit : Option ProcessExit} (nanos : Nat) (h : Sound history entry)
    (hadmission : entry.admission = some (.looked outputLimit exit)) :
    Sound (history ++ [.returned (pollOutput processId entry outputLimit exit nanos)]) entry.taken := by
  have halive : Alive history := h.admitted (by rw [hadmission]; rfl)
  generalize houtput : pollOutput processId entry outputLimit exit nanos = output
  have hunmarked : output.truncated = false → entry.output.truncated = false ∧ ∀ channel, output.text channel = entry.output.text channel := by
    intro hclear
    rw [← houtput] at hclear ⊢
    exact pollOutput_unmarked hclear
  have hrunning : output.running = exit.isNone := by rw [← houtput]; rfl
  have hreturned : returned (history ++ [.returned output]) = returned history ++ [output] := returned_concat output
  have huntil : untilExit (returned (history ++ [.returned output])) = returned history ++ [output] := by
    rw [hreturned, untilExit_append halive, untilExit_singleton]
  refine ⟨fun channel => ?_, fun channel => ?_, fun hclear => ⟨fun _ => [], fun channel => ?_, fun _ channel => ?_, fun _ _ _ => rfl⟩,
    h.settled, fun other seen hlooked => ?_, fun hfails => ?_, fun hmarked => Or.inr ?_, fun hsome => ?_, ?_⟩
  · rw [bytesRead_silent rfl]
    exact h.decoder channel
  · rw [hasEnded_silent rfl]
    exact h.ended channel
  · rw [huntil] at hclear ⊢
    obtain ⟨hearlier, hlast⟩ := List.forall_mem_append.mp hclear
    obtain ⟨hpending, htext⟩ := hunmarked (hlast output List.mem_cons_self)
    rw [← untilExit_running halive] at hearlier
    obtain ⟨held, hheld⟩ := h.held hearlier
    have hdecoded := hheld.decoded channel
    rw [untilExit_running halive, ← hheld.text hpending channel, ← htext channel] at hdecoded
    rw [List.append_nil, joined_append, decodedText_returned, ← hdecoded]
    exact congrArg (joined channel (returned history) ++ ·) (List.append_nil _)
  · cases channel <;> rfl
  · cases hlooked
  · rw [any_append_fails, Happening.fails, Bool.or_false] at hfails
    exact h.failed hfails
  · rw [huntil]
    rcases h.marked hmarked with hpending | ⟨other, hother, htruncated⟩
    · refine ⟨output, List.mem_append_right _ List.mem_cons_self, ?_⟩
      cases houtputMark : output.truncated with
      | true => rfl
      | false => exact (hunmarked houtputMark).1.symm.trans hpending
    · rw [untilExit_running halive] at hother
      exact ⟨other, List.mem_append_left _ hother, htruncated⟩
  · cases hsome
  · cases exit with
    | none =>
      refine Or.inl fun other hother => ?_
      rw [hreturned] at hother
      rcases List.mem_append.mp hother with hearlier | hlast
      · exact halive other hearlier
      · rw [List.mem_singleton.mp hlast, hrunning]
        rfl
    | some exit =>
      exact Or.inr ⟨output, ⟨hrunning, returned history, 0, hreturned, halive⟩, rfl, exit, h.looked outputLimit exit hadmission⟩

theorem Over.concat (h : Over history output) : Over (history ++ [.returned output]) output := by
  refine ⟨h.exited, ?_⟩
  obtain ⟨before, count, hreturned, hbefore⟩ := h.returned
  refine ⟨before, count + 1, ?_, hbefore⟩
  rw [returned_concat, hreturned, List.replicate_succ', List.append_assoc, List.cons_append]

theorem Sound.again (h : Sound history entry) (hover : Over history output) : Sound (history ++ [.returned output]) entry := by
  have huntil : untilExit (returned (history ++ [.returned output])) = untilExit (returned history) := by
    rw [returned_concat]
    exact untilExit_append_of_exit ⟨output, hover.mem, hover.exited⟩ _
  obtain ⟨hempty, exit, hexit⟩ : entry.output = .empty ∧ ∃ exit, entry.exit = some (.ok exit) := by
    rcases h.phase with halive | ⟨_, _, hrest⟩
    · exact absurd halive hover.not_alive
    · exact hrest
  refine ⟨fun channel => ?_, fun channel => ?_, fun hclear => ?_, h.settled, h.looked, fun hfails => ?_, fun hmarked => ?_,
    fun hadmitted => absurd (h.admitted hadmitted) hover.not_alive, Or.inr ⟨output, hover.concat, hempty, exit, hexit⟩⟩
  · rw [bytesRead_silent rfl, h.decoder]
  · rw [hasEnded_silent rfl, h.ended]
  · rw [huntil] at hclear
    obtain ⟨held, hheld⟩ := h.held hclear
    have hnone : ∀ channel, held channel = [] := by
      intro channel
      rw [hempty] at hheld
      rw [← hheld.text rfl channel]
      cases channel <;> rfl
    refine ⟨held, fun channel => ?_, hheld.text, fun _ _ => hnone⟩
    rw [huntil, decodedText_returned]
    exact hheld.decoded channel
  · rw [any_append_fails, Happening.fails, Bool.or_false] at hfails
    exact h.failed hfails
  · rw [huntil]
    exact h.marked hmarked

end Entries

end Rika.ProcessRegistry
