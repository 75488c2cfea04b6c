import Rika.Substrings
import Rika.UnifiedDiff
import Rika.Utf8Stream

namespace Rika.EditTool

open Substrings Utf8Stream WideText

inductive FailureCategory
  | invalidInput
  | notFound
  | conflict
  | accessDenied
  | operation

inductive Outcome
  | known
  | unknown

inductive Recovery
  | never
  | afterChange
  | later

structure FailureDetails where
  category : FailureCategory
  message : String
  outcome : Outcome
  recovery : Recovery
  nextAction : String

inductive PlatformReason
  | permissionDenied
  | notFound
  | other

inductive Failure
  | runtime (details : FailureDetails)
  | platform (reason : PlatformReason)

inductive Node
  | file (bytes : List UInt8)
  | other

abbrev FileSystem (Target : Type) := Target → Option Node

/-- What a path is resolved to, and where the file system fails; a write that fails may leave other bytes. -/
structure Host (Target : Type) where
  resolveExisting : FileSystem Target → String → Except FailureDetails Target
  statFails : Target → Option PlatformReason
  readFails : Target → Option PlatformReason
  writeFails : Target → Option (PlatformReason × List UInt8)

structure Request where
  path : String
  oldStr : Units
  newStr : Units
  replaceAll : Option Bool

structure Result where
  text : String
  truncated : Bool
  diff : Option Units

def bounded (text : String) : Result := ⟨text, false, none⟩

def operationError : PlatformReason → FailureDetails
  | .permissionDenied =>
    ⟨.accessDenied, "The operating system denied access for this operation", .known, .afterChange,
      "Use an accessible path or correct the workspace permissions before retrying"⟩
  | .notFound | .other =>
    ⟨.operation, "The operation failed before producing a usable result", .known, .afterChange,
      "Review the input and retry only after correcting the likely cause"⟩

def notRegular (path : String) : FailureDetails :=
  ⟨.invalidInput, s!"Not a regular file: {path}", .known, .afterChange,
    "Target a regular file instead of a directory, device, or socket"⟩

def sameText : FailureDetails :=
  ⟨.invalidInput, "old_str and new_str must be different", .known, .afterChange,
    "Provide replacement text that differs from old_str"⟩

def emptyText : FailureDetails :=
  ⟨.invalidInput, "old_str must not be empty", .known, .afterChange, "Provide the exact existing text to replace"⟩

def missingText (path : String) : FailureDetails :=
  ⟨.conflict, "old_str was not found in the current file", .known, .afterChange,
    s!"Reread {path} and retry with the current exact text"⟩

def repeatedText (matchLines : List Nat) : FailureDetails :=
  let distinct := ", ".intercalate (matchLines.eraseDups.map toString)
  ⟨.conflict, s!"old_str is not unique in the current file: {matchLines.length} matches at lines {distinct}", .known, .afterChange,
    "Retry with more surrounding context, or set replace_all only when every match should change"⟩

variable {Target : Type}

section Files

variable (host : Host Target) (files : FileSystem Target)

def requireRegularFile (value : String) (target : Target) : Except FailureDetails Unit :=
  match host.statFails target, files target with
  | some reason, _ => .error (operationError reason)
  | none, none => .error (operationError .notFound)
  | none, some (.file _) => .ok ()
  | none, some .other => .error (notRegular value)

/-- The text of a file, without a byte order mark at its start and with replacements for what is no
UTF-8. -/
def readFileString (target : Target) : Except PlatformReason Units :=
  match host.readFails target, files target with
  | some reason, _ => .error reason
  | none, some (.file bytes) => .ok (units (decodeAll bytes))
  | none, none => .error .notFound
  | none, some .other => .error .other

/-- The bytes that a text is written as, with replacements for surrogates that stand alone. -/
def textBytes (text : Units) : List UInt8 := encode (scalars text)

def writeFileString [DecidableEq Target] (target : Target) (text : Units) : Except PlatformReason Unit × FileSystem Target :=
  match host.writeFails target with
  | some (reason, left) => (.error reason, Function.update files target (some (.file left)))
  | none => (.ok (), Function.update files target (some (.file (textBytes text))))

end Files

def replaceText (content oldText newText : Units) (replaceAll : Bool) : Units :=
  if replaceAll then newText.intercalate (split content oldText)
  else
    let index := (indexOf content oldText 0).getD 0
    content.take index ++ newText ++ content.drop (index + oldText.length)

/-- The lines of the matches from one on; `fuel` of them at most. -/
def matchLinesFrom (content oldStr : Units) : Nat → Option Nat → List Nat
  | 0, _ => []
  | _ + 1, none => []
  | fuel + 1, some matchIndex =>
    ((content.take matchIndex).splitOn UnifiedDiff.newline).length ::
      matchLinesFrom content oldStr fuel (indexOf content oldStr (matchIndex + oldStr.length))

def nextContent (request : Request) (content : Units) : Except FailureDetails Units :=
  if request.oldStr = request.newStr then .error sameText
  else if request.oldStr.length = 0 then .error emptyText
  else
    match indexOf content request.oldStr 0 with
    | none => .error (missingText request.path)
    | some first =>
      let second := indexOf content request.oldStr (first + request.oldStr.length)
      if second.isSome && request.replaceAll ≠ some true then
        .error (repeatedText (matchLinesFrom content request.oldStr content.length (some first)))
      else .ok (replaceText content request.oldStr request.newStr (request.replaceAll = some true))

def editResult (request : Request) (content next : Units) : Result :=
  let diff := UnifiedDiff.unifiedDiff request.path content next false
  { bounded s!"Successfully replaced text in {request.path}" with diff := diff }

def edit [DecidableEq Target] (host : Host Target) (files : FileSystem Target) (request : Request) :
    Except Failure Result × FileSystem Target :=
  match host.resolveExisting files request.path with
  | .error details => (.error (.runtime details), files)
  | .ok target =>
    match requireRegularFile host files request.path target with
    | .error details => (.error (.runtime details), files)
    | .ok () =>
      match readFileString host files target with
      | .error reason => (.error (.platform reason), files)
      | .ok content =>
        match nextContent request content with
        | .error details => (.error (.runtime details), files)
        | .ok next =>
          match writeFileString host files target next with
          | (.error reason, after) => (.error (.platform reason), after)
          | (.ok (), after) => (.ok (editResult request content next), after)

end Rika.EditTool
