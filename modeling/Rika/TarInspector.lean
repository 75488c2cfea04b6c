import Rika.TarEntries
import Rika.Utf8Stream

namespace Rika.Tar

open WideText (replacement)

section Fields

def blockSize : Nat := 512

def maximumMetadataBytes : Nat := 64 * 1024

def maximumTarBytes : Nat := maximumArchiveUncompressedBytes + 64 * 1024 * 1024

def maxSafeInteger : Nat := 9007199254740991

section

variable (bytes : List UInt8)

def subarray (start stop : Nat) : List UInt8 := (bytes.take stop).drop start

def decode : Text := Utf8Stream.decodeAll bytes

def field : Option Text :=
  let value := decode (bytes.takeWhile (· ≠ 0))
  if value.contains replacement then none else some value

def metadataField : Option Text :=
  let value := decode bytes
  if value.contains replacement || value.contains (Char.ofNat 0) then none else some value

end

/-- The blanks that `trim` removes. -/
def isBlank (c : Char) : Bool :=
  c.toNat ∈ [9, 10, 11, 12, 13, 32, 0xA0, 0x1680, 0x2028, 0x2029, 0x202F, 0x205F, 0x3000, 0xFEFF] ||
    0x2000 ≤ c.toNat && c.toNat ≤ 0x200A

def trim (text : Text) : Text := (text.dropWhile isBlank).rdropWhile isBlank

def number (base : Nat) (digits : Text) : Nat := digits.foldl (fun value c => value * base + (c.toNat - '0'.toNat)) 0

def parseTarNumber (bytes : List UInt8) : Option Nat :=
  let first := bytes.headD 0
  if first &&& 0x80 ≠ 0 then
    if first &&& 0x40 ≠ 0 then none
    else
      let value := bytes.tail.foldl (fun value byte => value * 256 + byte.toNat) (first &&& 0x3F).toNat
      if value ≤ maxSafeInteger then some value else none
  else
    let value := trim ((decode bytes).filter (· ≠ Char.ofNat 0))
    if value.isEmpty then some 0 else if value.all fun c => '0' ≤ c && c ≤ '7' then some (number 8 value) else none

def checksumOf (header : List UInt8) : Nat :=
  header.zipIdx.foldl (fun checksum entry => checksum + if 148 ≤ entry.2 ∧ entry.2 < 156 then 0x20 else entry.1.toNat) 0

def parseHeader (header : List UInt8) : Option Header := do
  let expectedChecksum ← parseTarNumber (subarray header 148 156)
  if checksumOf header ≠ expectedChecksum then none
  else
    let name ← field (subarray header 0 100)
    let directory ← field (subarray header 345 500)
    let linkName ← field (subarray header 157 257)
    let size ← parseTarNumber (subarray header 124 136)
    return {
      name := if directory.isEmpty then name else directory ++ '/' :: name
      linkName
      size
      type := Char.ofNat (header.getD 156 0).toNat }

end Fields

section Metadata

structure PaxRecord where
  stop : Nat
  key : Text
  value : Text

def invalidMetadata {α : Type} : Except WorkspaceArchiveError α := failure .archive "Workspace archive metadata is invalid"

def indexOf (bytes : List UInt8) (byte : UInt8) (start : Nat) : Option Nat :=
  ((bytes.drop start).findIdx? (· = byte)).map (start + ·)

/-- `/^[1-9][0-9]*$/` -/
def isPositive : Text → Bool
  | [] => false
  | first :: rest => '1' ≤ first && first ≤ '9' && rest.all Char.isDigit

def parsePaxRecord (bytes : List UInt8) (offset : Nat) : Except WorkspaceArchiveError PaxRecord :=
  match indexOf bytes 0x20 offset with
  | none => invalidMetadata
  | some space =>
    let lengthText := decode (subarray bytes offset space)
    let length := number 10 lengthText
    let stop := offset + length
    if !isPositive lengthText then invalidMetadata
    else if maxSafeInteger < length || bytes.length < stop || bytes[stop - 1]? ≠ some 0x0A then invalidMetadata
    else
      match indexOf bytes 0x3D (space + 1) with
      | none => invalidMetadata
      | some equals =>
        if stop - 1 ≤ equals then invalidMetadata
        else
          match metadataField (subarray bytes (space + 1) equals), metadataField (subarray bytes (equals + 1) (stop - 1)) with
          | some key, some value => .ok ⟨stop, key, value⟩
          | _, _ => invalidMetadata

def parsePaxSize (value : Text) : Except WorkspaceArchiveError Nat :=
  if value ≠ ['0'] ∧ isPositive value = false then invalidMetadata
  else if number 10 value ≤ maxSafeInteger then .ok (number 10 value)
  else failure .size "Workspace archive expands beyond the allowed size"

def isSparse (record : PaxRecord) : Bool :=
  startsWith record.key "GNU.sparse.".toList || record.key = "SCHILY.realsize".toList ||
    (record.key = "SCHILY.filetype".toList && record.value = "sparse".toList)

/-- The records from an offset on, of which each takes a byte at least; `fuel` of them at most. -/
def parsePaxFrom (bytes : List UInt8) : Nat → Nat → PaxValues → Except WorkspaceArchiveError PaxValues
  | 0, _, values => .ok values
  | fuel + 1, offset, values =>
    if bytes.length ≤ offset then .ok values
    else do
      let record ← parsePaxRecord bytes offset
      if isSparse record then failure .archive "Workspace archive sparse entries are not allowed"
      else
        let size ← if record.key = "size".toList then (parsePaxSize record.value).map some else .ok values.size
        parsePaxFrom bytes fuel record.stop {
          path := if record.key = "path".toList then some record.value else values.path
          linkpath := if record.key = "linkpath".toList then some record.value else values.linkpath
          size }

def parsePax (bytes : List UInt8) : Except WorkspaceArchiveError PaxValues := parsePaxFrom bytes bytes.length 0 {}

def metadataText (bytes : List UInt8) : Option Text :=
  (field bytes).map fun value => value.rdropWhile fun c => c = Char.ofNat 0 || c = '\n'

inductive MetadataKind
  | global
  | longLink
  | longPath
  | pax

def metadataKind (type : Char) : Option MetadataKind :=
  if type = 'g' then some .global
  else if type = 'K' then some .longLink
  else if type = 'L' then some .longPath
  else if type = 'x' then some .pax
  else none

end Metadata

section Inspector

/-- The bytes of a header that is not complete, the data that is to come, with the bytes of metadata that were read, and what
was accepted. -/
structure Machine where
  header : List UInt8
  room : header.length < blockSize
  registry : Registry
  dataRemaining : Nat
  contentRemaining : Nat
  metadata : Option (MetadataKind × List UInt8)
  pending : Pending
  zeroBlocks : Nat
  ended : Bool

def Machine.start : Machine := ⟨[], Nat.succ_pos 511, {}, 0, 0, none, {}, 0, false⟩

def textOf (bytes : List UInt8) : Except WorkspaceArchiveError Text :=
  match metadataText bytes with
  | none => invalidMetadata
  | some value => if value.isEmpty then invalidMetadata else .ok value

def Machine.finishMetadata (machine : Machine) : Except WorkspaceArchiveError Machine :=
  match machine.metadata with
  | none => .ok machine
  | some (kind, bytes) => do
    let pending ←
      match kind with
      | .pax => (parsePax bytes).map fun parsed => { machine.pending with pax := some parsed }
      | .global => do
        let parsed ← parsePax bytes
        if parsed.path.isSome || parsed.linkpath.isSome || parsed.size.isSome then
          failure .archive "Workspace archive global path metadata is not allowed"
        else .ok machine.pending
      | .longLink => (textOf bytes).map fun value => { machine.pending with longLink := some value }
      | .longPath => (textOf bytes).map fun value => { machine.pending with longPath := some value }
    return { machine with pending, metadata := none }

def Machine.beginData (machine : Machine) (size : Nat) (kind : Option MetadataKind) : Machine :=
  { machine with
    dataRemaining := (size + (blockSize - 1)) / blockSize * blockSize
    contentRemaining := size
    metadata := kind.map fun kind => (kind, []) }

def Pending.isSome (pending : Pending) : Bool := pending.pax.isSome || pending.longPath.isSome || pending.longLink.isSome

def Machine.acceptHeader (machine : Machine) (header : List UInt8) : Except WorkspaceArchiveError Machine :=
  if header.all (· = 0) then
    .ok { machine with zeroBlocks := machine.zeroBlocks + 1, ended := machine.ended || machine.zeroBlocks + 1 = 2 }
  else if machine.zeroBlocks ≠ 0 then failure .archive "Workspace archive termination is invalid"
  else
    match parseHeader header with
    | none => failure .archive "Workspace archive header is invalid"
    | some parsed =>
      match metadataKind parsed.type with
      | some kind =>
        if machine.pending.isSome then failure .archive "Workspace archive metadata chain is invalid"
        else if parsed.size = 0 || maximumMetadataBytes < parsed.size then
          failure .size "Workspace archive metadata exceeds the allowed size"
        else .ok (machine.beginData parsed.size (some kind))
      | none => do
        let registry ← register machine.registry machine.pending parsed
        return { machine with registry, pending := {} }.beginData parsed.size none

def Machine.data (machine : Machine) (bytes : List UInt8) : Machine :=
  { machine with
    metadata := machine.metadata.map fun metadata => (metadata.1, metadata.2 ++ bytes.take machine.contentRemaining)
    contentRemaining := machine.contentRemaining - bytes.length
    dataRemaining := machine.dataRemaining - bytes.length }

def Machine.readData (machine : Machine) (bytes : List UInt8) : Except WorkspaceArchiveError Machine :=
  if (machine.data bytes).dataRemaining = 0 then (machine.data bytes).finishMetadata else .ok (machine.data bytes)

def Machine.readHeader (machine : Machine) (bytes : List UInt8) : Except WorkspaceArchiveError Machine :=
  if room : (machine.header ++ bytes).length < blockSize then .ok { machine with header := machine.header ++ bytes, room }
  else { machine with header := [], room := Nat.succ_pos 511 }.acceptHeader (machine.header ++ bytes)

/-- The loop of `feed` over what is left of a chunk. -/
def Machine.read (machine : Machine) (chunk : List UInt8) : Except WorkspaceArchiveError Machine :=
  if _ : chunk = [] then .ok machine
  else if machine.ended then
    if chunk.any (· ≠ 0) then failure .archive "Workspace archive contains data after its terminator" else .ok machine
  else if _ : 0 < machine.dataRemaining then
    let length := min machine.dataRemaining chunk.length
    (machine.readData (chunk.take length)).bind fun next => next.read (chunk.drop length)
  else
    let length := min (blockSize - machine.header.length) chunk.length
    (machine.readHeader (chunk.take length)).bind fun next => next.read (chunk.drop length)
termination_by chunk.length
decreasing_by
  · have hpos := List.length_pos_of_ne_nil ‹¬chunk = []›
    rw [List.length_drop]
    omega
  · have hpos := List.length_pos_of_ne_nil ‹¬chunk = []›
    have hroom := machine.room
    rw [List.length_drop]
    omega

structure Inspector where
  machine : Machine
  tarBytes : Nat

def Inspector.feed (inspector : Inspector) (chunk : List UInt8) : Except WorkspaceArchiveError Inspector :=
  let tarBytes := inspector.tarBytes + chunk.length
  if maximumTarBytes < tarBytes then failure .size "Workspace archive expands beyond the allowed size"
  else (inspector.machine.read chunk).map fun machine => ⟨machine, tarBytes⟩

def Inspector.finish (inspector : Inspector) : Except WorkspaceArchiveError Inspector :=
  let machine := inspector.machine
  if !machine.ended || machine.header.length ≠ 0 || machine.dataRemaining ≠ 0 || machine.metadata.isSome || machine.pending.isSome then
    failure .archive "Workspace archive is truncated"
  else
    match validateLinks machine.registry.entries with
    | some error => .error error
    | none => .ok inspector

/-- The chunks are fed until one is refused, and the inspection is finished. -/
def inspect (chunks : List (List UInt8)) : Except WorkspaceArchiveError Inspector := do
  let inspector ← chunks.foldlM Inspector.feed ⟨.start, 0⟩
  inspector.finish

end Inspector

section Chunks

variable {machine : Machine} {bytes more : List UInt8}

theorem read_nil (machine : Machine) : machine.read [] = .ok machine := by
  rw [Machine.read, dif_pos rfl]

theorem read_ended (h : machine.ended = true) : machine.read bytes =
    if bytes.any (· ≠ 0) then failure .archive "Workspace archive contains data after its terminator" else .ok machine := by
  rw [Machine.read]
  by_cases hbytes : bytes = []
  · rw [dif_pos hbytes, hbytes]
    rfl
  · rw [dif_neg hbytes, if_pos h]

theorem read_data (h : machine.ended = false) (hdata : 0 < machine.dataRemaining) (hbytes : bytes ≠ []) : machine.read bytes =
    (machine.readData (bytes.take machine.dataRemaining)).bind fun next => next.read (bytes.drop machine.dataRemaining) := by
  rw [Machine.read, dif_neg hbytes, if_neg (by rw [h]; exact Bool.false_ne_true), dif_pos hdata]
  dsimp only
  rcases Nat.le_total machine.dataRemaining bytes.length with hle | hle
  · rw [Nat.min_eq_left hle]
  · rw [Nat.min_eq_right hle, List.take_of_length_le hle, List.drop_eq_nil_of_le hle, List.take_length, List.drop_length]

theorem read_header (h : machine.ended = false) (hdata : machine.dataRemaining = 0) (hbytes : bytes ≠ []) : machine.read bytes =
    (machine.readHeader (bytes.take (blockSize - machine.header.length))).bind fun next =>
      next.read (bytes.drop (blockSize - machine.header.length)) := by
  rw [Machine.read, dif_neg hbytes, if_neg (by rw [h]; exact Bool.false_ne_true), dif_neg (by rw [hdata]; exact Nat.lt_irrefl 0)]
  dsimp only
  rcases Nat.le_total (blockSize - machine.header.length) bytes.length with hle | hle
  · rw [Nat.min_eq_left hle]
  · rw [Nat.min_eq_right hle, List.take_of_length_le hle, List.drop_eq_nil_of_le hle, List.take_length, List.drop_length]

theorem data_append (bytes more : List UInt8) : (machine.data bytes).data more = machine.data (bytes ++ more) := by
  have hmetadata : (machine.data bytes).metadata.map (fun metadata => (metadata.1, metadata.2 ++ more.take (machine.contentRemaining - bytes.length))) =
      machine.metadata.map fun metadata => (metadata.1, metadata.2 ++ (bytes ++ more).take machine.contentRemaining) := by
    rw [Machine.data, Option.map_map, List.take_append]
    refine congrArg (Option.map · machine.metadata) (funext fun metadata => ?_)
    exact congrArg (Prod.mk metadata.1) (List.append_assoc _ _ _)
  have hsub : ∀ n, n - bytes.length - more.length = n - (bytes ++ more).length := by
    intro n
    rw [List.length_append, Nat.sub_sub]
  rw [Machine.data, Machine.data, Machine.mk.injEq]
  exact ⟨rfl, rfl, hsub _, hsub _, hmetadata, rfl, rfl, rfl⟩

theorem readData_part (h : bytes.length < machine.dataRemaining) :
    machine.readData bytes = .ok (machine.data bytes) ∧ (machine.data bytes).readData more = machine.readData (bytes ++ more) := by
  constructor
  · have hleft : (machine.data bytes).dataRemaining ≠ 0 := Nat.sub_ne_zero_of_lt h
    rw [Machine.readData, if_neg hleft]
  · rw [Machine.readData, Machine.readData, data_append]

theorem readHeader_part (h : bytes.length < blockSize - machine.header.length) : ∃ next : Machine,
    machine.readHeader bytes = .ok next ∧ next.ended = machine.ended ∧ next.dataRemaining = machine.dataRemaining ∧
      next.header = machine.header ++ bytes ∧ next.readHeader more = machine.readHeader (bytes ++ more) := by
  have hroom : (machine.header ++ bytes).length < blockSize := by
    rw [List.length_append]
    omega
  refine ⟨{ machine with header := machine.header ++ bytes, room := hroom }, dif_pos hroom, rfl, rfl, rfl, ?_⟩
  rw [Machine.readHeader, Machine.readHeader]
  simp only [List.append_assoc]

theorem read_append (machine : Machine) (bytes more : List UInt8) :
    machine.read (bytes ++ more) = (machine.read bytes).bind fun next => next.read more := by
  induction hlength : bytes.length using Nat.strong_induction_on generalizing machine bytes with
  | _ length ih =>
    by_cases hbytes : bytes = []
    · rw [hbytes, read_nil]
      rfl
    by_cases hmore : more = []
    · rw [hmore, List.append_nil]
      cases machine.read bytes with
      | error error => rfl
      | ok next => exact (read_nil next).symm
    have happend : bytes ++ more ≠ [] := List.append_ne_nil_of_left_ne_nil hbytes more
    have hpos := List.length_pos_of_ne_nil hbytes
    cases hended : machine.ended with
    | true =>
      rw [read_ended hended, read_ended hended, List.any_append]
      by_cases hzero : bytes.any (· ≠ 0) = true
      · rw [if_pos hzero, hzero, Bool.true_or, if_pos rfl]
        rfl
      · rw [if_neg hzero, Bool.eq_false_iff.mpr hzero, Bool.false_or]
        exact (read_ended hended).symm
    | false =>
      by_cases hdata : 0 < machine.dataRemaining
      · rw [read_data hended hdata happend, read_data hended hdata hbytes]
        rcases Nat.lt_or_ge bytes.length machine.dataRemaining with hlt | hle
        · -- the data goes on in the second part
          obtain ⟨hpart, hrest⟩ := @readData_part machine bytes (more.take (machine.dataRemaining - bytes.length)) hlt
          have hleft : 0 < (machine.data bytes).dataRemaining := Nat.sub_pos_of_lt hlt
          have hopen : (machine.data bytes).ended = false := hended
          rw [List.take_of_length_le (Nat.le_of_lt hlt), List.drop_eq_nil_of_le (Nat.le_of_lt hlt), List.take_append,
            List.drop_append, List.take_of_length_le (Nat.le_of_lt hlt), List.drop_eq_nil_of_le (Nat.le_of_lt hlt), hpart]
          change _ = ((machine.data bytes).read []).bind _
          rw [read_nil, ← hrest]
          exact (read_data hopen hleft hmore).symm
        · rw [List.take_append_of_le_length hle, List.drop_append_of_le_length hle]
          cases machine.readData (bytes.take machine.dataRemaining) with
          | error error => rfl
          | ok next =>
            refine ih (bytes.drop machine.dataRemaining).length ?_ next _ rfl
            rw [List.length_drop]
            omega
      · have hzero := Nat.eq_zero_of_not_pos hdata
        have hroom := machine.room
        rw [read_header hended hzero happend, read_header hended hzero hbytes]
        rcases Nat.lt_or_ge bytes.length (blockSize - machine.header.length) with hlt | hle
        · -- the header goes on in the second part
          obtain ⟨next, hpart, hnext, hremaining, hheader, hrest⟩ :=
            @readHeader_part machine bytes (more.take (blockSize - machine.header.length - bytes.length)) hlt
          have hlengths : blockSize - next.header.length = blockSize - machine.header.length - bytes.length := by
            rw [hheader, List.length_append, Nat.sub_sub]
          rw [List.take_of_length_le (Nat.le_of_lt hlt), List.drop_eq_nil_of_le (Nat.le_of_lt hlt), List.take_append,
            List.drop_append, List.take_of_length_le (Nat.le_of_lt hlt), List.drop_eq_nil_of_le (Nat.le_of_lt hlt), hpart]
          change _ = (next.read []).bind _
          rw [read_nil, ← hrest, ← hlengths]
          exact (read_header (hnext.trans hended) (hremaining.trans hzero) hmore).symm
        · rw [List.take_append_of_le_length hle, List.drop_append_of_le_length hle]
          cases machine.readHeader (bytes.take (blockSize - machine.header.length)) with
          | error error => rfl
          | ok next =>
            refine ih (bytes.drop (blockSize - machine.header.length)).length ?_ next _ rfl
            rw [List.length_drop]
            omega

theorem feed_chunks (chunks : List (List UInt8)) {inspector : Inspector} (h : inspector.tarBytes ≤ maximumTarBytes) :
    (chunks.foldlM Inspector.feed inspector).toOption =
      if maximumTarBytes < inspector.tarBytes + chunks.flatten.length then none
      else ((inspector.machine.read chunks.flatten).map fun machine =>
        (⟨machine, inspector.tarBytes + chunks.flatten.length⟩ : Inspector)).toOption := by
  induction chunks generalizing inspector with
  | nil =>
    rw [List.flatten_nil, List.length_nil, Nat.add_zero, if_neg (Nat.not_lt.mpr h), read_nil]
    rfl
  | cons chunk chunks ih =>
    rw [List.foldlM_cons, Inspector.feed, List.flatten_cons, List.length_append, ← Nat.add_assoc]
    by_cases hlimit : maximumTarBytes < inspector.tarBytes + chunk.length
    · rw [if_pos hlimit, if_pos (Nat.lt_of_lt_of_le hlimit (Nat.le_add_right _ _))]
      rfl
    · rw [if_neg hlimit, read_append]
      cases inspector.machine.read chunk with
      | error error =>
        split
        · rfl
        · rfl
      | ok next => exact @ih ⟨next, inspector.tarBytes + chunk.length⟩ (Nat.le_of_not_lt hlimit)

/-- However an archive is cut into chunks, it is accepted with the same entries and sizes, or rejected. -/
theorem inspect_of_flatten {chunks others : List (List UInt8)} (h : chunks.flatten = others.flatten) :
    (inspect chunks).toOption = (inspect others).toOption := by
  have hbind : ∀ chunks, (inspect chunks).toOption =
      (chunks.foldlM Inspector.feed ⟨.start, 0⟩).toOption.bind fun inspector => inspector.finish.toOption := by
    intro chunks
    rw [inspect]
    cases chunks.foldlM Inspector.feed ⟨.start, 0⟩ with
    | error error => rfl
    | ok inspector => rfl
  rw [hbind, hbind, feed_chunks chunks (Nat.zero_le _), feed_chunks others (Nat.zero_le _), h]

theorem inspect_of_flatten_sample : (inspect [List.replicate 512 0, [], List.replicate 512 0]).toOption =
    (inspect [List.replicate 1000 0, List.replicate 24 0]).toOption :=
  inspect_of_flatten (by decide +kernel)

end Chunks

end Rika.Tar
