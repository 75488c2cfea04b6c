import Rika.Base64Url
import Rika.KeysetPages
import Rika.Table
import Rika.TranscriptUnit

namespace Rika.ThreadListing

structure TextOrder extends Collation where
  strict : ∀ {left right}, compare left right = .eq → left = right

inductive Target
  | runner
  | orb

/-- A row of `rikaThreads`, whose checks keep the flags 0 or 1. -/
structure ThreadRow where
  id : String
  ownerId : String
  title : String
  pinned : Bool
  archived : Bool
  updatedAt : Finite

/-- A row of `rikaHostedThreads`. -/
structure HostedRow where
  id : String
  ownerId : String
  executorKind : Target
  projectId : Option String

structure Database where
  threads : Table ThreadRow.id
  hosted : Table HostedRow.id
  deletionOutbox : List String

structure ProductThreadMetadata where
  id : String
  title : String
  target : Target
  updatedAt : Finite
  pinned : Bool

structure Cursor where
  pinned : Bool
  updatedAt : Finite
  threadId : String
deriving DecidableEq

/-- A list of a product repository; a project of `none` asks for the threads of none. -/
structure MetadataListInput where
  ownerId : String
  limit : Nat
  cursor : Option Cursor
  projectId : Option (Option String)

structure MetadataPage where
  threads : List ProductThreadMetadata
  nextCursor : Option Cursor

variable (order : TextOrder) (db : Database)

abbrev JoinedRow := ThreadRow × HostedRow

def metadataRow (row : JoinedRow) : ProductThreadMetadata :=
  ⟨row.1.id, row.1.title, row.2.executorKind, row.1.updatedAt, row.1.pinned⟩

def cursorOf (row : JoinedRow) : Cursor := ⟨row.1.pinned, row.1.updatedAt, row.1.id⟩

def joined : List JoinedRow :=
  db.threads.rows.filterMap fun thread =>
    (db.hosted.rows.find? fun hosted => hosted.id = thread.id && hosted.ownerId = thread.ownerId).map (thread, ·)

def listed (ownerId : String) (projectId : Option (Option String)) : List JoinedRow :=
  (joined db).filter fun row =>
    row.1.ownerId = ownerId && !row.1.archived && !db.deletionOutbox.contains row.1.id &&
      projectId.all fun projectId => row.2.projectId = projectId

def afterCursor (cursor : Cursor) (row : JoinedRow) : Bool :=
  compare row.1.pinned cursor.pinned = .lt ||
    row.1.pinned = cursor.pinned && compare row.1.updatedAt cursor.updatedAt = .lt ||
      row.1.pinned = cursor.pinned && row.1.updatedAt = cursor.updatedAt && order.compare row.1.id cursor.threadId = .gt

def compareRows (left right : JoinedRow) : Ordering :=
  (compare right.1.pinned left.1.pinned).then
    ((compare right.1.updatedAt left.1.updatedAt).then (order.compare left.1.id right.1.id))

def threadMetadataList (input : MetadataListInput) : MetadataPage :=
  let limit := min (max input.limit 1) 100
  let rows := (StableSort.toSorted (compareRows order)
    ((listed db input.ownerId input.projectId).filter fun row => input.cursor.all fun cursor => afterCursor order cursor row)).take
      (limit + 1)
  let threads := rows.take limit
  { threads := threads.map metadataRow
    nextCursor := if limit < rows.length then threads.getLast?.map cursorOf else none }

structure ThreadMetadata where
  id : String
  title : String
  target : Target
  sessionId : String
  updatedAt : String

structure ThreadPage where
  threads : List ThreadMetadata
  nextCursor : Option String

inductive ProductRouteError
  | invalid (message : String)

/-- What the routes call: texts of cursors, sessions and times, and whether a principal may observe a thread. -/
structure Services where
  encodeCursor : Cursor → String
  decodeCursor : String → Option Cursor
  rootSessionId : String → String → Target → String
  formatIso : Finite → String
  allowed : ThreadMetadata → Bool

structure ReaderInput where
  ownerId : String
  cursor : Option String
  limit : Nat
  projectId : Option String

variable (services : Services)

def metadata (ownerId : String) (value : ProductThreadMetadata) : ThreadMetadata where
  id := value.id
  title := value.title
  target := value.target
  sessionId := services.rootSessionId ownerId value.id value.target
  updatedAt := services.formatIso value.updatedAt

/-- `list` of the reader. -/
def list (request : ReaderInput) : Except ProductRouteError ThreadPage :=
  let cursor := request.cursor.bind services.decodeCursor
  if request.cursor.isSome ∧ cursor = none then .error (.invalid "Thread cursor is invalid")
  else
    let page := threadMetadataList order db ⟨request.ownerId, request.limit, cursor, request.projectId.map some⟩
    .ok ⟨page.threads.map (metadata services request.ownerId), page.nextCursor.map services.encodeCursor⟩

structure ListThreadsInput where
  ownerId : String
  projectId : Option String
  limit : Nat

/-- The loop of `listThreads` over so many store pages more. -/
def fill (request : ListThreadsInput) : Nat → List ThreadMetadata → Option String → Option String →
    Except ProductRouteError ThreadPage
  | 0, threads, _, nextCursor => .ok ⟨threads, nextCursor⟩
  | pages + 1, threads, cursor, nextCursor =>
    if threads.length < request.limit then
      match list order db services ⟨request.ownerId, cursor, request.limit - threads.length, request.projectId⟩ with
      | .error error => .error error
      | .ok page =>
        let threads' := threads ++ (page.threads.filter services.allowed).take (request.limit - threads.length)
        if page.nextCursor = none then .ok ⟨threads', page.nextCursor⟩
        else if page.nextCursor = cursor then .ok ⟨threads', page.nextCursor⟩
        else fill request pages threads' page.nextCursor page.nextCursor
    else .ok ⟨threads, nextCursor⟩

def listThreads (request : ListThreadsInput) (cursor : Option String) : Except ProductRouteError ThreadPage :=
  fill order db services request 4 [] cursor none

section Rows

variable {order db services}

instance compareRows_trans (order : TextOrder) : Std.TransCmp (compareRows order) :=
  inferInstanceAs (Std.TransCmp (compareLex (fun left right : JoinedRow => compare right.1.pinned left.1.pinned)
    (compareLex (fun left right => compare right.1.updatedAt left.1.updatedAt)
      fun left right => order.compare left.1.id right.1.id)))

variable {row left right : JoinedRow} {cursor : Option Cursor} {rest : List JoinedRow} {limit : Nat}

theorem mem_joined (h : row ∈ joined db) : row.1 ∈ db.threads.rows ∧
      db.hosted.rows.find? (fun hosted => hosted.id = row.1.id && hosted.ownerId = row.1.ownerId) = some row.2 := by
  obtain ⟨thread, hthread, hrow⟩ := List.mem_filterMap.mp h
  obtain ⟨hosted, hhosted, rfl⟩ := Option.map_eq_some_iff.mp hrow
  exact ⟨hthread, hhosted⟩

theorem eq_of_id_eq (hleft : left ∈ joined db) (hright : right ∈ joined db) (h : left.1.id = right.1.id) : left = right := by
  obtain ⟨hleftRow, hleftHosted⟩ := mem_joined hleft
  obtain ⟨hrightRow, hrightHosted⟩ := mem_joined hright
  have hthread : left.1 = right.1 := db.threads.eq_of_key_eq hleftRow hrightRow h
  rw [hthread, hrightHosted] at hleftHosted
  exact Prod.ext hthread (Option.some.inj hleftHosted).symm

theorem nodup_joined : (joined db).Nodup := by
  refine List.Nodup.filterMap ?_ (List.Nodup.of_map _ db.threads.unique)
  intro thread other row hrow hother
  obtain ⟨hosted, -, rfl⟩ := Option.map_eq_some_iff.mp (Option.mem_def.mp hrow)
  obtain ⟨otherHosted, -, hsame⟩ := Option.map_eq_some_iff.mp (Option.mem_def.mp hother)
  exact (congrArg Prod.fst hsame).symm

theorem afterCursor_cursorOf (row other : JoinedRow) :
    afterCursor order (cursorOf row) other = decide (compareRows order row other = .lt) := by
  have hid : order.compare other.1.id row.1.id = .gt ↔ order.compare row.1.id other.1.id = .lt :=
    Std.OrientedCmp.gt_iff_lt
  have hpinned : compare other.1.pinned row.1.pinned = .eq ↔ other.1.pinned = row.1.pinned := compare_eq_iff_eq
  have hupdated : compare other.1.updatedAt row.1.updatedAt = .eq ↔ other.1.updatedAt = row.1.updatedAt := compare_eq_iff_eq
  rw [Bool.eq_iff_iff, decide_eq_true_iff, afterCursor, Bool.or_eq_true, Bool.or_eq_true, Bool.and_eq_true, Bool.and_eq_true,
    Bool.and_eq_true, decide_eq_true_iff, decide_eq_true_iff, decide_eq_true_iff, decide_eq_true_iff, decide_eq_true_iff]
  simp only [cursorOf, hid, compareRows, Ordering.then_eq_lt, hpinned, hupdated, and_assoc, and_or_left, or_assoc]

variable {ownerId : String} {projectId : Option (Option String)}

theorem mem_joined_of_mem_listed (h : row ∈ listed db ownerId projectId) : row ∈ joined db :=
  (List.mem_filter.mp h).1

theorem eq_of_compareRows (hleft : left ∈ listed db ownerId projectId)
    (hright : right ∈ listed db ownerId projectId) (h : compareRows order left right = .eq) : left = right := by
  rw [compareRows, Ordering.then_eq_eq, Ordering.then_eq_eq] at h
  exact eq_of_id_eq (mem_joined_of_mem_listed hleft) (mem_joined_of_mem_listed hright) (order.strict h.2.2)

variable (order db ownerId projectId) in
def ordered : List JoinedRow := StableSort.toSorted (compareRows order) (listed db ownerId projectId)

theorem ascending_ordered : KeysetPages.Ascending (compareRows order) (ordered order db ownerId projectId) :=
  KeysetPages.ascending_toSorted (nodup_joined.filter _) fun _ hleft _ hright => eq_of_compareRows hleft hright

variable (order db ownerId projectId) in
def Leaves (cursor : Option Cursor) (rest : List JoinedRow) : Prop :=
  match cursor with
  | none => rest = ordered order db ownerId projectId
  | some cursor =>
    ∃ taken last, ordered order db ownerId projectId = taken ++ rest ∧ taken.getLast? = some last ∧ cursorOf last = cursor

theorem Leaves.suffix (h : Leaves order db ownerId projectId cursor rest) :
    ∃ taken, ordered order db ownerId projectId = taken ++ rest := by
  cases cursor with
  | none => exact ⟨[], h.symm⟩
  | some cursor =>
    obtain ⟨taken, last, hsplit, -, -⟩ := h
    exact ⟨taken, hsplit⟩

theorem Leaves.select {cursor : Option Cursor} {rest : List JoinedRow} (h : Leaves order db ownerId projectId cursor rest) :
    StableSort.toSorted (compareRows order)
      ((listed db ownerId projectId).filter fun row => cursor.all fun cursor => afterCursor order cursor row) = rest := by
  have hfilter (p : JoinedRow → Bool) : StableSort.toSorted (compareRows order) ((listed db ownerId projectId).filter p) =
      (ordered order db ownerId projectId).filter p :=
    StableSort.toSorted_filter p fun _ hleft _ hright => eq_of_compareRows hleft hright
  rw [hfilter]
  cases cursor with
  | none =>
    rw [Leaves] at h
    simp [h]
  | some cursor =>
    obtain ⟨taken, last, hsplit, hlast, rfl⟩ := h
    have hascending : KeysetPages.Ascending (compareRows order) (ordered order db ownerId projectId) := ascending_ordered
    simp only [Option.all_some, afterCursor_cursorOf]
    rw [hsplit] at hascending ⊢
    exact KeysetPages.filter_after hascending hlast

theorem Leaves.drop (h : Leaves order db ownerId projectId cursor rest) {last : JoinedRow}
    (hlast : (rest.take limit).getLast? = some last) :
    Leaves order db ownerId projectId (some (cursorOf last)) (rest.drop limit) := by
  obtain ⟨taken, hsplit⟩ := h.suffix
  refine ⟨taken ++ rest.take limit, last, ?_, ?_, rfl⟩
  · rw [hsplit, List.append_assoc, List.take_append_drop]
  · rw [List.getLast?_append, hlast, Option.some_or]

theorem threadMetadataList_eq (h : Leaves order db ownerId projectId cursor rest) (hpos : 1 ≤ limit) (hle : limit ≤ 100) :
    threadMetadataList order db ⟨ownerId, limit, cursor, projectId⟩ =
      ⟨(rest.take limit).map metadataRow, if limit < rest.length then (rest.take limit).getLast?.map cursorOf else none⟩ := by
  have hlimit : min (max limit 1) 100 = limit := by omega
  rw [threadMetadataList]
  dsimp only
  rw [h.select, hlimit, List.take_take, min_eq_left (Nat.le_succ limit), List.length_take]
  congr 1
  by_cases hmore : limit < rest.length
  · rw [if_pos hmore, if_pos (by omega)]
  · rw [if_neg hmore, if_neg (by omega)]

end Rows

section Lists

variable {order db services} {request : ListThreadsInput}

variable (order db request) in
def requested : List JoinedRow := listed db request.ownerId (request.projectId.map some)

variable (services request) in
def shown (row : JoinedRow) : ThreadMetadata := metadata services request.ownerId (metadataRow row)

variable (services request) in
def observed (rows : List JoinedRow) : List ThreadMetadata := (rows.map (shown services request)).filter services.allowed

variable (db services request) in
def ReadsBack : Prop :=
  ∀ row ∈ requested db request, services.decodeCursor (services.encodeCursor (cursorOf row)) = some (cursorOf row)

variable (order db services request) in
def Follows (cursor : Option String) (rest : List JoinedRow) : Prop :=
  ∃ decoded, decoded.map services.encodeCursor = cursor ∧ Leaves order db request.ownerId (request.projectId.map some) decoded rest

variable {rest : List JoinedRow} {row : JoinedRow} {cursor : Option String} {threads : List ThreadMetadata}

theorem mem_requested_of_ordered {taken : List JoinedRow}
    (h : ordered order db request.ownerId (request.projectId.map some) = taken ++ rest) (hrow : row ∈ taken ∨ row ∈ rest) :
    row ∈ requested db request := by
  rw [requested, ← StableSort.mem_toSorted (compareRows order), ← ordered, h]
  exact List.mem_append.mpr hrow

section

variable (hcodec : ReadsBack db services request)

include hcodec

theorem Follows.bind (h : Follows order db services request cursor rest) :
    Leaves order db request.ownerId (request.projectId.map some) (cursor.bind services.decodeCursor) rest ∧
      (cursor.isSome → cursor.bind services.decodeCursor ≠ none) := by
  obtain ⟨decoded, rfl, hleaves⟩ := h
  cases decoded with
  | none => exact ⟨hleaves, fun h => absurd h Bool.false_ne_true⟩
  | some decoded =>
    obtain ⟨taken, last, hsplit, hlast, hcursor⟩ := hleaves
    have hread := hcodec last (mem_requested_of_ordered hsplit (.inl (List.mem_of_getLast? hlast)))
    rw [hcursor] at hread
    rw [Option.map_some, Option.bind_some, hread]
    exact ⟨⟨taken, last, hsplit, hlast, hcursor⟩, fun _ => Option.some_ne_none _⟩

theorem Leaves.cursor_ne
    (h : Leaves order db request.ownerId (request.projectId.map some) (cursor.bind services.decodeCursor) rest)
    (hrow : row ∈ rest) : cursor ≠ some (services.encodeCursor (cursorOf row)) := by
  rintro rfl
  obtain ⟨taken, hsplit⟩ := h.suffix
  rw [Option.bind_some, hcodec row (mem_requested_of_ordered hsplit (.inr hrow))] at h
  obtain ⟨before, last, hbefore, hend, hsame⟩ := h
  have hlast : last ∈ before := List.mem_of_getLast? hend
  have hlisted := mem_requested_of_ordered hbefore (.inl hlast)
  have hlistedRow := mem_requested_of_ordered hbefore (.inr hrow)
  have heq : last = row := eq_of_id_eq (mem_joined_of_mem_listed hlisted) (mem_joined_of_mem_listed hlistedRow)
    (congrArg Cursor.threadId hsame)
  have hascending : KeysetPages.Ascending (compareRows order) (ordered order db request.ownerId (request.projectId.map some)) :=
    ascending_ordered
  rw [hbefore] at hascending
  have hlt := (List.pairwise_append.mp hascending).2.2 last hlast row hrow
  rw [heq] at hlt
  exact KeysetPages.not_lt_self row hlt

theorem list_cases {limit : Nat}
    (h : Follows order db services request cursor rest) (hpos : 1 ≤ limit) (hle : limit ≤ 100) :
    ∃ next, list order db services ⟨request.ownerId, cursor, limit, request.projectId⟩ =
        .ok ⟨(rest.take limit).map (shown services request), next⟩ ∧
      (rest.length ≤ limit ∧ next = none ∨
        limit < rest.length ∧ next ≠ cursor ∧ ∃ text, next = some text ∧
          Follows order db services request (some text) (rest.drop limit)) := by
  obtain ⟨hleaves, hsome⟩ := h.bind hcodec
  have hvalid : ¬(cursor.isSome = true ∧ cursor.bind services.decodeCursor = none) := fun h => hsome h.1 h.2
  refine ⟨(if limit < rest.length then (rest.take limit).getLast?.map cursorOf else none).map services.encodeCursor, ?_, ?_⟩
  · rw [list]
    dsimp only
    rw [if_neg hvalid, threadMetadataList_eq hleaves hpos hle, List.map_map]
    rfl
  · rcases Nat.lt_or_ge limit rest.length with hmore | hless
    · have hne : rest.take limit ≠ [] := by
        rw [Ne, List.take_eq_nil_iff, not_or]
        exact ⟨by omega, List.ne_nil_of_length_pos (by omega)⟩
      have hlast : (rest.take limit).getLast? = some ((rest.take limit).getLast hne) := List.getLast?_eq_some_getLast hne
      rw [if_pos hmore, hlast]
      refine .inr ⟨hmore, ?_, _, rfl, some _, rfl, hleaves.drop hlast⟩
      rintro rfl
      exact hleaves.cursor_ne hcodec (List.mem_of_mem_take (List.getLast_mem hne)) rfl
    · rw [if_neg (by omega)]
      exact .inl ⟨hless, rfl⟩

end

theorem length_observed_le (rows : List JoinedRow) : (observed services request rows).length ≤ rows.length := by
  rw [observed]
  exact (List.length_filter_le _ _).trans (List.length_map _).le

theorem fill_step (hcodec : ReadsBack db services request) (hle : request.limit ≤ 100) {next : Option String}
    (h : Follows order db services request cursor rest)
    (hroom : threads.length < request.limit) (pages : Nat) :
    rest.length ≤ request.limit - threads.length ∧
        fill order db services request (pages + 1) threads cursor next = .ok ⟨threads ++ observed services request rest, none⟩ ∨
      request.limit - threads.length < rest.length ∧
        ∃ text, Follows order db services request (some text) (rest.drop (request.limit - threads.length)) ∧
          fill order db services request (pages + 1) threads cursor next =
            fill order db services request pages
              (threads ++ observed services request (rest.take (request.limit - threads.length))) (some text) (some text) := by
  obtain ⟨after, hlist, hcases⟩ := list_cases hcodec h (show 1 ≤ request.limit - threads.length by omega) (by omega)
  have hfits : ((rest.take (request.limit - threads.length)).map (shown services request)).filter services.allowed =
      observed services request (rest.take (request.limit - threads.length)) := rfl
  have htake : (observed services request (rest.take (request.limit - threads.length))).take (request.limit - threads.length) =
      observed services request (rest.take (request.limit - threads.length)) := by
    refine List.take_of_length_le ((length_observed_le _).trans ?_)
    rw [List.length_take]
    omega
  rw [fill, if_pos hroom, hlist]
  dsimp only
  rw [hfits, htake]
  rcases hcases with ⟨hless, rfl⟩ | ⟨hmore, hne, text, rfl, hfollows⟩
  · rw [if_pos rfl, List.take_of_length_le hless]
    exact .inl ⟨hless, rfl⟩
  · rw [if_neg (Option.some_ne_none text), if_neg hne]
    exact .inr ⟨hmore, text, hfollows, rfl⟩

theorem observed_append (rows others : List JoinedRow) :
    observed services request (rows ++ others) = observed services request rows ++ observed services request others := by
  rw [observed, observed, observed, List.map_append, List.filter_append]

theorem observed_take_add (rest : List JoinedRow) (count more : Nat) :
    observed services request (rest.take (count + more)) =
      observed services request (rest.take count) ++ observed services request ((rest.drop count).take more) := by
  rw [List.take_add, observed_append]

variable (order db services request) in
/-- What the loop returns after the first `count` rows that were left: the observed ones among them, and a cursor
that leaves the rows after them. -/
structure Filled (threads : List ThreadMetadata) (rest : List JoinedRow) (count : Nat) (page : ThreadPage) : Prop where
  threads_eq : page.threads = threads ++ observed services request (rest.take count)
  size : page.threads.length ≤ request.limit
  cursor : page.nextCursor = none ∧ rest.length ≤ count ∨
    ∃ text, page.nextCursor = some text ∧ Follows order db services request (some text) (rest.drop count)

theorem length_append_observed_le {rows : List JoinedRow} (h : threads.length + rows.length ≤ request.limit) :
    (threads ++ observed services request rows).length ≤ request.limit := by
  have hobserved := @length_observed_le services request rows
  rw [List.length_append]
  omega

theorem Filled.add {count more : Nat} {page : ThreadPage}
    (h : Filled order db services request (threads ++ observed services request (rest.take count)) (rest.drop count) more page) :
    Filled order db services request threads rest (count + more) page where
  threads_eq := by rw [h.threads_eq, observed_take_add, List.append_assoc]
  size := h.size
  cursor := by
    rcases h.cursor with ⟨hnone, hall⟩ | ⟨text, htext, hfollows⟩
    · rw [List.length_drop] at hall
      exact .inl ⟨hnone, by omega⟩
    · rw [List.drop_drop] at hfollows
      exact .inr ⟨text, htext, hfollows⟩

/-- The loop, from a cursor on, fills the page with the observed rows of a first part of those that were left. -/
theorem fill_spec (hcodec : ReadsBack db services request) (hle : request.limit ≤ 100) (pages : Nat) {text : String}
    (h : Follows order db services request (some text) rest)
    (hthreads : threads.length ≤ request.limit) :
    ∃ count page, fill order db services request pages threads (some text) (some text) = .ok page ∧
      Filled order db services request threads rest count page := by
  have hstops : Filled order db services request threads rest 0 ⟨threads, some text⟩ :=
    ⟨(List.append_nil threads).symm, hthreads, .inr ⟨text, rfl, h⟩⟩
  induction pages generalizing text rest threads with
  | zero => exact ⟨0, _, rfl, hstops⟩
  | succ pages ih =>
    rcases Nat.lt_or_ge threads.length request.limit with hroom | hfull
    · rcases fill_step hcodec hle h hroom pages with ⟨hless, hfill⟩ | ⟨hmore, after, hfollows, hfill⟩
      · refine ⟨rest.length, _, hfill, ?_, ?_, .inl ⟨rfl, le_rfl⟩⟩
        · rw [List.take_length]
        · exact length_append_observed_le (by omega)
      · have hsize : (threads ++ observed services request (rest.take (request.limit - threads.length))).length ≤
            request.limit := length_append_observed_le (by rw [List.length_take]; omega)
        obtain ⟨count, page, hpage, hfilled⟩ := ih hfollows hsize ⟨(List.append_nil _).symm, hsize, .inr ⟨after, rfl, hfollows⟩⟩
        exact ⟨_, page, hfill.trans hpage, hfilled.add⟩
    · refine ⟨0, _, ?_, hstops⟩
      rw [fill, if_neg (by omega)]

/-- A call returns the observed rows of a first part of those that its cursor leaves, which is not empty
unless none are left. -/
theorem listThreads_spec (hcodec : ReadsBack db services request) (hpos : 1 ≤ request.limit) (hle : request.limit ≤ 100)
    (h : Follows order db services request cursor rest) :
    ∃ count page, listThreads order db services request cursor = .ok page ∧
      Filled order db services request [] rest count page ∧ (page.nextCursor ≠ none → 0 < count ∧ 0 < rest.length) := by
  rcases fill_step hcodec hle h (show ([] : List ThreadMetadata).length < request.limit from hpos) 3 with ⟨hless, hfill⟩ | ⟨hmore, text, hfollows, hfill⟩
  · refine ⟨rest.length, _, hfill, ⟨?_, ?_, .inl ⟨rfl, le_rfl⟩⟩, fun hnext => absurd rfl hnext⟩
    · rw [List.take_length]
    · exact length_append_observed_le (by simpa using hless)
  · have hsize : ([] ++ observed services request (rest.take (request.limit - ([] : List ThreadMetadata).length))).length ≤
        request.limit := length_append_observed_le (by rw [List.length_take, List.length_nil]; omega)
    obtain ⟨count, page, hpage, hfilled⟩ := fill_spec hcodec hle 3 hfollows hsize
    refine ⟨_, page, hfill.trans hpage, hfilled.add, fun _ => ?_⟩
    rw [List.length_nil] at hmore ⊢
    omega

end Lists

section Listings

variable {order db services} {request : ListThreadsInput}

variable (order db services request) in
/-- The pages that are returned from a cursor on, each call with the cursor of the page before, until there is none. -/
inductive Listing : Option String → List ThreadPage → Prop
  | last {cursor : Option String} {page : ThreadPage} : listThreads order db services request cursor = .ok page →
      page.nextCursor = none → Listing cursor [page]
  | next {cursor : Option String} {page : ThreadPage} {text : String} {pages : List ThreadPage} :
      listThreads order db services request cursor = .ok page → page.nextCursor = some text → Listing (some text) pages →
        Listing cursor (page :: pages)

/-- From any cursor on the listing ends, with pages of the observed rows that the cursor leaves. -/
theorem listing_of_follows (hcodec : ReadsBack db services request) (hpos : 1 ≤ request.limit) (hle : request.limit ≤ 100)
    {cursor : Option String} {rest : List JoinedRow} (h : Follows order db services request cursor rest) :
    ∃ pages, Listing order db services request cursor pages ∧
      pages.flatMap (·.threads) = observed services request rest ∧ ∀ page ∈ pages, page.threads.length ≤ request.limit := by
  induction hlength : rest.length using Nat.strong_induction_on generalizing cursor rest with
  | _ length ih =>
    obtain ⟨count, page, hpage, hfilled, hmoves⟩ := listThreads_spec hcodec hpos hle h
    have hthreads : page.threads = observed services request (rest.take count) := hfilled.threads_eq
    rcases hfilled.cursor with ⟨hnone, hall⟩ | ⟨text, htext, hfollows⟩
    · rw [List.take_of_length_le hall] at hthreads
      refine ⟨[page], .last hpage hnone, ?_, ?_⟩
      · rw [List.flatMap_singleton, hthreads]
      · exact List.forall_mem_singleton.mpr hfilled.size
    · obtain ⟨hcount, hrest⟩ := hmoves (by rw [htext]; exact Option.some_ne_none text)
      have hless : (rest.drop count).length < length := by
        rw [List.length_drop]
        omega
      obtain ⟨pages, hpages, hconcat, hsizes⟩ := ih _ hless hfollows rfl
      refine ⟨page :: pages, .next hpage htext hpages, ?_, List.forall_mem_cons.mpr ⟨hfilled.size, hsizes⟩⟩
      rw [List.flatMap_cons, hconcat, hthreads, ← observed_append, List.take_append_drop]

/-- Pinned rows come first, then the latest updated, then those of the least id. -/
def Precedes (order : TextOrder) (left right : JoinedRow) : Prop :=
  right.1.pinned < left.1.pinned ∨
    left.1.pinned = right.1.pinned ∧
      (right.1.updatedAt < left.1.updatedAt ∨
        left.1.updatedAt = right.1.updatedAt ∧ order.compare left.1.id right.1.id = .lt)

theorem compareRows_eq_lt {left right : JoinedRow} : compareRows order left right = .lt ↔ Precedes order left right := by
  rw [compareRows, Ordering.then_eq_lt, Ordering.then_eq_lt, compare_lt_iff_lt, compare_eq_iff_eq, compare_lt_iff_lt,
    compare_eq_iff_eq, Precedes, @eq_comm _ right.1.pinned, @eq_comm _ right.1.updatedAt]

/-- The cursors end, and return each thread that the principal may observe once, in order and in pages within the limit.
-/
theorem listing_exact (hcodec : ReadsBack db services request) (hpos : 1 ≤ request.limit) (hle : request.limit ≤ 100) :
    ∃ (pages : List ThreadPage) (rows : List JoinedRow), Listing order db services request none pages ∧
      pages.flatMap (·.threads) = rows.map (shown services request) ∧
        rows.Perm ((requested db request).filter fun row => services.allowed (shown services request row)) ∧
          (rows.map (·.1.id)).Nodup ∧ rows.Pairwise (Precedes order) ∧ ∀ page ∈ pages, page.threads.length ≤ request.limit := by
  have hstart : Follows order db services request none (ordered order db request.ownerId (request.projectId.map some)) :=
    ⟨none, rfl, rfl⟩
  obtain ⟨pages, hpages, hconcat, hsizes⟩ := listing_of_follows hcodec hpos hle hstart
  have hperm : (ordered order db request.ownerId (request.projectId.map some)).Perm (requested db request) :=
    StableSort.toSorted_perm _ _
  refine ⟨pages, (ordered order db request.ownerId (request.projectId.map some)).filter
    fun row => services.allowed (shown services request row), hpages, ?_, hperm.filter _, ?_, ?_, hsizes⟩
  · rw [hconcat, observed, List.filter_map]
    rfl
  · refine List.Nodup.map_on (fun row hrow other hother hid => ?_) (((hperm.nodup_iff).mpr (nodup_joined.filter _)).filter _)
    have hlisted := hperm.mem_iff.mp (List.mem_filter.mp hrow).1
    have hlistedOther := hperm.mem_iff.mp (List.mem_filter.mp hother).1
    exact eq_of_id_eq (mem_joined_of_mem_listed hlisted) (mem_joined_of_mem_listed hlistedOther) hid
  · exact (ascending_ordered.imp fun h => compareRows_eq_lt.mp h).filter _

section Samples

def sampleOrder : TextOrder := ⟨Collation.codePoint, fun h => Std.LawfulEqOrd.eq_of_compare h⟩

def sampleThread (id : String) (pinned : Bool) (updatedAt : Finite) : ThreadRow := ⟨id, "owner", id, pinned, false, updatedAt⟩

def sampleDatabase : Database where
  threads := ⟨[sampleThread "b" false 5, sampleThread "c" true 1, sampleThread "a" false 5], by decide⟩
  hosted := ⟨[⟨"a", "owner", .runner, none⟩, ⟨"b", "owner", .orb, none⟩, ⟨"c", "owner", .runner, none⟩], by decide⟩
  deletionOutbox := []

def sampleCursorText (cursor : Cursor) : String :=
  String.ofList (Base64Url.encode (("\x7b\"pinned\":".toList ++ (if cursor.pinned then "true" else "false").toList ++
    ",\"updatedAt\":".toList ++ cursor.updatedAt.num.repr.toList ++ ",\"threadId\":\"".toList ++ cursor.threadId.toList ++
      "\"\x7d".toList).map Char.toNat))

def sampleServices : Services where
  encodeCursor := sampleCursorText
  decodeCursor text :=
    [(⟨false, 5, "a"⟩ : Cursor), ⟨false, 5, "b"⟩, ⟨true, 1, "c"⟩].find? fun cursor => sampleCursorText cursor = text
  rootSessionId ownerId threadId _ := ownerId ++ "/" ++ threadId
  formatIso time := time.num.repr
  allowed thread := thread.id ≠ "b"

theorem sample_listing_exact : ∃ (pages : List ThreadPage) (rows : List JoinedRow),
      Listing sampleOrder sampleDatabase sampleServices ⟨"owner", none, 1⟩ none pages ∧
        pages.flatMap (·.threads) = rows.map (shown sampleServices ⟨"owner", none, 1⟩) ∧
          rows.Perm ((requested sampleDatabase ⟨"owner", none, 1⟩).filter fun row =>
            sampleServices.allowed (shown sampleServices ⟨"owner", none, 1⟩ row)) ∧
            (rows.map (·.1.id)).Nodup ∧ rows.Pairwise (Precedes sampleOrder) ∧ ∀ page ∈ pages, page.threads.length ≤ 1 :=
  listing_exact (by unfold ReadsBack; decide +kernel) (by decide) (by decide)

end Samples

end Listings

end Rika.ThreadListing
