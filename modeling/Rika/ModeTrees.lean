import Rika.FileTree

/-! Trees of files with permission bits, where only the owner's bits decide. -/

namespace ModeTree

abbrev Mode := Fin 512

def Mode.reads (mode : Mode) : Bool := mode.val.testBit 8

def Mode.searches (mode : Mode) : Bool := mode.val.testBit 6

mutual

inductive Node (ν β : Type)
  | file (mode : Mode) (content : β)
  | directory (mode : Mode) (entries : Entries ν β)
  | link (target : ν)

inductive Entries (ν β : Type)
  | nil
  | cons (name : ν) (node : Node ν β) (rest : Entries ν β)

end

variable {ν β : Type}

def Entries.toList : Entries ν β → List (ν × Node ν β)
  | nil => []
  | cons name node rest => (name, node) :: rest.toList

def Entries.names (entries : Entries ν β) : List ν := entries.toList.map Prod.fst

mutual

def Node.distinct [DecidableEq ν] : Node ν β → Bool
  | .directory _ entries => entries.distinct
  | .file _ _ | .link _ => true

def Entries.distinct [DecidableEq ν] : Entries ν β → Bool
  | .nil => true
  | .cons name node rest => !rest.names.contains name && node.distinct && rest.distinct

end

mutual

def Node.opens : Node ν β → Bool
  | .directory mode entries => mode.reads && (entries.toList.isEmpty || mode.searches) && entries.opens
  | .file _ _ | .link _ => true

def Entries.opens : Entries ν β → Bool
  | .nil => true
  | .cons _ node rest => node.opens && rest.opens

end

mutual

def Node.filesRead : Node ν β → Bool
  | .file mode _ => mode.reads
  | .directory _ entries => entries.filesRead
  | .link _ => true

def Entries.filesRead : Entries ν β → Bool
  | .nil => true
  | .cons _ node rest => node.filesRead && rest.filesRead

end

mutual

def Node.directories : Node ν β → List (List ν)
  | .directory _ entries => [] :: entries.directories
  | .file _ _ | .link _ => []

def Entries.directories : Entries ν β → List (List ν)
  | .nil => []
  | .cons name node rest => node.directories.map (name :: ·) ++ rest.directories

end

variable [DecidableEq ν]

def Node.at (node : Node ν β) : List ν → Option (Node ν β)
  | [] => some node
  | name :: names =>
    match node with
    | .directory _ entries => (entries.toList.lookup name).bind fun child => child.at names
    | .file _ _ | .link _ => none

def Node.reach (node : Node ν β) : List ν → Option (Node ν β)
  | [] => some node
  | name :: names =>
    match node with
    | .directory mode entries =>
      if mode.searches then (entries.toList.lookup name).bind fun child => child.reach names else none
    | .file _ _ | .link _ => none

section Paths

variable {node child : Node ν β} {entries : Entries ν β} {mode : Mode} {path : List ν} {name : ν}

theorem Node.reach_append (path rest : List ν) : node.reach (path ++ rest) = (node.reach path).bind fun next => next.reach rest := by
  induction path generalizing node with
  | nil => rfl
  | cons name names ih =>
    cases node with
    | file mode content => rfl
    | link target => rfl
    | directory mode entries =>
      rw [List.cons_append, Node.reach, Node.reach]
      split
      · rw [Option.bind_assoc]
        exact congrArg _ (funext fun next => ih)
      · rfl

theorem Node.at_append (path rest : List ν) : node.at (path ++ rest) = (node.at path).bind fun next => next.at rest := by
  induction path generalizing node with
  | nil => rfl
  | cons name names ih =>
    cases node with
    | file mode content => rfl
    | link target => rfl
    | directory mode entries =>
      rw [List.cons_append, Node.at, Node.at, Option.bind_assoc]
      exact congrArg _ (funext fun next => ih)

theorem Node.reach_concat (h : node.reach path = some (.directory mode entries)) :
    node.reach (path ++ [name]) = if mode.searches then entries.toList.lookup name else none := by
  rw [Node.reach_append, h, Option.bind_some, Node.reach]
  split
  · exact Option.bind_fun_some _
  · rfl

theorem Node.at_concat (h : node.at (path ++ [name]) = some child) :
    ∃ mode entries, node.at path = some (.directory mode entries) ∧ entries.toList.lookup name = some child := by
  rw [Node.at_append] at h
  obtain ⟨parent, hparent, hat⟩ := Option.bind_eq_some_iff.mp h
  cases parent with
  | file mode content => cases hat
  | link target => cases hat
  | directory mode entries =>
    rw [Node.at] at hat
    obtain ⟨next, hnext, hself⟩ := Option.bind_eq_some_iff.mp hat
    cases hself
    exact ⟨mode, entries, hparent, hnext⟩

theorem mem_of_lookup {xs : List (ν × Node ν β)} (h : xs.lookup name = some child) : (name, child) ∈ xs := by
  induction xs with
  | nil => cases h
  | cons x xs ih =>
    rw [List.lookup_cons] at h
    split at h
    · next heq =>
      obtain rfl := Option.some.inj h
      obtain rfl := eq_of_beq heq
      exact List.mem_cons_self
    · exact List.mem_cons_of_mem _ (ih h)

theorem lookup_of_mem {xs : List (ν × Node ν β)} (hnodup : (xs.map Prod.fst).Nodup) (h : (name, child) ∈ xs) :
    xs.lookup name = some child := by
  induction xs with
  | nil => cases h
  | cons x xs ih =>
    rw [List.map_cons, List.nodup_cons] at hnodup
    rw [List.lookup_cons]
    rcases List.mem_cons.mp h with rfl | hmem
    · simp
    · have hne : (name == x.1) = false := by
        rw [beq_eq_false_iff_ne]
        rintro rfl
        exact hnodup.1 (List.mem_map.mpr ⟨_, hmem, rfl⟩)
      rw [hne]
      exact ih hnodup.2 hmem

theorem Entries.nodup_names : {entries : Entries ν β} → entries.distinct = true → entries.names.Nodup
  | .nil, _ => List.nodup_nil
  | .cons name node rest, h => by
    rw [Entries.distinct, Bool.and_eq_true, Bool.and_eq_true, Bool.not_eq_true', List.contains_eq_mem, decide_eq_false_iff_not] at h
    exact List.nodup_cons.mpr ⟨h.1.1, Entries.nodup_names h.2⟩

omit [DecidableEq ν] in
theorem Entries.directories_of_mem : {entries : Entries ν β} → (name, child) ∈ entries.toList → path ∈ child.directories →
    name :: path ∈ entries.directories
  | .nil, hmem, _ => by cases hmem
  | .cons other node rest, hmem, h => by
    rw [Entries.directories, List.mem_append]
    rcases List.mem_cons.mp hmem with heq | hrest
    · left
      rw [← (Prod.mk.inj heq).1, ← (Prod.mk.inj heq).2]
      exact List.mem_map_of_mem h
    · right
      exact Entries.directories_of_mem hrest h

theorem Node.mem_directories (h : node.reach path = some (.directory mode entries)) : path ∈ node.directories := by
  induction path generalizing node with
  | nil =>
    obtain rfl := Option.some.inj h
    exact List.mem_cons_self
  | cons name names ih =>
    cases node with
    | file mode content => cases h
    | link target => cases h
    | directory mode' entries' =>
      rw [Node.reach] at h
      split at h
      · obtain ⟨next, hnext, hrest⟩ := Option.bind_eq_some_iff.mp h
        exact List.mem_cons_of_mem _ (Entries.directories_of_mem (mem_of_lookup hnext) (ih hrest))
      · cases h

end Paths

section Opens

theorem Node.at_cons {mode : Mode} {entries : Entries ν β} {name : ν} {child : Node ν β} (h : entries.distinct = true)
    (hmem : (name, child) ∈ entries.toList) (path : List ν) : (Node.directory mode entries).at (name :: path) = child.at path := by
  rw [Node.at, lookup_of_mem (Entries.nodup_names h) hmem]
  rfl

/-- The directories at the paths of a tree are open to their owner. -/
def Listed (node : Node ν β) : Prop :=
  ∀ path mode entries, node.at path = some (.directory mode entries) →
    mode.reads = true ∧ (entries.toList.isEmpty = true ∨ mode.searches = true)

mutual

theorem Node.opens_of_listed : {node : Node ν β} → node.distinct = true → Listed node → node.opens = true
  | .file _ _, _, _ => rfl
  | .link _, _, _ => rfl
  | .directory mode entries, hdistinct, h => by
    have hroot := h [] mode entries rfl
    rw [Node.opens, Bool.and_eq_true, Bool.and_eq_true, Bool.or_eq_true]
    refine ⟨hroot, Entries.opens_of_listed hdistinct fun name child hmem path mode' entries' hat => ?_⟩
    refine h (name :: path) mode' entries' ?_
    rwa [Node.at_cons hdistinct hmem]

theorem Entries.opens_of_listed : {entries : Entries ν β} → entries.distinct = true →
    (∀ name child, (name, child) ∈ entries.toList → Listed child) → entries.opens = true
  | .nil, _, _ => rfl
  | .cons name node rest, hdistinct, h => by
    rw [Entries.distinct, Bool.and_eq_true, Bool.and_eq_true] at hdistinct
    rw [Entries.opens, Bool.and_eq_true]
    refine ⟨Node.opens_of_listed hdistinct.1.2 (h name node List.mem_cons_self), ?_⟩
    exact Entries.opens_of_listed hdistinct.2 fun other child hmem => h other child (List.mem_cons_of_mem _ hmem)

end

end Opens

end ModeTree
