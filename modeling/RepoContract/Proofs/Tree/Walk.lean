/-
# RepoContract.Proofs.Tree.Walk: what a walk yields

A walk prunes: it looks into no directory that its filter does not enter. Nothing is lost by that
but what the filter would have refused by its path alone: a walk yields those of all files that
the filter includes and whose directories it enters, in the order of all files
(`Node.files_eq_filter`). All files of a proper tree are the locations where one stands, each once
(`Node.mem_everything_iff`, `Node.nodup_everything`), so a walk of one is told by what stands where
(`Node.mem_files_iff`).
-/
import Mathlib.Data.List.Nodup
import RepoContract.Proofs.Tree.Location

namespace RepoContract

set_option autoImplicit false

/-! ## Proper trees -/

namespace Node

/-- What holds of a directory when it holds of its entries holds of every node. -/
theorem entries_induction {motive : Node → Prop} (file : ∀ bytes, motive (.file bytes))
    (link : ∀ target, motive (.link target))
    (dir : ∀ entries, (∀ entry ∈ entries, motive entry.2) → motive (.dir entries)) :
    ∀ node, motive node
  | .file bytes => file bytes
  | .link target => link target
  | .dir entries => dir entries fun entry isEntry =>
      have smaller : sizeOf entry.2 < sizeOf (Node.dir entries) := by
        have inList := List.sizeOf_lt_of_mem isEntry
        have inEntry : sizeOf entry.2 < sizeOf entry := by
          cases entry
          simp only [Prod.mk.sizeOf_spec]
          omega
        simp only [Node.dir.sizeOf_spec]
        omega
      entries_induction file link dir entry.2
  termination_by node => sizeOf node
  decreasing_by exact smaller

mutual

/-- Whether every directory has each name once, and only names that entries can have. -/
def isProper : Node → Bool
  | .file _ => true
  | .link _ => true
  | .dir entries => decide (entries.map (·.1)).Nodup && areProper entries

def areProper : List (Name × Node) → Bool
  | [] => true
  | (name, node) :: rest => decide (Path.IsEntryName name) && node.isProper && areProper rest

end

variable {node found : Node} {names base : List Name} {entries : List (Name × Node)}
  {filter : Filter}

theorem areProper_iff (entries : List (Name × Node)) :
    areProper entries = true ↔
      ∀ entry ∈ entries, Path.IsEntryName entry.1 ∧ entry.2.isProper = true := by
  induction entries with
  | nil => simp [areProper]
  | cons entry rest ih => simp [areProper, ih, and_assoc]

theorem isProper_dir_iff :
    (Node.dir entries).isProper = true ↔ (entries.map (·.1)).Nodup ∧
      ∀ entry ∈ entries, Path.IsEntryName entry.1 ∧ entry.2.isProper = true := by
  rw [isProper, Bool.and_eq_true, decide_eq_true_eq, areProper_iff]

/-- In a directory that has each name once an entry is found under its name. -/
theorem lookup_eq_some_iff (distinct : (entries.map (·.1)).Nodup) {name : Name} :
    entries.lookup name = some node ↔ (name, node) ∈ entries := by
  induction entries with
  | nil => simp
  | cons entry rest ih =>
      obtain ⟨other, child⟩ := entry
      obtain ⟨notBehind, restDistinct⟩ := List.nodup_cons.1 distinct
      rw [List.lookup_cons, List.mem_cons, Prod.mk.injEq]
      by_cases same : name = other
      · subst same
        have notBehind : (name, node) ∉ rest := fun behind =>
          notBehind (List.mem_map_of_mem (f := (·.1)) behind)
        simp [notBehind, eq_comm]
      · rw [beq_false_of_ne same]
        simp [same, ih restDistinct]

/-- What stands in a proper tree is proper, and the names that lead to it are names of entries. -/
theorem isProper_at? (proper : node.isProper = true) (here : node.at? names = some found) :
    (∀ name ∈ names, Path.IsEntryName name) ∧ found.isProper = true := by
  induction names generalizing node with
  | nil =>
      cases here
      exact ⟨nofun, proper⟩
  | cons name rest ih =>
      cases node with
      | file bytes | link target => simp [at?, child?] at here
      | dir entries =>
          obtain ⟨distinct, entriesProper⟩ := isProper_dir_iff.1 proper
          obtain ⟨child, isChild, below⟩ := Option.bind_eq_some_iff.1 here
          obtain ⟨isName, childProper⟩ :=
            entriesProper _ ((lookup_eq_some_iff distinct).1 isChild)
          obtain ⟨restNames, foundProper⟩ := ih childProper below
          exact ⟨List.forall_mem_cons.2 ⟨isName, restNames⟩, foundProper⟩

mutual

/-- The locations at which anything stands. -/
def locations : Node → List (List Name)
  | .file _ => [[]]
  | .link _ => [[]]
  | .dir entries => [] :: locationsOf entries

def locationsOf : List (Name × Node) → List (List Name)
  | [] => []
  | (name, node) :: rest => node.locations.map (name :: ·) ++ locationsOf rest

end

theorem mem_locations (here : node.at? names = some found) : names ∈ node.locations := by
  induction names generalizing node with
  | nil => cases node <;> simp [locations]
  | cons name rest ih =>
      cases node with
      | file bytes | link target => simp [at?, child?] at here
      | dir entries =>
          obtain ⟨child, isChild, below⟩ := Option.bind_eq_some_iff.1 here
          obtain ⟨front, behind, rfl, -⟩ := List.lookup_eq_some_iff.1 isChild
          have isBelow := ih below
          rw [locations]
          refine List.mem_cons_of_mem _ ?_
          clear isChild here
          induction front with
          | nil => simp [locationsOf, isBelow]
          | cons entry front ihFront => simp [locationsOf, ihFront]

/-- Where nothing is known to stand nothing stands. -/
theorem occupantAt?_eq_none (elsewhere : names ∉ node.locations) :
    node.occupantAt? names = none := by
  rw [occupantAt?, Option.map_eq_none_iff]
  cases here : node.at? names with
  | none => rfl
  | some found => exact absurd (mem_locations here) elsewhere

/-! ## Walks of nodes -/

/-- The walk of a directory is those of its entries, one behind the other. -/
theorem filesOf_eq_flatMap (filter : Filter) (base : List Name) (entries : List (Name × Node)) :
    filesOf filter base entries = entries.flatMap fun entry =>
      if entry.2.isDir && !filter.enters (Path.ofNames (base ++ [entry.1])) then []
      else entry.2.files filter (base ++ [entry.1]) := by
  induction entries with
  | nil => rw [filesOf, List.flatMap_nil]
  | cons entry rest ih => rw [filesOf, List.flatMap_cons, ih]

/-- The filter that includes and enters everything. -/
def everything : Filter :=
  ⟨fun _ => true, fun _ => true⟩

theorem files_everything_dir (base : List Name) (entries : List (Name × Node)) :
    (Node.dir entries).files everything base =
      entries.flatMap fun entry => entry.2.files everything (base ++ [entry.1]) := by
  rw [files, filesOf_eq_flatMap]
  simp [everything]

/-- All files of a node stand below the names at which it stands itself, and those of a directory
strictly below. -/
theorem exists_of_mem_everything (isFile : names ∈ node.files everything base) :
    ∃ below, names = base ++ below ∧ (node.isDir = true → below ≠ []) ∧
      (node.isDir = false → below = []) := by
  induction node using entries_induction generalizing base with
  | file bytes =>
      refine ⟨[], ?_, nofun, fun _ => rfl⟩
      simpa [files, everything] using isFile
  | link target => simp [files] at isFile
  | dir entries ih =>
      rw [files_everything_dir, List.mem_flatMap] at isFile
      obtain ⟨entry, isEntry, isFile⟩ := isFile
      obtain ⟨below, rfl, -⟩ := ih entry isEntry isFile
      exact ⟨entry.1 :: below, by simp, fun _ => List.cons_ne_nil _ _, nofun⟩

/-- **All files of a proper tree are the locations at which a file stands.** -/
theorem mem_everything_iff (proper : node.isProper = true) :
    names ∈ node.files everything base ↔
      ∃ below bytes, names = base ++ below ∧ node.at? below = some (.file bytes) := by
  induction node using entries_induction generalizing base with
  | file bytes =>
      have only : names ∈ (Node.file bytes).files everything base ↔ names = base := by
        simp [files, everything]
      rw [only]
      constructor
      · rintro rfl
        exact ⟨[], bytes, (List.append_nil _).symm, rfl⟩
      · rintro ⟨below, other, rfl, here⟩
        cases below with
        | nil => exact List.append_nil base
        | cons name rest => simp [at?, child?] at here
  | link target =>
      constructor
      · intro isFile
        simp [files] at isFile
      · rintro ⟨below, other, rfl, here⟩
        cases below <;> simp [at?, child?] at here
  | dir entries ih =>
      obtain ⟨distinct, entriesProper⟩ := isProper_dir_iff.1 proper
      rw [files_everything_dir, List.mem_flatMap]
      constructor
      · rintro ⟨⟨name, child⟩, isEntry, isFile⟩
        obtain ⟨below, bytes, rfl, here⟩ :=
          (ih _ isEntry (entriesProper _ isEntry).2).1 isFile
        refine ⟨name :: below, bytes, by simp, ?_⟩
        rw [at?, child?, (lookup_eq_some_iff distinct).2 isEntry]
        exact here
      · rintro ⟨below, bytes, rfl, here⟩
        cases below with
        | nil => simp [at?] at here
        | cons name rest =>
            obtain ⟨child, isChild, here⟩ := Option.bind_eq_some_iff.1 here
            have isEntry := (lookup_eq_some_iff distinct).1 isChild
            refine ⟨(name, child), isEntry, ?_⟩
            exact (ih _ isEntry (entriesProper _ isEntry).2).2 ⟨rest, bytes, by simp, here⟩

/-- In a proper tree a walk comes to no file twice. -/
theorem nodup_everything (proper : node.isProper = true) :
    (node.files everything base).Nodup := by
  induction node using entries_induction generalizing base with
  | file bytes => simp [files, everything]
  | link target => simp [files]
  | dir entries ih =>
      obtain ⟨distinct, entriesProper⟩ := isProper_dir_iff.1 proper
      rw [files_everything_dir, List.nodup_flatMap]
      refine ⟨fun entry isEntry => ih entry isEntry (entriesProper entry isEntry).2, ?_⟩
      -- the files below two entries differ in the names of these
      refine (List.pairwise_map.1 distinct).imp fun {entry other} differ => ?_
      intro file below belowOther
      obtain ⟨rest, isRest, -⟩ := exists_of_mem_everything below
      obtain ⟨otherRest, isOtherRest, -⟩ := exists_of_mem_everything belowOther
      rw [isRest, List.append_assoc, List.append_assoc, List.append_cancel_left_eq] at isOtherRest
      exact differ (List.cons.inj isOtherRest).1

end Node

/-! ## Pruning -/

/-- Whether a filter enters every directory that leads to a location and stands deeper than
`depth`. -/
def Filter.reaches (filter : Filter) (depth : Nat) (names : List Name) : Bool :=
  (List.range names.length).all fun count =>
    count ≤ depth || filter.enters (Path.ofNames (names.take count))

namespace Filter

variable {filter : Filter} {names base : List Name}

theorem reaches_iff {depth : Nat} :
    filter.reaches depth names = true ↔ ∀ count, depth < count → count < names.length →
      filter.enters (Path.ofNames (names.take count)) = true := by
  simp only [reaches, List.all_eq_true, List.mem_range, Bool.or_eq_true, decide_eq_true_eq]
  refine forall_congr' fun count => ?_
  constructor
  · intro holds deeper isInside
    exact (holds isInside).resolve_left (by omega)
  · intro holds isInside
    by_cases deeper : depth < count
    · exact .inr (holds deeper isInside)
    · exact .inl (by omega)

/-- A location in a directory is reached through nothing below that directory. -/
theorem reaches_concat (base : List Name) (name : Name) :
    filter.reaches base.length (base ++ [name]) = true := by
  rw [reaches_iff]
  intro count deeper isInside
  simp at isInside
  omega

/-- A location strictly below a directory is reached through that directory. -/
theorem reaches_below {below : List Name} (name : Name) (strictly : below ≠ []) :
    filter.reaches base.length (base ++ [name] ++ below) =
      (filter.enters (Path.ofNames (base ++ [name])) &&
        filter.reaches (base ++ [name]).length (base ++ [name] ++ below)) := by
  have first : (base ++ [name] ++ below).take (base.length + 1) = base ++ [name] := by
    rw [List.take_append_of_le_length (by simp), List.take_of_length_le (by simp)]
  have isBelow : base.length + 1 < (base ++ [name] ++ below).length := by
    have := List.length_pos_of_ne_nil strictly
    simp
    omega
  have depth : (base ++ [name]).length = base.length + 1 := by simp
  rw [Bool.eq_iff_iff, Bool.and_eq_true, reaches_iff, reaches_iff, depth]
  constructor
  · intro holds
    have here := holds (base.length + 1) (by omega) isBelow
    rw [first] at here
    exact ⟨here, fun count deeper => holds count (by omega)⟩
  · rintro ⟨here, holds⟩ count deeper isInside
    by_cases isFirst : count = base.length + 1
    · rwa [isFirst, first]
    · exact holds count (by omega) isInside

/-- Whether a filter takes a file by its location alone: it includes the file and enters every
directory that leads to it. -/
def takes (filter : Filter) (names : List Name) : Bool :=
  filter.includes (Path.ofNames names) && filter.reaches 0 names

end Filter

namespace Node

variable {node : Node} {names base : List Name} {filter : Filter}

/-- A walk below some names yields those of all files that the filter includes and reaches. -/
theorem files_eq_filter_from (filter : Filter) (base : List Name) (node : Node) :
    node.files filter base = (node.files everything base).filter fun names =>
      filter.includes (Path.ofNames names) && filter.reaches base.length names := by
  induction node using entries_induction generalizing base with
  | file bytes =>
      have reached : filter.reaches base.length base = true := by
        rw [Filter.reaches_iff]
        omega
      cases included : filter.includes (Path.ofNames base) <;>
        simp [files, everything, included, reached]
  | link target => simp [files]
  | dir entries ih =>
      rw [files_everything_dir, files, filesOf_eq_flatMap, List.filter_flatMap]
      refine List.flatMap_congr fun entry isEntry => ?_
      by_cases isDir : entry.2.isDir = true
      · cases entered : filter.enters (Path.ofNames (base ++ [entry.1])) with
        | false =>
            -- whatever stands below is refused by its path
            rw [isDir, Bool.not_false, Bool.and_true, if_pos rfl, eq_comm, List.filter_eq_nil_iff]
            intro names isFile
            obtain ⟨below, rfl, strictly, -⟩ := exists_of_mem_everything isFile
            rw [Filter.reaches_below entry.1 (strictly isDir), entered, Bool.false_and,
              Bool.and_false]
            exact Bool.false_ne_true
        | true =>
            rw [Bool.not_true, Bool.and_false, if_neg Bool.false_ne_true, ih entry isEntry]
            refine List.filter_congr fun names isFile => ?_
            obtain ⟨below, rfl, strictly, -⟩ := exists_of_mem_everything isFile
            rw [Filter.reaches_below entry.1 (strictly isDir), entered, Bool.true_and]
      · have noDir : entry.2.isDir = false := by simpa using isDir
        rw [noDir, Bool.false_and, if_neg Bool.false_ne_true, ih entry isEntry]
        refine List.filter_congr fun names isFile => ?_
        obtain ⟨below, rfl, -, isHere⟩ := exists_of_mem_everything isFile
        have reached : filter.reaches (base ++ [entry.1]).length (base ++ [entry.1]) = true := by
          rw [Filter.reaches_iff]
          omega
        rw [isHere noDir, List.append_nil, Filter.reaches_concat, reached]

/-- **A walk yields those of all files that its filter takes by their location alone**, in the
order of all files. -/
theorem files_eq_filter (filter : Filter) (node : Node) :
    node.files filter [] = (node.files everything []).filter filter.takes :=
  files_eq_filter_from filter [] node

theorem mem_files_iff (proper : node.isProper = true) :
    names ∈ node.files filter [] ↔
      (∃ bytes, node.at? names = some (.file bytes)) ∧ filter.takes names = true := by
  rw [files_eq_filter, List.mem_filter, mem_everything_iff proper]
  simp

theorem nodup_files (proper : node.isProper = true) : (node.files filter []).Nodup := by
  rw [files_eq_filter]
  exact (nodup_everything proper).filter _

end Node

/-! ## The walk of a world -/

/-- The walk of a world is that of the tree to which the root leads, where the filter includes no
file for its empty path. -/
theorem World.walk_eq (world : World) {filter : Filter} (root : Path)
    (unnamed : filter.includes (Path.ofNames []) = false) :
    world.walk filter root =
      match world.node root with
      | .ok tree => (tree.files filter []).map root.descend
      | .error _ => [] := by
  have files_of_not_dir {tree : Node} (noDir : tree.isDir = false) :
      tree.files filter [] = [] := by
    cases tree with
    | file bytes => simp [Node.files, unnamed]
    | link target => simp [Node.files]
    | dir entries => simp [Node.isDir] at noDir
  have ends : (∃ there target, world.locate .keep root = .ok there ∧
      world.root.occupantAt? there = some (.link target)) ∨
      world.locate .keep root = world.locate .follow root := by
    by_cases filled : root.bytes = []
    · exact .inr (by rw [locate, locate, if_pos filled, if_pos filled])
    · rw [locate_of_ne_nil .keep filled, locate_of_ne_nil .follow filled]
      exact locateFrom_keep _ _ _ _
  rcases ends with ⟨there, target, leads, isLink⟩ | same
  · obtain ⟨found, isFound, isLink⟩ := Option.map_eq_some_iff.1 isLink
    cases found with
    | file bytes | dir entries => simp [Node.occupant] at isLink
    | link other =>
        rw [walk, leads]
        simp only [isFound]
        cases world.node root with
        | error cause => rfl
        | ok tree =>
            cases isDir : tree.isDir with
            | true => simp [Except.toOption, Option.filter, isDir]
            | false => simp [Except.toOption, Option.filter, isDir, files_of_not_dir isDir]
  · rw [walk, same, node]
    cases world.locate .follow root with
    | error cause => rfl
    | ok there =>
        simp only [bind, Except.bind]
        cases world.root.at? there with
        | none => rfl
        | some found =>
            cases found with
            | file bytes | dir entries => rfl
            | link target =>
                simp [pure, Except.pure, Except.toOption, Option.filter, Node.isDir, Node.files]

end RepoContract
