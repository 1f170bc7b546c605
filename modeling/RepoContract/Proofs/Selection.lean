/-
# RepoContract.Proofs.Selection: which files a scan lists

A scan walks a tree and looks into no directory that it does not enter, so whether it lists a file
is not said by the file alone. It is said by the file's location: a file is eligible when its own
path is accepted (`Includable`) and when every directory between the root and the file can be
entered (`Reachable`), and a filter takes just the eligible ones (`Eligibility.takes_iff`).
With what a walk yields, a scan lists exactly the eligible regular files below the tree to which
the root leads, each once (`World.scan_selects`). The names of the root itself play no part, as
locations start below it.
-/
import Mathlib.Tactic.MkIffOfInductiveProp
import RepoContract.Language.BuiltIn
import RepoContract.Proofs.Eligibility
import RepoContract.Proofs.Tree.Walk

namespace RepoContract

set_option autoImplicit false

/-- Whether a text is a glob that matches a path. -/
def Glob.hits (text : String) (path : Path) : Bool :=
  match parse text with
  | .ok tokens => isMatch tokens path
  | .error _ => false

/-- A directory below the root into which a scan looks: its name is neither hidden nor denied, and
no glob for directories matches it. A name that is not text is neither hidden nor denied. -/
@[mk_iff]
structure Enterable (excludes : List String) (names : List Name) : Prop where
  shown : ∀ name ∈ names.getLast?, ∀ text ∈ Text.Utf8.decode? name,
    text.head? ≠ some '.' ∧ String.ofList text ∉ Eligibility.deniedDirs
  unmatched : ∀ glob ∈ Eligibility.fixtureGlobs ++ excludes,
    Glob.hits glob (.ofNames names) = false

/-- Every directory between the root and a location can be entered. -/
def Reachable (excludes : List String) (names : List Name) : Prop :=
  ∀ dir, dir <+: names → dir ≠ [] → dir ≠ names → Enterable excludes dir

/-- A file below the root whose own path is accepted: it has one of some extensions, and no glob
for files matches it. -/
@[mk_iff]
structure Includable (extensions excludes : List String) (names : List Name) : Prop where
  extension : ∃ extension ∈ extensions, (Path.ofNames names).extensionText? = some extension
  unmatched : ∀ glob ∈ Eligibility.minifiedGlobs ++ excludes,
    Glob.hits glob (.ofNames names) = false

/-- A file below the root that a scan lists, by its location. -/
@[mk_iff]
structure Eligible (extensions excludes : List String) (names : List Name) : Prop where
  includable : Includable extensions excludes names
  reachable : Reachable excludes names

instance (excludes : List String) (names : List Name) : Decidable (Enterable excludes names) :=
  decidable_of_iff' _ (enterable_iff excludes names)

instance (excludes : List String) (names : List Name) : Decidable (Reachable excludes names) :=
  decidable_of_iff (∀ dir ∈ names.inits, dir ≠ [] → dir ≠ names → Enterable excludes dir)
    (by simp only [List.mem_inits, Reachable])

instance (extensions excludes : List String) (names : List Name) :
    Decidable (Includable extensions excludes names) :=
  decidable_of_iff' _ (includable_iff extensions excludes names)

instance (extensions excludes : List String) (names : List Name) :
    Decidable (Eligible extensions excludes names) :=
  decidable_of_iff' _ (eligible_iff extensions excludes names)

/-- What is eligible is so for more extensions and for fewer globs too. -/
theorem Eligible.mono {extensions more excludes fewer : List String} {names : List Name}
    (eligible : Eligible extensions excludes names)
    (isMore : ∀ extension ∈ extensions, extension ∈ more)
    (isFewer : ∀ glob ∈ fewer, glob ∈ excludes) : Eligible more fewer names where
  includable := by
    obtain ⟨⟨extension, isListed, isExtension⟩, unmatched⟩ := eligible.includable
    refine ⟨⟨extension, isMore extension isListed, isExtension⟩, fun glob given => ?_⟩
    exact unmatched glob (List.mem_append.2 ((List.mem_append.1 given).imp_right (isFewer glob)))
  reachable dir leads filled differs := by
    obtain ⟨shown, unmatched⟩ := eligible.reachable dir leads filled differs
    refine ⟨shown, fun glob given => ?_⟩
    exact unmatched glob (List.mem_append.2 ((List.mem_append.1 given).imp_right (isFewer glob)))

/-! ## The filter of a scan -/

namespace Eligibility

variable {extensions excludes : List String} {found : Filter} {names : List Name}

/-- Globs that are read together match where one of them does. -/
theorem anyMatch_of_readGlobs {globs : List String} {read : List (List Glob.Token)}
    (isRead : readGlobs globs = .ok read) (path : Path) :
    Glob.anyMatch read path = globs.any (Glob.hits · path) := by
  rcases mapM_readGlob_verdict globs with ⟨tokens, isTokens, there, back⟩ | ⟨_, _, _, _, stops⟩
  · have same : tokens = read := by
      rw [readGlobs_of_ok isTokens] at isRead
      split at isRead
      · contradiction
      · exact Except.ok.inj isRead
    subst same
    rw [Bool.eq_iff_iff, Glob.anyMatch, List.any_eq_true, List.any_eq_true]
    constructor
    · rintro ⟨item, isItem, matched⟩
      obtain ⟨glob, given, parsed⟩ := back item isItem
      exact ⟨glob, given, by rwa [Glob.hits, parsed]⟩
    · rintro ⟨glob, given, matched⟩
      obtain ⟨item, isItem, parsed⟩ := there glob given
      rw [Glob.hits, parsed] at matched
      exact ⟨item, isItem, matched⟩
  · rw [readGlobs_of_error stops] at isRead
    contradiction

/-- A filter tests a file's extension and a directory's name, and tries the globs of the user
behind the fixed ones. -/
theorem filter_spec (isFilter : filter extensions excludes = .ok found) (path : Path) :
    found.includes path =
      (hasExtension extensions path && !(minifiedGlobs ++ excludes).any (Glob.hits · path)) ∧
    found.enters path =
      (!path.fileName?.any isDeniedName && !(fixtureGlobs ++ excludes).any (Glob.hits · path)) := by
  rw [filter] at isFilter
  cases dirs : readGlobs (fixtureGlobs ++ excludes) with
  | error fault => simp [dirs, bind, Except.bind] at isFilter
  | ok dirGlobs =>
      cases files : readGlobs (minifiedGlobs ++ excludes) with
      | error fault => simp [dirs, files, bind, Except.bind] at isFilter
      | ok fileGlobs =>
          simp only [dirs, files, bind, Except.bind, pure, Except.pure, Except.ok.injEq] at isFilter
          subst isFilter
          exact ⟨by rw [← anyMatch_of_readGlobs files], by rw [← anyMatch_of_readGlobs dirs]⟩

theorem isDeniedName_eq_false_iff {name : Name} :
    isDeniedName name = false ↔ ∀ text ∈ Text.Utf8.decode? name,
      text.head? ≠ some '.' ∧ String.ofList text ∉ deniedDirs := by
  unfold isDeniedName
  cases Text.Utf8.decode? name <;> simp

theorem hasExtension_iff {path : Path} :
    hasExtension extensions path = true ↔
      ∃ extension ∈ extensions, path.extensionText? = some extension := by
  unfold hasExtension
  cases path.extensionText? <;> simp

theorem enters_iff (isFilter : filter extensions excludes = .ok found)
    (entries : ∀ name ∈ names, Path.IsEntryName name) :
    found.enters (.ofNames names) = true ↔ Enterable excludes names := by
  rw [(filter_spec isFilter _).2, Path.fileName?_ofNames entries, Bool.and_eq_true,
    Bool.not_eq_true', Bool.not_eq_true', List.any_eq_false, Option.any_eq_false, enterable_iff]
  simp only [Bool.not_eq_true, isDeniedName_eq_false_iff, Option.mem_def]

theorem includes_iff (isFilter : filter extensions excludes = .ok found) :
    found.includes (.ofNames names) = true ↔ Includable extensions excludes names := by
  rw [(filter_spec isFilter _).1, Bool.and_eq_true, Bool.not_eq_true', List.any_eq_false,
    hasExtension_iff, includable_iff]
  simp only [Bool.not_eq_true]

theorem reaches_iff (isFilter : filter extensions excludes = .ok found)
    (entries : ∀ name ∈ names, Path.IsEntryName name) :
    found.reaches 0 names = true ↔ Reachable excludes names := by
  rw [Filter.reaches_iff]
  constructor
  · intro enters dir leads filled differs
    have isTake := List.prefix_iff_eq_take.1 leads
    have proper : dir.length < names.length :=
      lt_of_le_of_ne leads.length_le fun same => differs (leads.eq_of_length same)
    have entered := enters dir.length (List.length_pos_of_ne_nil filled) proper
    rw [← isTake] at entered
    exact (enters_iff isFilter fun name isName => entries name (leads.subset isName)).1 entered
  · intro entered count deeper isInside
    have leads := List.take_prefix count names
    refine (enters_iff isFilter fun name isName => entries name (leads.subset isName)).2
      (entered _ leads ?_ ?_)
    · exact List.ne_nil_of_length_pos (by rw [List.length_take]; omega)
    · intro whole
      have := congrArg List.length whole
      rw [List.length_take] at this
      omega

/-- **A filter takes the eligible files.** -/
theorem takes_iff (isFilter : filter extensions excludes = .ok found)
    (entries : ∀ name ∈ names, Path.IsEntryName name) :
    found.takes names = true ↔ Eligible extensions excludes names := by
  rw [Filter.takes, Bool.and_eq_true, includes_iff isFilter, reaches_iff isFilter entries,
    eligible_iff]

/-- A walk with a filter yields those of all files that are eligible. -/
theorem files_eq (isFilter : filter extensions excludes = .ok found) {tree : Node}
    (proper : tree.isProper = true) :
    tree.files found [] =
      (tree.files Node.everything []).filter fun names => Eligible extensions excludes names := by
  rw [Node.files_eq_filter]
  refine List.filter_congr fun names isFile => ?_
  obtain ⟨below, bytes, rfl, here⟩ := (Node.mem_everything_iff proper).1 isFile
  rw [Bool.eq_iff_iff, decide_eq_true_iff]
  exact takes_iff isFilter (Node.isProper_at? proper here).1

/-- A filter never includes the root, as an empty path has no extension. -/
theorem includes_root (isFilter : filter extensions excludes = .ok found) :
    found.includes (.ofNames []) = false := by
  rw [(filter_spec isFilter _).1]
  rfl

end Eligibility

/-! ## The files of a scan -/

/-- Nothing is left out of paths that are all in different places. -/
theorem FileList.distinct_eq_self {paths : List Path}
    (differ : paths.Pairwise fun path other => samePlace path other = false) :
    distinct paths = paths := by
  induction differ with
  | nil => rfl
  | cons first _ ih =>
      rw [distinct, ih, List.filter_eq_self.2]
      intro other isOther
      rw [first other isOther]
      rfl

/-- The names in a text with slashes between them. -/
def Path.names (text : String) : List Name :=
  parts (ofString text).bytes

namespace Node

/-- The directory with some entries. -/
def ofEntries (entries : List (String × Node)) : Node :=
  .dir (entries.map fun (name, node) => ((Path.ofString name).bytes, node))

/-- The file with a text. -/
def ofText (text : String) : Node :=
  .file (Text.Utf8.encode text.toList)

end Node

namespace World

variable {world : World} {root : Path} {tree : Node} {names : List Name}

theorem bytes_ne_nil_of_node (leads : world.node root = .ok tree) : root.bytes ≠ [] := by
  obtain ⟨there, located, -⟩ := node_eq_ok_iff.1 leads
  exact bytes_ne_nil_of_locate located

/-- Where a root leads in a proper world stands a proper tree. -/
theorem isProper_of_node (proper : world.root.isProper = true)
    (leads : world.node root = .ok tree) : tree.isProper = true := by
  obtain ⟨there, -, isTree⟩ := node_eq_ok_iff.1 leads
  exact (Node.isProper_at? proper isTree).2

/-- The files that a filter takes from a proper tree, in the order of the tree. -/
theorem walk_of_node {filter : Filter} (unnamed : filter.includes (.ofNames []) = false)
    (leads : world.node root = .ok tree) :
    world.walk filter root = (tree.files filter []).map root.descend := by
  rw [walk_eq world root unnamed, leads]

/-- The files of a walk are in different places. -/
theorem pairwise_walk {filter : Filter} (proper : tree.isProper = true) (filled : root.bytes ≠ []) :
    ((tree.files filter []).map root.descend).Pairwise
      fun path other => FileList.samePlace path other = false := by
  rw [List.pairwise_map]
  refine (Node.nodup_files proper).imp_of_mem fun {first second} isFirst isSecond differ => ?_
  obtain ⟨⟨_, first⟩, -⟩ := (Node.mem_files_iff proper).1 isFirst
  obtain ⟨⟨_, second⟩, -⟩ := (Node.mem_files_iff proper).1 isSecond
  rw [← Bool.not_eq_true]
  exact fun same => differ (Path.descend_injective filled (Node.isProper_at? proper first).1
    (Node.isProper_at? proper second).1 same)

theorem scan_of_filter_error {languages : LanguageTable} {declared excludes : List String}
    {fault : Fault}
    (stops : Eligibility.filter (languages.extensionsFor declared) excludes = .error fault) :
    world.scan root languages declared excludes = .error fault := by
  rw [scan, stops]
  rfl

/-- A root that leads nowhere has no files. -/
theorem scan_of_missing {languages : LanguageTable} {declared excludes : List String}
    {found : Filter}
    (isFilter : Eligibility.filter (languages.extensionsFor declared) excludes = .ok found)
    (missing : ∀ tree, world.node root ≠ .ok tree) :
    world.scan root languages declared excludes = .ok ⟨root, []⟩ := by
  have none : world.walk found root = [] := by
    rw [walk_eq world root (Eligibility.includes_root isFilter)]
    cases leads : world.node root with
    | error cause => rfl
    | ok tree => exact absurd leads (missing tree)
  rw [scan, isFilter]
  simp only [bind, Except.bind, pure, Except.pure, none]
  rfl

/-- The scan of a proper tree lists the files that its filter takes, in the order of the tree. -/
theorem scan_of_node {languages : LanguageTable} {declared excludes : List String} {found : Filter}
    (isFilter : Eligibility.filter (languages.extensionsFor declared) excludes = .ok found)
    (proper : tree.isProper = true) (leads : world.node root = .ok tree) :
    world.scan root languages declared excludes =
      .ok ⟨root, (tree.files found []).map root.descend⟩ := by
  have filled := bytes_ne_nil_of_node leads
  rw [scan, isFilter]
  simp only [bind, Except.bind, pure, Except.pure, FileList.ofPaths,
    walk_of_node (Eligibility.includes_root isFilter) leads,
    FileList.distinct_eq_self (pairwise_walk proper filled)]

/-- A scan that succeeds lists nothing where the root leads nowhere, and else what its filter takes. -/
theorem files_of_scan {languages : LanguageTable} {declared excludes : List String}
    {list : FileList} (proper : world.root.isProper = true)
    (lists : world.scan root languages declared excludes = .ok list) :
    ∃ found, Eligibility.filter (languages.extensionsFor declared) excludes = .ok found ∧
      ((∃ cause, world.node root = .error cause) ∧ list = ⟨root, []⟩ ∨
        ∃ tree, world.node root = .ok tree ∧ tree.isProper = true ∧
          list = ⟨root, (tree.files found []).map root.descend⟩) := by
  cases isFilter : Eligibility.filter (languages.extensionsFor declared) excludes with
  | error fault => cases lists.symm.trans (scan_of_filter_error isFilter)
  | ok found =>
      refine ⟨found, rfl, ?_⟩
      cases leads : world.node root with
      | error cause =>
          have missing (tree : Node) : world.node root ≠ .ok tree := by
            rw [leads]
            nofun
          cases lists.symm.trans (scan_of_missing isFilter missing)
          exact .inl ⟨⟨cause, rfl⟩, rfl⟩
      | ok tree =>
          have treeProper := isProper_of_node proper leads
          cases lists.symm.trans (scan_of_node isFilter treeProper leads)
          exact .inr ⟨tree, rfl, treeProper, rfl⟩

/-- **Where more is eligible, a scan lists no less**, in the same order. -/
theorem scan_sublist {table : LanguageTable} {declared others excludes fewer : List String}
    {found wider : Filter} (proper : world.root.isProper = true)
    (isFilter : Eligibility.filter (table.extensionsFor declared) excludes = .ok found)
    (isWider : Eligibility.filter (table.extensionsFor others) fewer = .ok wider)
    (isMore : ∀ names, Eligible (table.extensionsFor declared) excludes names →
      Eligible (table.extensionsFor others) fewer names) :
    ∃ listed widerListed, world.scan root table declared excludes = .ok ⟨root, listed⟩ ∧
      world.scan root table others fewer = .ok ⟨root, widerListed⟩ ∧
      listed.Sublist widerListed := by
  cases leads : world.node root with
  | error cause =>
      have missing (tree : Node) : world.node root ≠ .ok tree := by
        rw [leads]
        nofun
      exact ⟨[], [], scan_of_missing isFilter missing, scan_of_missing isWider missing,
        List.Sublist.refl _⟩
  | ok tree =>
      have proper := isProper_of_node proper leads
      refine ⟨_, _, scan_of_node isFilter proper leads, scan_of_node isWider proper leads,
        List.Sublist.map _ ?_⟩
      rw [Eligibility.files_eq isFilter proper, Eligibility.files_eq isWider proper]
      refine List.monotone_filter_right _ fun names eligible => ?_
      exact decide_eq_true (isMore names (of_decide_eq_true eligible))

/-- A scan lists nothing just when its filter takes no file of the tree to which the root leads. -/
theorem scan_eq_nil_iff {table : LanguageTable} {declared excludes : List String} {found : Filter}
    {tree : Node}
    (isFilter : Eligibility.filter (table.extensionsFor declared) excludes = .ok found)
    (leads : world.node root = .ok tree) :
    world.scan root table declared excludes = .ok ⟨root, []⟩ ↔ tree.files found [] = [] := by
  rw [scan, isFilter]
  simp only [bind, Except.bind, pure, Except.pure, FileList.ofPaths,
    walk_of_node (Eligibility.includes_root isFilter) leads]
  cases tree.files found [] with
  | nil => simp [FileList.distinct]
  | cons names rest => simp [FileList.distinct]

/-- The eligible files of a world below a root: no two of a list's files are in one place, and
those listed are the regular files at eligible locations of the tree to which the root leads. -/
structure Selects (world : World) (root : Path) (extensions excludes : List String)
    (list : FileList) : Prop where
  distinct : list.files.Pairwise fun path other => FileList.samePlace path other = false
  mem_iff : ∀ path, path ∈ list.files ↔ ∃ tree names bytes, world.node root = .ok tree ∧
    tree.at? names = some (.file bytes) ∧ Eligible extensions excludes names ∧
    path = root.descend names
  contains_iff : ∀ names, (∀ name ∈ names, Path.IsEntryName name) →
    (list.contains (root.descend names) = true ↔ ∃ tree bytes, world.node root = .ok tree ∧
      tree.at? names = some (.file bytes) ∧ Eligible extensions excludes names)
  /-- What the filter saw of a listed file is what is left when the root is taken off its path. -/
  relative : ∀ names, (∀ name ∈ names, Path.IsEntryName name) → root.descend names ∈ list.files →
    list.relative (root.descend names) = .ofNames names
  missing : (∀ tree, world.node root ≠ .ok tree) → list.files = []

/-- Nothing is eligible below a root that leads nowhere. -/
theorem selects_nil (extensions excludes : List String)
    (missing : ∀ tree, world.node root ≠ .ok tree) :
    world.Selects root extensions excludes ⟨root, []⟩ := by
  refine ⟨.nil, fun path => ?_, fun names _ => ?_, nofun, fun _ => rfl⟩
  · refine iff_of_false List.not_mem_nil ?_
    rintro ⟨tree, _, _, leads, -⟩
    exact missing tree leads
  · refine iff_of_false Bool.false_ne_true ?_
    rintro ⟨tree, _, leads, -⟩
    exact missing tree leads

/-- Where a root leads to a proper tree, the files that the filter of a scan takes are the eligible
ones. -/
theorem selects_files {extensions excludes : List String} {found : Filter}
    (isFilter : Eligibility.filter extensions excludes = .ok found)
    (proper : tree.isProper = true) (leads : world.node root = .ok tree) :
    world.Selects root extensions excludes ⟨root, (tree.files found []).map root.descend⟩ := by
  have filled := bytes_ne_nil_of_node leads
  have isFile (names : List Name) : names ∈ tree.files found [] ↔
      (∃ bytes, tree.at? names = some (.file bytes)) ∧ Eligible extensions excludes names := by
    rw [Node.mem_files_iff proper]
    refine and_congr_right fun ⟨_, here⟩ => ?_
    exact Eligibility.takes_iff isFilter (Node.isProper_at? proper here).1
  constructor
  case distinct => exact pairwise_walk proper filled
  case mem_iff =>
    intro path
    rw [List.mem_map]
    constructor
    · rintro ⟨names, isListed, rfl⟩
      obtain ⟨⟨bytes, here⟩, eligible⟩ := (isFile names).1 isListed
      exact ⟨tree, names, bytes, leads, here, eligible, rfl⟩
    · rintro ⟨other, names, bytes, leadsOther, here, eligible, rfl⟩
      cases leads.symm.trans leadsOther
      exact ⟨names, (isFile names).2 ⟨⟨bytes, here⟩, eligible⟩, rfl⟩
  case contains_iff =>
    intro names entries
    rw [FileList.contains, List.any_eq_true]
    constructor
    · rintro ⟨path, isPath, same⟩
      obtain ⟨other, isListed, rfl⟩ := List.mem_map.1 isPath
      obtain ⟨⟨bytes, here⟩, eligible⟩ := (isFile other).1 isListed
      cases Path.descend_injective filled entries (Node.isProper_at? proper here).1 same
      exact ⟨tree, bytes, leads, here, eligible⟩
    · rintro ⟨other, bytes, leadsOther, here, eligible⟩
      cases leads.symm.trans leadsOther
      refine ⟨_, List.mem_map_of_mem ((isFile names).2 ⟨⟨bytes, here⟩, eligible⟩), ?_⟩
      rw [FileList.samePlace, beq_self_eq_true]
  case relative =>
    intro names entries _
    exact Path.relativeTo_descend filled entries
  case missing => exact fun missing => absurd leads (missing tree)

/-- **A scan selects the eligible files.** It fails exactly when a glob of the user cannot be used;
else its list holds each regular file below the root that is eligible, and nothing else. -/
theorem scan_selects (world : World) (root : Path) (languages : LanguageTable)
    (declared excludes : List String) (proper : world.root.isProper = true) :
    ((∃ fault, world.scan root languages declared excludes = .error fault) ↔
      ∃ glob ∈ excludes, Glob.isUsable glob = false) ∧
    ∀ list, world.scan root languages declared excludes = .ok list →
      world.Selects root (languages.extensionsFor declared) excludes list := by
  constructor
  · rcases world.scan_verdict root languages declared excludes with
      ⟨list, lists, usable⟩ | ⟨fault, stops, faulty⟩
    · refine iff_of_false ?_ ?_
      · rintro ⟨fault, stops⟩
        cases lists.symm.trans stops
      · rintro ⟨glob, given, unusable⟩
        rw [usable glob given] at unusable
        contradiction
    · exact iff_of_true ⟨fault, stops⟩ faulty.exists_unusable
  · intro list lists
    cases isFilter : Eligibility.filter (languages.extensionsFor declared) excludes with
    | error fault => cases lists.symm.trans (scan_of_filter_error isFilter)
    | ok found =>
        cases leads : world.node root with
        | error cause =>
            have missing (tree : Node) : world.node root ≠ .ok tree := by
              rw [leads]
              nofun
            cases lists.symm.trans (scan_of_missing isFilter missing)
            exact selects_nil _ _ missing
        | ok tree =>
            have proper := isProper_of_node proper leads
            cases lists.symm.trans (scan_of_node isFilter proper leads)
            exact selects_files isFilter proper leads

/-- A hidden project behind a link, with files that a scan lists and others that it does not. -/
def linkedProject : World :=
  ⟨.ofEntries [
    ("repo", .link (Path.ofString "work/.repo")),
    ("work", .ofEntries [(".repo", .ofEntries [
      ("a.min.js", .ofText ""),
      ("lib", .ofEntries [("b.js", .ofText ""), ("c.js", .link (Path.ofString "b.js"))]),
      ("node_modules", .ofEntries [("lib", .ofEntries [("b.js", .ofText "")])]),
      ("old", .ofEntries [("b.js", .ofText "")])])])], []⟩

theorem node_linkedProject : ∃ tree, linkedProject.node (Path.ofString "repo") = .ok tree ∧
    linkedProject.root.at? (Path.names "work/.repo") = some tree := by
  obtain ⟨entries, isDir⟩ := Node.occupantAt?_eq_dir_iff.1
    (by decide +kernel :
      linkedProject.root.occupantAt? (Path.names "work/.repo") = some .dir)
  refine ⟨_, node_eq_ok_iff.2 ⟨_, ?_, isDir⟩, isDir⟩
  -- the link is replaced by its target, and its two moves lead to directories
  have start : linkedProject.startOf (Path.ofString "repo") = [] := by decide +kernel
  have moves : (Path.ofString "repo").moves = [.down (Path.ofString "repo").bytes] := by
    decide +kernel
  have atRoot : linkedProject.root.occupantAt? [] = some .dir := by decide +kernel
  have atLink : linkedProject.root.occupantAt? [(Path.ofString "repo").bytes] =
      some (.link (Path.ofString "work/.repo")) := by
    decide +kernel
  have relative : (Path.ofString "work/.repo").isAbsolute = false := by decide +kernel
  have target : (Path.ofString "work/.repo").moves = (Path.names "work/.repo").map .down := by
    decide +kernel
  have names : Path.names "work/.repo" =
      [(Path.ofString "work").bytes, (Path.ofString ".repo").bytes] := by
    decide +kernel
  have atWork : linkedProject.root.occupantAt? [(Path.ofString "work").bytes] = some .dir := by
    decide +kernel
  have atRepo : linkedProject.root.occupantAt?
      [(Path.ofString "work").bytes, (Path.ofString ".repo").bytes] = some .dir := by
    decide +kernel
  rw [locate_of_ne_nil .follow (by decide +kernel), start, moves]
  simp [locateFrom_cons, locateFrom_nil, atRoot, atLink, relative, target, names, atWork, atRepo]

/-- Behind the link the file in `lib` is listed, though the project is hidden. -/
theorem scan_selects_linkedProject :
    linkedProject.root.isProper = true ∧
    (∃ fault, linkedProject.scan (Path.ofString "repo") .builtIn ["javascript"] ["old", "lib/["] =
      .error fault) ∧
    ∃ list, linkedProject.scan (Path.ofString "repo") .builtIn ["javascript"] ["old"] = .ok list ∧
      list.contains (Path.ofString "repo/lib/b.js") = true ∧
      ∀ other ∈ ["a.min.js", "lib/c.js", "old/b.js", "node_modules/lib/b.js"],
        list.contains ((Path.ofString "repo").descend (Path.names other)) = false := by
  have proper : linkedProject.root.isProper = true := by decide +kernel
  obtain ⟨tree, leads, isTree⟩ := node_linkedProject
  refine ⟨proper, ?_, ?_⟩
  · refine (scan_selects linkedProject _ .builtIn _ _ proper).1.2 ⟨"lib/[", ?_, ?_⟩
    · decide
    · decide +kernel
  · obtain ⟨fails, selects⟩ :=
      scan_selects linkedProject (Path.ofString "repo") .builtIn ["javascript"] ["old"] proper
    cases lists : linkedProject.scan (Path.ofString "repo") .builtIn ["javascript"] ["old"] with
    | error fault =>
        obtain ⟨glob, given, unusable⟩ := fails.1 ⟨fault, lists⟩
        rw [List.mem_singleton.1 given] at unusable
        exact absurd unusable (by decide +kernel)
    | ok list =>
        have contains_iff := (selects list lists).contains_iff
        have isPath : Path.ofString "repo/lib/b.js" =
            (Path.ofString "repo").descend (Path.names "lib/b.js") := by
          decide +kernel
        refine ⟨list, rfl, ?_, ?_⟩
        · have there : linkedProject.root.at? (Path.names "work/.repo" ++ Path.names "lib/b.js") =
              some (.ofText "") := by
            rfl
          rw [Node.at?_append, isTree] at there
          rw [isPath, contains_iff _ (by decide +kernel)]
          exact ⟨tree, _, leads, there, by decide +kernel⟩
        · intro other isOther
          have entries : ∀ name ∈ Path.names other, Path.IsEntryName name := by
            revert other
            decide +kernel
          have refused : linkedProject.root.occupantAt?
                  (Path.names "work/.repo" ++ Path.names other) =
                some (.link (Path.ofString "b.js")) ∨
              ¬ Eligible (LanguageTable.builtIn.extensionsFor ["javascript"]) ["old"]
                (Path.names other) := by
            revert other
            decide +kernel
          rw [← Bool.not_eq_true, contains_iff _ entries]
          rintro ⟨found, bytes, leadsFound, here, eligible⟩
          cases leads.symm.trans leadsFound
          rcases refused with isLink | ineligible
          · rw [Node.occupantAt?_append isTree, Node.occupantAt?_of_at? here] at isLink
            simp [Node.occupant] at isLink
          · exact ineligible eligible

end World

end RepoContract
