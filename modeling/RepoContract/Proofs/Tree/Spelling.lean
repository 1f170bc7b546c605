/-
# RepoContract.Proofs.Tree.Spelling: one directory under two spellings

A directory can be named in many ways: with idle dots and slashes, up again and back, from the root
of the world, through a link. What stands below it is the same under each of them, with one
exception. Every link on the way is counted, those of the directory's own path too, so a link below
it can be one too many under one spelling and not under another. Where it is not, more links to
spare change nothing (`locateFrom_links`), and a document below the directory reads the same
(`World.read_of_respelled`).

A walk carries the path of the root along as text, and shows its filter what is left of a path when
the root is taken off (`World.walkByText`). The spelling of the root is then taken off again
wherever it was put, so the walk lists what a walk by names lists (`World.walk_eq_walkByText`), and
each path that it lists lies below the root by its components (`Path.below?_descend`).
-/
import RepoContract.Proofs.Path.Descend
import RepoContract.Proofs.Selection

namespace RepoContract

set_option autoImplicit false

/-! ## Links to spare -/

/-- **More links to spare change nothing**, unless there are too few. -/
theorem locateFrom_links (root : Node) (final : Final) (here : List Name) (moves : List Move)
    {links more : Nat} (enough : links ≤ more) :
    locateFrom root final links here moves = .error .tooManyLinks ∨
      locateFrom root final more here moves = locateFrom root final links here moves := by
  induction links, here, moves using follow_induction generalizing more with
  | nil links here => exact .inr (by rw [locateFrom_nil, locateFrom_nil])
  | cons links here move rest fewer earlier =>
      rw [locateFrom_cons, locateFrom_cons]
      cases root.occupantAt? here with
      | none => exact .inr rfl
      | some occupant =>
          cases occupant with
          | file bytes | link target => exact .inr rfl
          | dir =>
              cases move with
              | idle | stay | up => exact fewer _ enough
              | down name =>
                  dsimp only
                  split
                  · exact .inr rfl
                  · cases root.occupantAt? (here ++ [name]) with
                    | none => exact .inr rfl
                    | some next =>
                        cases next with
                        | file bytes | dir => exact fewer _ enough
                        | link target =>
                            dsimp only
                            split
                            · exact .inr rfl
                            · cases links with
                              | zero => exact .inl rfl
                              | succ left =>
                                  cases more with
                                  | zero => omega
                                  | succ spare => exact earlier left rfl _ _ (by omega)

/-- Moves lead to the same location with any two numbers of links to spare, unless these are too few
in one case only. -/
theorem locateFrom_alike {root : Node} {final : Final} {here : List Name} {moves : List Move}
    {links other : Nat}
    (alike : locateFrom root final links here moves = .error .tooManyLinks ↔
      locateFrom root final other here moves = .error .tooManyLinks) :
    locateFrom root final links here moves = locateFrom root final other here moves := by
  have ordered {few many : Nat} (enough : few ≤ many)
      (alike : locateFrom root final few here moves = .error .tooManyLinks →
        locateFrom root final many here moves = .error .tooManyLinks) :
      locateFrom root final few here moves = locateFrom root final many here moves := by
    rcases locateFrom_links root final here moves enough with tooFew | same
    · rw [tooFew, alike tooFew]
    · exact same.symm
  rcases Nat.le_total links other with enough | enough
  · exact ordered enough alike.1
  · exact (ordered enough alike.2).symm

namespace World

variable {world : World} {first second : Path} {there : List Name}

theorem follow_of_locate {path : Path} (leads : world.locate .follow path = .ok there) :
    world.follow path = .ok there := by
  rwa [locate_of_ne_nil .follow (bytes_ne_nil_of_locate leads)] at leads

/-- **A document below a directory reads the same under two spellings of the directory**, unless
under one of them only there are too many links on the way. -/
theorem read_of_respelled {name : Name} (firstLeads : world.locate .follow first = .ok there)
    (secondLeads : world.locate .follow second = .ok there) (entry : Path.IsEntryName name)
    (alike : world.locate .follow (first.join ⟨name⟩) = .error .tooManyLinks ↔
      world.locate .follow (second.join ⟨name⟩) = .error .tooManyLinks) :
    world.read (first.join ⟨name⟩) = world.read (second.join ⟨name⟩) := by
  obtain ⟨firstLeft, fromFirst⟩ := world.locate_join .follow first entry
  obtain ⟨secondLeft, fromSecond⟩ := world.locate_join .follow second entry
  rw [follow_of_locate firstLeads] at fromFirst
  rw [follow_of_locate secondLeads] at fromSecond
  rw [fromFirst, fromSecond] at alike
  have same : world.locate .follow (first.join ⟨name⟩) = world.locate .follow (second.join ⟨name⟩) := by
    rw [fromFirst, fromSecond]
    exact locateFrom_alike alike
  rw [read_eq, read_eq, occupantOf?, occupantOf?, same]

/-- A document that is no link is found without any links to spare. -/
theorem locate_ne_tooManyLinks {path : Path} {name : Name} {entries : List (Name × Node)}
    (leads : world.locate .follow path = .ok there)
    (isDir : world.root.at? there = some (.dir entries)) (entry : Path.IsEntryName name)
    (noLink : ∀ target, world.root.occupantAt? (there ++ [name]) ≠ some (.link target)) :
    world.locate .follow (path.join ⟨name⟩) ≠ .error .tooManyLinks := by
  have noLink (target : Path) : entries.lookup name ≠ some (.link target) := fun isLink =>
    noLink target (by rw [Node.occupantAt?_concat isDir, isLink]; rfl)
  obtain ⟨left, goesOn⟩ := world.locate_join .follow path entry
  rw [goesOn, follow_of_locate leads, Except.bind, locateFrom_down isDir noLink]
  split <;> nofun

end World

/-! ## Paths as text -/

/-- What is left of the path of an entry when the root is taken off are the names that lead to it. -/
theorem Path.below?_descend {root : Path} {names : List Name} (filled : root.bytes ≠ [])
    (entries : ∀ name ∈ names, IsEntryName name) :
    below? root (root.descend names) = some (ofNames names) := by
  have isBelow : (below? root (root.descend names)).isSome = true := by
    rw [below?, components_descend filled entries,
      if_pos (List.isPrefixOf_iff_prefix.2 (List.prefix_append _ _))]
    split <;> rfl
  obtain ⟨rest, isRest⟩ := Option.isSome_iff_exists.1 isBelow
  have same := relativeTo_descend filled entries
  rw [relativeTo, isRest] at same
  rw [isRest, ← same]
  rfl

namespace Node

mutual

/-- The files of a node that stands at a path. The filter is shown what is left of a path when the
root is taken off, or the path itself where that fails. -/
def paths (filter : Filter) (root path : Path) : Node → List Path
  | .file _ => if filter.includes (path.relativeTo root) then [path] else []
  | .link _ => []
  | .dir entries => pathsOf filter root path entries

def pathsOf (filter : Filter) (root path : Path) : List (Name × Node) → List Path
  | [] => []
  | (name, node) :: rest =>
    let here := path.join ⟨name⟩
    (if node.isDir && !filter.enters (here.relativeTo root) then [] else paths filter root here node)
      ++ pathsOf filter root path rest

end

theorem pathsOf_eq_flatMap (filter : Filter) (root path : Path) (entries : List (Name × Node)) :
    pathsOf filter root path entries = entries.flatMap fun entry =>
      let here := path.join ⟨entry.1⟩
      if entry.2.isDir && !filter.enters (here.relativeTo root) then []
      else paths filter root here entry.2 := by
  induction entries with
  | nil => rw [pathsOf, List.flatMap_nil]
  | cons entry rest ih => rw [pathsOf, List.flatMap_cons, ih]

/-- **A walk by text lists what a walk by names does**, however the root is spelled. -/
theorem paths_descend (filter : Filter) {root : Path} (filled : root.bytes ≠ []) {node : Node}
    (proper : node.isProper = true) {base : List Name}
    (entries : ∀ name ∈ base, Path.IsEntryName name) :
    node.paths filter root (root.descend base) = (node.files filter base).map root.descend := by
  induction node using entries_induction generalizing base with
  | file bytes =>
      rw [paths, files, Path.relativeTo_descend filled entries]
      split <;> rfl
  | link target => rw [paths, files, List.map_nil]
  | dir children ih =>
      rw [paths, files, pathsOf_eq_flatMap, filesOf_eq_flatMap, List.map_flatMap]
      refine List.flatMap_congr fun entry isEntry => ?_
      obtain ⟨isName, childProper⟩ := (isProper_dir_iff.1 proper).2 entry isEntry
      have below : ∀ name ∈ base ++ [entry.1], Path.IsEntryName name :=
        List.forall_mem_append.2 ⟨entries, List.forall_mem_singleton.2 isName⟩
      simp only [← Path.descend_concat, Path.relativeTo_descend filled below,
        ih entry isEntry childProper below]
      split <;> rfl

end Node

namespace World

variable {world : World} {root : Path}

/-- The files below a root, by the paths that a walk by text goes through. -/
def walkByText (world : World) (filter : Filter) (root : Path) : List Path :=
  match world.node root with
  | .ok tree => tree.paths filter root root
  | .error _ => []

/-- **The spelling of the root cancels in a walk.** What its filter is shown are the names below the
root, though the walk goes through paths that start with the root as it is spelled. -/
theorem walk_eq_walkByText {filter : Filter} (unnamed : filter.includes (.ofNames []) = false)
    (proper : world.root.isProper = true) :
    world.walk filter root = world.walkByText filter root := by
  rw [walk_eq world root unnamed, walkByText]
  cases leads : world.node root with
  | error cause => rfl
  | ok tree =>
      exact (Node.paths_descend filter (bytes_ne_nil_of_node leads)
        (isProper_of_node proper leads) (List.forall_mem_nil _)).symm

end World

end RepoContract
