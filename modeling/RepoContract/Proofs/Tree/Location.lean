/-
# RepoContract.Proofs.Tree.Location: what following a path depends on

A path is followed by looking at what stands at each location on its way: a file, a link, or a
directory. What a directory holds shows only in what stands below it, so a tree is told by its
occupants (`Node.occupantAt?`), and nothing else of it decides where a path leads
(`locateFrom_cons`). From this equation come the three laws that the other theorems use: trees
with the same occupants lead a path to the same location (`locateFrom_congr`), a tree to which
occupants are added leads no path elsewhere that led somewhere (`locateFrom_grows`), and moves one
behind the other are followed one behind the other (`locateFrom_append`).
-/
import RepoContract.Proofs.Path.Descend

namespace RepoContract

set_option autoImplicit false

/-! ## Occupants -/

namespace Node

/-- What stands at a location, apart from what a directory holds. -/
inductive Occupant where
  | file (bytes : List UInt8)
  | link (target : Path)
  | dir
  deriving DecidableEq, Repr

def occupant : Node → Occupant
  | .file bytes => .file bytes
  | .link target => .link target
  | .dir _ => .dir

/-- What stands at a location of a tree. -/
def occupantAt? (node : Node) (names : List Name) : Option Occupant :=
  (node.at? names).map occupant

variable {node : Node} {names : List Name} {entries : List (Name × Node)}

theorem at?_append (node : Node) (first second : List Name) :
    node.at? (first ++ second) = (node.at? first).bind (·.at? second) := by
  induction first generalizing node with
  | nil => rfl
  | cons name first ih =>
      rw [List.cons_append, at?, at?]
      cases node.child? name with
      | none => rfl
      | some child => exact ih child

/-- Below a directory stand its entries. -/
theorem at?_concat (here : node.at? names = some (.dir entries)) (name : Name) :
    node.at? (names ++ [name]) = entries.lookup name := by
  rw [at?_append, here]
  show (entries.lookup name).bind (at? · []) = _
  cases entries.lookup name <;> rfl

/-- What has something below it is a directory. -/
theorem exists_dir_of_at?_concat {name : Name} {child : Node}
    (below : node.at? (names ++ [name]) = some child) :
    ∃ entries, node.at? names = some (.dir entries) := by
  rw [at?_append] at below
  cases here : node.at? names with
  | none => simp [here] at below
  | some found =>
      cases found with
      | file bytes | link target => simp [here, at?, child?] at below
      | dir entries => exact ⟨entries, rfl⟩

theorem occupantAt?_of_at? {found : Node} (here : node.at? names = some found) :
    node.occupantAt? names = some found.occupant := by
  rw [occupantAt?, here]
  rfl

theorem occupantAt?_eq_dir_iff :
    node.occupantAt? names = some .dir ↔ ∃ entries, node.at? names = some (.dir entries) := by
  constructor
  · intro here
    obtain ⟨found, isFound, isDir⟩ := Option.map_eq_some_iff.1 here
    cases found with
    | file bytes | link target => simp [occupant] at isDir
    | dir entries => exact ⟨entries, isFound⟩
  · rintro ⟨entries, here⟩
    exact occupantAt?_of_at? here

theorem occupantAt?_eq_file_iff {bytes : List UInt8} :
    node.occupantAt? names = some (.file bytes) ↔ node.at? names = some (.file bytes) := by
  constructor
  · intro here
    obtain ⟨found, isFound, isFile⟩ := Option.map_eq_some_iff.1 here
    cases found with
    | file other => rw [isFound, Occupant.file.inj isFile]
    | link target | dir entries => simp [occupant] at isFile
  · intro here
    exact occupantAt?_of_at? here

theorem occupantAt?_concat (here : node.at? names = some (.dir entries)) (name : Name) :
    node.occupantAt? (names ++ [name]) = (entries.lookup name).map occupant := by
  rw [occupantAt?, at?_concat here]

/-- Trees with the same occupants have the same ones below any location. -/
theorem occupantAt?_append {found : Node} (here : node.at? names = some found)
    (below : List Name) : node.occupantAt? (names ++ below) = found.occupantAt? below := by
  rw [occupantAt?, at?_append, here]
  rfl

end Node

/-! ## Following moves -/

section Follow

variable {root first second : Node} {final : Final} {links : Nat} {here there : List Name}
  {moves more : List Move}

theorem locateFrom_nil (root : Node) (final : Final) (links : Nat) (here : List Name) :
    locateFrom root final links here [] = .ok here := by
  rw [locateFrom]

/-- One move, by what stands where it starts and where it leads. -/
theorem locateFrom_cons (root : Node) (final : Final) (links : Nat) (here : List Name)
    (move : Move) (rest : List Move) :
    locateFrom root final links here (move :: rest) =
      match root.occupantAt? here with
      | some .dir =>
        match move with
        | .idle | .stay => locateFrom root final links here rest
        | .up => locateFrom root final links here.dropLast rest
        | .down name =>
          if final = .create && rest ≠ [] && rest.all (· = .idle) then .error .isDirectory
          else
            match root.occupantAt? (here ++ [name]) with
            | none =>
              if final = .create && rest = [] then .ok (here ++ [name]) else .error .noEntry
            | some (.link target) =>
              if final = .keep && rest = [] then .ok (here ++ [name])
              else
                match links with
                | 0 => .error .tooManyLinks
                | links + 1 =>
                  locateFrom root final links (if target.isAbsolute then [] else here)
                    (target.moves ++ rest)
            | some _ => locateFrom root final links (here ++ [name]) rest
      | some _ => .error .notDirectory
      | none => .error .noEntry := by
  rw [locateFrom]
  cases isHere : root.at? here with
  | none => simp [Node.occupantAt?, isHere]
  | some found =>
      rw [Node.occupantAt?_of_at? isHere]
      cases found with
      | file bytes | link target => rfl
      | dir entries =>
          cases move with
          | idle | stay | up => rfl
          | down name =>
              dsimp only [Node.occupant]
              rw [Node.occupantAt?_concat isHere]
              cases entries.lookup name with
              | none => rfl
              | some child => cases child <;> rfl

/-- Links are used up one by one, and between two of them the moves get fewer. -/
theorem follow_induction {motive : Nat → List Name → List Move → Prop}
    (nil : ∀ links here, motive links here [])
    (cons : ∀ links here move rest, (∀ there, motive links there rest) →
      (∀ left, links = left + 1 → ∀ there moves, motive left there moves) →
      motive links here (move :: rest))
    (links : Nat) (here : List Name) (moves : List Move) : motive links here moves := by
  induction links generalizing here moves with
  | zero =>
      induction moves generalizing here with
      | nil => exact nil 0 here
      | cons move rest fewer => exact cons 0 here move rest fewer nofun
  | succ links earlier =>
      induction moves generalizing here with
      | nil => exact nil (links + 1) here
      | cons move rest fewer =>
          refine cons (links + 1) here move rest fewer ?_
          rintro left ⟨⟩
          exact earlier

/-- A last move down leads to the entry of a name, or to where one can be made. -/
theorem locateFrom_down {entries : List (Name × Node)} {name : Name}
    (isDir : root.at? here = some (.dir entries))
    (noLink : ∀ target, entries.lookup name ≠ some (.link target)) :
    locateFrom root final links here [.down name] =
      if (entries.lookup name).isSome ∨ final = .create then .ok (here ++ [name])
      else .error .noEntry := by
  rw [locateFrom_cons, Node.occupantAt?_of_at? isDir]
  dsimp only [Node.occupant]
  rw [Node.occupantAt?_concat isDir]
  cases isChild : entries.lookup name with
  | none => simp
  | some child =>
      cases child with
      | link target => exact absurd isChild (noLink target)
      | file bytes | dir children => simp [Node.occupant, locateFrom_nil]

/-- Trees with the same occupants lead moves to the same location. -/
theorem locateFrom_congr
    (same : ∀ names, first.occupantAt? names = second.occupantAt? names) (final : Final)
    (links : Nat) (here : List Name) (moves : List Move) :
    locateFrom first final links here moves = locateFrom second final links here moves := by
  induction links, here, moves using follow_induction with
  | nil links here => rw [locateFrom_nil, locateFrom_nil]
  | cons links here move rest fewer earlier =>
      rw [locateFrom_cons, locateFrom_cons, same]
      cases links with
      | zero => simp only [same, fewer]
      | succ left => simp only [same, fewer, earlier left rfl]

/-- Where moves lead somewhere, they still do after occupants are added. -/
theorem locateFrom_grows
    (grows : ∀ names occupant, first.occupantAt? names = some occupant →
      second.occupantAt? names = some occupant)
    (isThere : final ≠ .create) (leads : locateFrom first final links here moves = .ok there) :
    locateFrom second final links here moves = .ok there := by
  induction links, here, moves using follow_induction with
  | nil links here =>
      rw [locateFrom_nil] at leads ⊢
      exact leads
  | cons links here move rest fewer earlier =>
      rw [locateFrom_cons] at leads ⊢
      cases isHere : first.occupantAt? here with
      | none => simp [isHere] at leads
      | some occupant =>
          rw [isHere] at leads
          rw [grows here occupant isHere]
          cases occupant with
          | file bytes | link target => simp at leads
          | dir =>
              cases move with
              | idle | stay | up => exact fewer _ leads
              | down name =>
                  simp only [isThere, decide_false, Bool.false_and, Bool.false_eq_true,
                    if_false] at leads ⊢
                  cases isNext : first.occupantAt? (here ++ [name]) with
                  | none => simp [isNext] at leads
                  | some next =>
                      rw [isNext] at leads
                      rw [grows _ next isNext]
                      cases next with
                      | file bytes | dir => exact fewer _ leads
                      | link target =>
                          dsimp only at leads ⊢
                          split
                          · next stops =>
                              rw [if_pos stops] at leads
                              exact leads
                          · next goesOn =>
                              rw [if_neg goesOn] at leads
                              cases links with
                              | zero => simp at leads
                              | succ left => exact earlier left rfl _ _ leads

/-- **Moves one behind the other are followed one behind the other**, with the links that are
left then. -/
theorem locateFrom_append (root : Node) (final : Final) (links : Nat) (here : List Name)
    (moves more : List Move) (goesOn : final = .follow ∨ ∃ move ∈ more, move ≠ .idle) :
    ∃ left, locateFrom root final links here (moves ++ more) =
      (locateFrom root .follow links here moves).bind
        fun there => locateFrom root final left there more := by
  induction links, here, moves using follow_induction with
  | nil links here =>
      refine ⟨links, ?_⟩
      rw [locateFrom_nil]
      rfl
  | cons links here move rest fewer earlier =>
      -- the moves in front are not the last ones, so how the last one ends does not show in them
      have inside : (final = .create && rest ++ more ≠ [] && (rest ++ more).all (· = .idle)) =
          false := by
        rcases goesOn with rfl | ⟨later, isLater, notIdle⟩
        · rfl
        · simp only [List.all_append, Bool.and_eq_false_iff, List.all_eq_false]
          exact .inr (.inr ⟨later, isLater, by simpa using notIdle⟩)
      have notLast (other : Final) (differs : other ≠ .follow) :
          (final = other && rest ++ more = []) = false := by
        rcases goesOn with rfl | ⟨later, isLater, -⟩
        · simp [differs.symm]
        · have some : rest ++ more ≠ [] := List.ne_nil_of_mem (List.mem_append_right rest isLater)
          simp only [some, decide_false, Bool.and_false]
      rw [List.cons_append, locateFrom_cons, locateFrom_cons]
      cases isHere : root.occupantAt? here with
      | none => exact ⟨0, rfl⟩
      | some occupant =>
          cases occupant with
          | file bytes | link target => exact ⟨0, rfl⟩
          | dir =>
              cases move with
              | idle | stay | up => exact fewer _
              | down name =>
                  simp only [inside, Bool.false_eq_true, if_false]
                  cases isNext : root.occupantAt? (here ++ [name]) with
                  | none =>
                      refine ⟨0, ?_⟩
                      simp only [notLast .create (by decide)]
                      rfl
                  | some next =>
                      cases next with
                      | file bytes | dir => exact fewer _
                      | link target =>
                          simp only [notLast .keep (by decide)]
                          cases links with
                          | zero => exact ⟨0, rfl⟩
                          | succ left =>
                              rw [← List.append_assoc]
                              exact earlier left rfl _ _

/-- A path whose last link is not followed leads to that link, or where it leads anyway. -/
theorem locateFrom_keep (root : Node) (links : Nat) (here : List Name) (moves : List Move) :
    (∃ there target, locateFrom root .keep links here moves = .ok there ∧
      root.occupantAt? there = some (.link target)) ∨
    locateFrom root .keep links here moves = locateFrom root .follow links here moves := by
  induction links, here, moves using follow_induction with
  | nil links here => exact .inr (by rw [locateFrom_nil, locateFrom_nil])
  | cons links here move rest fewer earlier =>
      rw [locateFrom_cons, locateFrom_cons]
      cases isHere : root.occupantAt? here with
      | none => exact .inr rfl
      | some occupant =>
          cases occupant with
          | file bytes | link target => exact .inr rfl
          | dir =>
              cases move with
              | idle | stay | up => exact fewer _
              | down name =>
                  simp only [reduceCtorEq, decide_false, Bool.false_and, Bool.false_eq_true,
                    if_false]
                  cases isNext : root.occupantAt? (here ++ [name]) with
                  | none => exact .inr rfl
                  | some next =>
                      cases next with
                      | file bytes | dir => exact fewer _
                      | link target =>
                          by_cases isLast : rest = []
                          · subst isLast
                            exact .inl ⟨here ++ [name], target, by simp, isNext⟩
                          · simp only [isLast, decide_false, Bool.and_false]
                            cases links with
                            | zero => exact .inr rfl
                            | succ left => exact earlier left rfl _ _

end Follow

/-! ## Worlds -/

namespace World

variable {world : World} {path : Path} {name : Name} {entries : List (Name × Node)}

/-- What a path leads to, if it leads anywhere. -/
def occupantOf? (world : World) (path : Path) : Except SystemFault (Option Node.Occupant) :=
  (world.locate .follow path).map world.root.occupantAt?

theorem isFile_eq (world : World) (path : Path) :
    world.isFile path =
      match world.occupantOf? path with
      | .ok (some (.file _)) => true
      | _ => false := by
  unfold isFile node occupantOf?
  cases world.locate .follow path with
  | error cause => rfl
  | ok there =>
      simp only [bind, Except.bind, Except.map, Node.occupantAt?]
      cases world.root.at? there with
      | none => rfl
      | some found => cases found <;> rfl

theorem read_eq (world : World) (path : Path) :
    world.read path =
      match world.occupantOf? path with
      | .ok (some (.file bytes)) => .ok bytes
      | .ok (some .dir) => .error .isDirectory
      | .ok (some (.link _)) => .error .tooManyLinks
      | .ok none => .error .noEntry
      | .error cause => .error cause := by
  unfold read node occupantOf?
  cases world.locate .follow path with
  | error cause => rfl
  | ok there =>
      simp only [bind, Except.bind, Except.map, Node.occupantAt?]
      cases world.root.at? there with
      | none => rfl
      | some found => cases found <;> rfl

/-- A path leads to a regular file just when it can be read. -/
theorem isFile_eq_isOk (world : World) (path : Path) :
    world.isFile path = (world.read path).isOk := by
  rw [isFile_eq, read_eq]
  cases world.occupantOf? path with
  | error cause => rfl
  | ok found =>
      cases found with
      | none => rfl
      | some occupant => cases occupant <;> rfl

theorem node_eq_ok_iff {found : Node} :
    world.node path = .ok found ↔
      ∃ there, world.locate .follow path = .ok there ∧ world.root.at? there = some found := by
  unfold node
  cases world.locate .follow path with
  | error cause => simp [bind, Except.bind]
  | ok there =>
      simp only [bind, Except.bind, Except.ok.injEq, exists_eq_left']
      cases world.root.at? there <;> simp [pure, Except.pure, throw, throwThe, MonadExceptOf.throw]

theorem bytes_ne_nil_of_locate {final : Final} {there : List Name}
    (leads : world.locate final path = .ok there) : path.bytes ≠ [] := by
  intro none
  simp [locate, none] at leads

/-- Where the moves of a path start. -/
def startOf (world : World) (path : Path) : List Name :=
  if path.isAbsolute then [] else world.current

/-- Where the moves of a path lead. An empty path leads to where it starts, as it does when a name
is joined to it. -/
def follow (world : World) (path : Path) : Except SystemFault (List Name) :=
  locateFrom world.root .follow 40 (world.startOf path) path.moves

theorem locate_of_ne_nil (final : Final) (filled : path.bytes ≠ []) :
    world.locate final path =
      locateFrom world.root final 40 (world.startOf path) path.moves := by
  rw [locate, if_neg filled]
  rfl

theorem follow_of_node {found : Node} (leads : world.node path = .ok found) :
    ∃ there, world.follow path = .ok there ∧ world.root.at? there = some found := by
  obtain ⟨there, located, isFound⟩ := node_eq_ok_iff.1 leads
  rw [locate_of_ne_nil .follow (bytes_ne_nil_of_locate located)] at located
  exact ⟨there, located, isFound⟩

theorem node_of_follow {there : List Name} {found : Node} (filled : path.bytes ≠ [])
    (leads : world.follow path = .ok there) (isFound : world.root.at? there = some found) :
    world.node path = .ok found :=
  node_eq_ok_iff.2 ⟨there, by rw [locate_of_ne_nil .follow filled]; exact leads, isFound⟩

/-- A lone dot leads to the current directory. -/
theorem node_here (world : World) (isDir : world.root.at? world.current = some (.dir entries)) :
    world.node ⟨[Path.dot]⟩ = .ok (.dir entries) := by
  refine node_of_follow (List.cons_ne_nil _ _) ?_ isDir
  show locateFrom world.root .follow 40 world.current [.stay] = .ok world.current
  rw [locateFrom_cons, Node.occupantAt?_of_at? isDir]
  exact locateFrom_nil _ _ _ _

/-- **A path with a name joined to it goes on from where the path leads.** -/
theorem locate_join (world : World) (final : Final) (path : Path) (entry : Path.IsEntryName name) :
    ∃ left, world.locate final (path.join ⟨name⟩) =
      (world.follow path).bind fun there =>
        locateFrom world.root final left there [.down name] := by
  obtain ⟨front, isFront, joined⟩ := path.moves_join
  obtain ⟨left, behind⟩ := locateFrom_append world.root final 40 (world.startOf path) front
    [.down name] (.inr ⟨.down name, List.mem_singleton_self _, nofun⟩)
  refine ⟨left, ?_⟩
  have filled : (path.join ⟨name⟩).bytes ≠ [] := by
    by_cases isEmpty : path.bytes = []
    · rw [show path = ⟨[]⟩ from congrArg Path.mk isEmpty, Path.join_empty]
      exact entry.1
    · exact Path.bytes_join_ne_nil isEmpty entry
  have sameStart : world.startOf (path.join ⟨name⟩) = world.startOf path := by
    rw [startOf, startOf, path.isAbsolute_join_name entry]
  rw [locate_of_ne_nil final filled, joined name entry, sameStart, behind, follow]
  rcases isFront with isFront | isFront
  · rw [isFront]
  · -- a slash at the end stays where it is, if that is a directory
    obtain ⟨other, ends⟩ := locateFrom_append world.root .follow 40 (world.startOf path) front
      [.idle] (.inl rfl)
    rw [isFront, ends]
    cases locateFrom world.root .follow 40 (world.startOf path) front with
    | error cause => rfl
    | ok there =>
        simp only [Except.bind, locateFrom_cons, locateFrom_nil]
        cases isThere : world.root.occupantAt? there with
        | none => rfl
        | some occupant => cases occupant <;> simp [isThere]

/-- Below a directory a name leads to where its entry stands, unless that is a link. -/
theorem locate_child {there : List Name} {child : Node} (leads : world.follow path = .ok there)
    (isDir : world.root.at? there = some (.dir entries)) (entry : Path.IsEntryName name)
    (isChild : entries.lookup name = some child) (noLink : ∀ target, child ≠ .link target) :
    world.locate .follow (path.join ⟨name⟩) = .ok (there ++ [name]) := by
  obtain ⟨left, goesOn⟩ := world.locate_join .follow path entry
  have noLink (target : Path) : entries.lookup name ≠ some (.link target) := by
    rw [isChild]
    exact fun isLink => noLink target (Option.some.inj isLink)
  rw [goesOn, leads]
  simp [Except.bind, locateFrom_down isDir noLink, isChild]

/-- Below a directory a name without an entry leads nowhere. -/
theorem locate_absent {there : List Name} (leads : world.follow path = .ok there)
    (isDir : world.root.at? there = some (.dir entries)) (entry : Path.IsEntryName name)
    (absent : entries.lookup name = none) :
    world.locate .follow (path.join ⟨name⟩) = .error .noEntry := by
  obtain ⟨left, goesOn⟩ := world.locate_join .follow path entry
  have noLink (target : Path) : entries.lookup name ≠ some (.link target) := by
    rw [absent]
    exact nofun
  rw [goesOn, leads]
  simp [Except.bind, locateFrom_down isDir noLink, absent]

/-- Below a directory a name leads to its entry, unless that is a link. -/
theorem node_join {there : List Name} (leads : world.follow path = .ok there)
    (isDir : world.root.at? there = some (.dir entries)) (entry : Path.IsEntryName name)
    (noLink : ∀ target, entries.lookup name ≠ some (.link target)) :
    world.node (path.join ⟨name⟩) =
      match entries.lookup name with
      | some child => .ok child
      | none => .error .noEntry := by
  cases isChild : entries.lookup name with
  | none =>
      rw [node, locate_absent leads isDir entry isChild]
      rfl
  | some child =>
      refine node_eq_ok_iff.2 ⟨there ++ [name], ?_, ?_⟩
      · refine locate_child leads isDir entry isChild fun target isLink => ?_
        exact noLink target (isChild.trans (congrArg some isLink))
      · rw [Node.at?_concat isDir, isChild]

/-- What is read below a directory under a name that is no link. -/
theorem read_join {there : List Name} (leads : world.follow path = .ok there)
    (isDir : world.root.at? there = some (.dir entries)) (entry : Path.IsEntryName name)
    (noLink : ∀ target, (Node.dir entries).occupantAt? [name] ≠ some (.link target)) :
    world.read (path.join ⟨name⟩) =
      match (Node.dir entries).occupantAt? [name] with
      | some (.file bytes) => .ok bytes
      | some .dir => .error .isDirectory
      | some (.link _) => .error .tooManyLinks
      | none => .error .noEntry := by
  have isEntry : (Node.dir entries).occupantAt? [name] = (entries.lookup name).map Node.occupant :=
    Node.occupantAt?_concat (rfl : (Node.dir entries).at? [] = some (.dir entries)) name
  rw [isEntry] at noLink ⊢
  have noLink (target : Path) : entries.lookup name ≠ some (.link target) := fun isLink =>
    noLink target (by rw [isLink]; rfl)
  rw [read, node_join leads isDir entry noLink]
  cases entries.lookup name with
  | none => rfl
  | some child => cases child <;> rfl

/-- Something is below a directory under each name of an entry. -/
theorem has_join {there : List Name} (leads : world.follow path = .ok there)
    (isDir : world.root.at? there = some (.dir entries)) (entry : Path.IsEntryName name)
    (noLink : ∀ target, entries.lookup name ≠ some (.link target)) :
    world.has (path.join ⟨name⟩) = (entries.lookup name).isSome := by
  rw [has, node_join leads isDir entry noLink]
  cases entries.lookup name <;> rfl

/-- What is read is there. -/
theorem has_of_readText {text : List Char} (reads : world.readText path = .ok text) :
    world.has path = true := by
  rw [has]
  cases leads : world.node path with
  | ok found => rfl
  | error cause => simp [readText, read, leads, bind, Except.bind] at reads

/-- Below a directory names lead to the location they name, where something else than a link
stands. -/
theorem locate_descend {names there : List Name} {tree found : Node}
    (leads : world.locate .follow path = .ok there) (isTree : world.root.at? there = some tree)
    (entries : ∀ name ∈ names, Path.IsEntryName name) (isFound : tree.at? names = some found)
    (noLink : ∀ target, found ≠ .link target) :
    world.locate .follow (path.descend names) = .ok (there ++ names) := by
  induction names using List.reverseRecOn generalizing found with
  | nil =>
      rw [List.append_nil]
      exact leads
  | append_singleton names name ih =>
      rw [List.forall_mem_append] at entries
      obtain ⟨children, isDir⟩ := Node.exists_dir_of_at?_concat isFound
      rw [Node.at?_concat isDir] at isFound
      have above := ih entries.1 isDir nofun
      rw [locate_of_ne_nil .follow (bytes_ne_nil_of_locate above)] at above
      have isAbove : world.root.at? (there ++ names) = some (.dir children) := by
        rw [Node.at?_append, isTree]
        exact isDir
      have entry := entries.2 name (List.mem_singleton_self name)
      rw [Path.descend_concat, locate_child above isAbove entry isFound noLink,
        List.append_assoc]

/-- Below a directory names lead to what stands there, where no link does. -/
theorem node_descend {names : List Name} {tree found : Node} (leads : world.node path = .ok tree)
    (entries : ∀ name ∈ names, Path.IsEntryName name) (isFound : tree.at? names = some found)
    (noLink : ∀ target, found ≠ .link target) :
    world.node (path.descend names) = .ok found := by
  obtain ⟨there, located, isTree⟩ := node_eq_ok_iff.1 leads
  refine node_eq_ok_iff.2 ⟨there ++ names, ?_, ?_⟩
  · exact locate_descend located isTree entries isFound noLink
  · rw [Node.at?_append, isTree]
    exact isFound

/-- What is read of a file is read at every path that leads to it. -/
theorem read_of_locate {there : List Name} {bytes : List UInt8}
    (leads : world.locate .follow path = .ok there)
    (isFile : world.root.at? there = some (.file bytes)) : world.read path = .ok bytes := by
  rw [read, node_eq_ok_iff.2 ⟨there, leads, isFile⟩]
  rfl

/-- The strict reader reads the text of a file. -/
theorem readText_of_read {bytes : List UInt8} {text : List Char}
    (reads : world.read path = .ok bytes) (decodes : Text.Utf8.decode? bytes = some text) :
    world.readText path = .ok text := by
  simp [readText, reads, decodes, bind, Except.bind, pure, Except.pure]

theorem read_descend {names : List Name} {tree : Node} {bytes : List UInt8}
    (leads : world.node path = .ok tree) (entries : ∀ name ∈ names, Path.IsEntryName name)
    (isFile : tree.at? names = some (.file bytes)) :
    world.read (path.descend names) = .ok bytes := by
  rw [read, node_descend leads entries isFile nofun]
  rfl

end World

end RepoContract
