/-
# RepoContract.Proofs.Tree.Overwrite: what writing over a file leaves as it is

A file that is written over keeps its place among the entries of its directory. So the tree keeps
its shape, which is the tree with every file emptied, and the shape alone decides where paths lead
(`locateFrom_shape`) and which files a walk yields (`World.walk_shape`). What is read at any other
location is what was read there before (`World.Rewritten`); a path that leads to the same file
through a link reads the new content, as it should.
-/
import RepoContract.Proofs.Tree.Edit
import RepoContract.Proofs.Tree.Walk

namespace RepoContract

set_option autoImplicit false

/-! ## Shapes -/

namespace Node

mutual

/-- The tree with every file emptied. -/
def shape : Node → Node
  | .file _ => .file []
  | .link target => .link target
  | .dir entries => .dir (shapes entries)

def shapes : List (Name × Node) → List (Name × Node)
  | [] => []
  | (name, node) :: rest => (name, node.shape) :: shapes rest

end

/-- What is left of an occupant when files are emptied. -/
def Occupant.emptied : Occupant → Occupant
  | .file _ => .file []
  | .link target => .link target
  | .dir => .dir

variable {root node : Node} {there names : List Name} {entries : List (Name × Node)}
  {old bytes : List UInt8}

theorem shapes_eq_map (entries : List (Name × Node)) :
    shapes entries = entries.map fun entry => (entry.1, entry.2.shape) := by
  induction entries with
  | nil => rfl
  | cons entry rest ih => rw [shapes, ih, List.map_cons]

theorem lookup_shapes (name : Name) (entries : List (Name × Node)) :
    (shapes entries).lookup name = (entries.lookup name).map shape := by
  induction entries with
  | nil => rfl
  | cons entry rest ih =>
      obtain ⟨other, child⟩ := entry
      rw [shapes, List.lookup_cons, List.lookup_cons, ih]
      split <;> rfl

theorem at?_shape (node : Node) (names : List Name) :
    node.shape.at? names = (node.at? names).map shape := by
  induction names generalizing node with
  | nil => rfl
  | cons name rest ih =>
      cases node with
      | file bytes | link target => rfl
      | dir entries =>
          rw [shape, at?, at?, child?, child?, lookup_shapes]
          cases entries.lookup name with
          | none => rfl
          | some child => exact ih child

theorem occupantAt?_shape (node : Node) (names : List Name) :
    node.shape.occupantAt? names = (node.occupantAt? names).map Occupant.emptied := by
  rw [occupantAt?, occupantAt?, at?_shape]
  cases node.at? names with
  | none => rfl
  | some found => cases found <;> rfl

theorem isDir_shape (node : Node) : node.shape.isDir = node.isDir := by
  cases node <;> rfl

/-- A walk does not look into files. -/
theorem files_shape (filter : Filter) (base : List Name) (node : Node) :
    node.shape.files filter base = node.files filter base := by
  induction node using entries_induction generalizing base with
  | file bytes | link target => rfl
  | dir entries ih =>
      rw [shape, files, files, filesOf_eq_flatMap, filesOf_eq_flatMap, shapes_eq_map,
        List.flatMap_map]
      refine List.flatMap_congr fun entry isEntry => ?_
      rw [isDir_shape, ih entry isEntry]

/-- An entry of the same shape takes the place of the old one. -/
theorem shapes_setEntry {name : Name} {child value : Node}
    (isChild : entries.lookup name = some child) (sameShape : value.shape = child.shape) :
    shapes (setEntry name value entries) = shapes entries := by
  induction entries with
  | nil => contradiction
  | cons entry rest ih =>
      obtain ⟨other, first⟩ := entry
      rw [List.lookup_cons] at isChild
      rw [setEntry]
      by_cases same : other = name
      · subst same
        rw [beq_self_eq_true] at isChild
        cases isChild
        rw [if_pos rfl, shapes, shapes, sameShape]
      · rw [beq_false_of_ne (Ne.symm same)] at isChild
        rw [if_neg same, shapes, shapes, ih isChild]

/-- **A tree keeps its shape when a file is written over.** -/
theorem shape_put (here : root.at? there = some (.file old)) :
    (put (.file bytes) there root).shape = root.shape := by
  induction there generalizing root with
  | nil =>
      cases here
      rfl
  | cons name rest ih =>
      cases root with
      | file content | link target => simp [at?, child?] at here
      | dir entries =>
          obtain ⟨child, isChild, below⟩ := Option.bind_eq_some_iff.1 here
          rw [put_cons isChild, shape, shape, shapes_setEntry isChild (ih below)]

/-- What stands anywhere else stands there still. -/
theorem occupantAt?_put (here : root.at? there = some (.file old)) (elsewhere : names ≠ there) :
    (put (.file bytes) there root).occupantAt? names = root.occupantAt? names := by
  induction there using List.reverseRecOn with
  | nil =>
      cases here
      cases names with
      | nil => contradiction
      | cons name rest => rfl
  | append_singleton front name =>
      obtain ⟨entries, isDir⟩ := exists_dir_of_at?_concat here
      refine occupantAt?_put_file isDir (fun children isEntry => ?_) elsewhere
      rw [at?_concat isDir, isEntry] at here
      cases here

end Node

/-! ## Where paths lead -/

section Follow

variable {root : Node} {links : Nat} {here there : List Name} {moves : List Move}

/-- Where moves lead does not depend on what files hold. -/
theorem locateFrom_shape (root : Node) (final : Final) (links : Nat) (here : List Name)
    (moves : List Move) :
    locateFrom root.shape final links here moves = locateFrom root final links here moves := by
  induction links, here, moves using follow_induction with
  | nil links here => rw [locateFrom_nil, locateFrom_nil]
  | cons links here move rest fewer earlier =>
      rw [locateFrom_cons, locateFrom_cons, Node.occupantAt?_shape]
      cases root.occupantAt? here with
      | none => rfl
      | some occupant =>
          cases occupant with
          | file bytes | link target => rfl
          | dir =>
              cases move with
              | idle | stay | up => exact fewer _
              | down name =>
                  simp only [Option.map_some, Node.Occupant.emptied, Node.occupantAt?_shape]
                  cases root.occupantAt? (here ++ [name]) with
                  | none => rfl
                  | some next =>
                      cases next with
                      | file bytes | dir =>
                          simp only [Option.map_some, Node.Occupant.emptied, fewer]
                      | link target =>
                          cases links with
                          | zero => rfl
                          | succ left =>
                              simp only [Option.map_some, Node.Occupant.emptied, earlier left rfl]

/-- What is made at a path that leads somewhere is made where the path leads. -/
theorem eq_of_create {made : List Name}
    (makes : locateFrom root .create links here moves = .ok made)
    (leads : locateFrom root .follow links here moves = .ok there) : made = there := by
  induction links, here, moves using follow_induction with
  | nil links here =>
      rw [locateFrom_nil] at makes leads
      exact Except.ok.inj (makes.symm.trans leads)
  | cons links here move rest fewer earlier =>
      rw [locateFrom_cons] at makes leads
      cases isHere : root.occupantAt? here with
      | none => simp [isHere] at leads
      | some occupant =>
          rw [isHere] at makes leads
          cases occupant with
          | file bytes | link target => simp at leads
          | dir =>
              cases move with
              | idle | stay | up => exact fewer _ makes leads
              | down name =>
                  dsimp only at makes leads
                  simp only [reduceCtorEq, decide_false, Bool.false_and, Bool.false_eq_true,
                    if_false] at leads
                  split at makes
                  · contradiction
                  · cases isNext : root.occupantAt? (here ++ [name]) with
                    | none => simp [isNext] at leads
                    | some next =>
                        rw [isNext] at makes leads
                        cases next with
                        | file bytes | dir => exact fewer _ makes leads
                        | link target =>
                            cases links with
                            | zero => simp at leads
                            | succ left => exact earlier left rfl _ _ makes leads

end Follow

namespace World

variable {world before after : World} {path : Path} {old bytes : List UInt8}

/-- The world with every file emptied. -/
def shape (world : World) : World :=
  { world with root := world.root.shape }

theorem locate_shape (world : World) (final : Final) (path : Path) :
    world.shape.locate final path = world.locate final path := by
  rw [locate, locate]
  split
  · rfl
  · exact locateFrom_shape _ _ _ _ _

theorem node_shape (world : World) (path : Path) :
    world.shape.node path = (world.node path).map Node.shape := by
  rw [node, node, locate_shape]
  cases world.locate .follow path with
  | error cause => rfl
  | ok there =>
      simp only [bind, Except.bind, shape, Node.at?_shape]
      cases world.root.at? there <;> rfl

theorem isFile_shape (world : World) (path : Path) :
    world.shape.isFile path = world.isFile path := by
  rw [isFile, isFile, node_shape]
  cases world.node path with
  | error cause => rfl
  | ok found => cases found <;> rfl

/-- A walk of a world is told by its shape. -/
theorem walk_shape (world : World) (filter : Filter) (root : Path) :
    world.shape.walk filter root = world.walk filter root := by
  rw [walk, walk, locate_shape]
  cases world.locate .keep root with
  | error cause => rfl
  | ok there =>
      simp only [node_shape]
      have isThere : world.shape.root.at? there = (world.root.at? there).map Node.shape :=
        Node.at?_shape world.root there
      rw [isThere]
      cases world.root.at? there with
      | none => rfl
      | some found =>
          cases found with
          | file bytes => rfl
          | dir entries => exact congrArg (List.map root.descend) (Node.files_shape _ _ _)
          | link target =>
              cases world.node root with
              | error cause => rfl
              | ok tree =>
                  cases isDir : tree.isDir <;>
                    simp [Node.shape, Except.map, Except.toOption, Option.filter,
                      Node.isDir_shape, isDir, Node.files_shape]

/-- The world after what stands at a path is written over: paths lead where they led and to files
where they did, a walk yields the same files, and what is read elsewhere is what was read there. -/
structure Rewritten (before after : World) (path : Path) : Prop where
  locate : ∀ final other, after.locate final other = before.locate final other
  isFile : ∀ other, after.isFile other = before.isFile other
  walk : ∀ filter root, after.walk filter root = before.walk filter root
  read : ∀ other, before.locate .follow other ≠ before.locate .follow path →
    after.read other = before.read other

/-- A file that can be read is written over where it stands. -/
theorem exists_of_write (reads : before.read path = .ok old)
    (written : before.write path bytes = .ok after) :
    ∃ there, before.locate .follow path = .ok there ∧
      before.root.at? there = some (.file old) ∧ after = before.put there (.file bytes) := by
  obtain ⟨there, leads, isFile⟩ : ∃ there, before.locate .follow path = .ok there ∧
      before.root.at? there = some (.file old) := by
    rw [World.read] at reads
    cases isNode : before.node path with
    | error cause => simp [isNode, bind, Except.bind] at reads
    | ok found =>
        cases found with
        | link target | dir entries =>
            simp [isNode, bind, Except.bind, throw, throwThe, MonadExceptOf.throw] at reads
        | file content =>
            simp only [isNode, bind, Except.bind, pure, Except.pure, Except.ok.injEq] at reads
            subst reads
            exact node_eq_ok_iff.1 isNode
  have filled := bytes_ne_nil_of_locate leads
  rw [write] at written
  cases makes : before.locate .create path with
  | error cause => simp [makes, bind, Except.bind] at written
  | ok made =>
      have same : made = there := by
        rw [locate_of_ne_nil _ filled] at makes leads
        exact eq_of_create makes leads
      subst same
      simp only [makes, bind, Except.bind, isFile, pure, Except.pure, Except.ok.injEq] at written
      exact ⟨made, leads, isFile, written.symm⟩

/-- **Writing over a file changes what is read there and nothing else.** -/
theorem rewritten_of_write (reads : before.read path = .ok old)
    (written : before.write path bytes = .ok after) : before.Rewritten after path := by
  obtain ⟨there, leads, isFile, rfl⟩ := exists_of_write reads written
  have sameShape : (before.put there (.file bytes)).shape = before.shape := by
    rw [shape, shape, put, Node.shape_put isFile]
  have sameLocate (final : Final) (other : Path) :
      (before.put there (.file bytes)).locate final other = before.locate final other := by
    rw [← locate_shape, sameShape, locate_shape]
  refine ⟨sameLocate, fun other => ?_, fun filter root => ?_, fun other elsewhere => ?_⟩
  · rw [← isFile_shape, sameShape, isFile_shape]
  · rw [← walk_shape, sameShape, walk_shape]
  · rw [read_eq, read_eq, occupantOf?, occupantOf?, sameLocate]
    cases isThere : before.locate .follow other with
    | error cause => rfl
    | ok location =>
        have differs : location ≠ there := by
          rintro rfl
          exact elsewhere (isThere.trans leads.symm)
        have same : (before.put there (.file bytes)).root.occupantAt? location =
            before.root.occupantAt? location := Node.occupantAt?_put isFile differs
        simp only [Except.map, same]

end World

end RepoContract
