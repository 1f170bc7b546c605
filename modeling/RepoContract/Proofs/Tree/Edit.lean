/-
# RepoContract.Proofs.Tree.Edit: where paths lead after a tree is changed

What is put somewhere stands there (`Node.occupantAt?_put_below`), and everything else stays where
it stood (`Node.occupantAt?_put_elsewhere`); where no entry was, the new one comes behind those of
its directory (`Node.at?_put_new`). So a path that led somewhere still leads there, and writing a
new file adds one entry to what its directory opens to (`World.OpensTo.write`).

Making the directories of a path does nothing where it leads to a directory already
(`World.makeDirs_of_isDir`). Where it does not, what it leads to afterwards is new and empty
(`World.opensTo_of_makeDirs`), unless the path goes up again: `new/..` leads to what was there.
-/
import RepoContract.Proofs.Path.Parent
import RepoContract.Proofs.Tree.Location

namespace RepoContract

set_option autoImplicit false

/-! ## New entries -/

namespace Node

variable {root value node : Node} {there names : List Name} {name : Name}
  {entries : List (Name × Node)}

theorem setEntry_of_absent (absent : entries.lookup name = none) :
    setEntry name value entries = entries ++ [(name, value)] := by
  induction entries with
  | nil => rfl
  | cons entry rest ih =>
      obtain ⟨other, old⟩ := entry
      rw [List.lookup_cons] at absent
      split at absent
      · contradiction
      · next differs =>
          have differs : other ≠ name := fun same => by simp [same] at differs
          rw [setEntry, if_neg differs, ih absent, List.cons_append]

theorem lookup_setEntry (name other : Name) (value : Node) (entries : List (Name × Node)) :
    (setEntry name value entries).lookup other =
      if other = name then some value else entries.lookup other := by
  induction entries with
  | nil =>
      by_cases same : other = name
      · simp [setEntry, same]
      · simp [setEntry, List.lookup_cons, same, beq_false_of_ne same]
  | cons entry rest ih =>
      obtain ⟨first, old⟩ := entry
      rw [setEntry]
      by_cases isFirst : first = name
      · subst isFirst
        by_cases same : other = first
        · simp [same]
        · simp [List.lookup_cons, same, beq_false_of_ne same]
      · rw [if_neg isFirst, List.lookup_cons, List.lookup_cons, ih]
        by_cases same : other = first
        · simp [same, isFirst]
        · rw [beq_false_of_ne same]

theorem lookup_setEntry_self (name : Name) (value : Node) (entries : List (Name × Node)) :
    (setEntry name value entries).lookup name = some value := by
  rw [lookup_setEntry, if_pos rfl]

theorem lookup_setEntry_of_ne {name other : Name} (value : Node) (entries : List (Name × Node))
    (differs : other ≠ name) : (setEntry name value entries).lookup other = entries.lookup other := by
  rw [lookup_setEntry, if_neg differs]

/-- A node is put below an entry by putting it there in what the entry holds. -/
theorem put_cons {child : Node} (isChild : entries.lookup name = some child) (value : Node)
    (rest : List Name) :
    put value (name :: rest) (.dir entries) =
      .dir (setEntry name (put value rest child) entries) := by
  rw [put, isChild]

/-- In its directory the entry of a name is set. -/
theorem put_singleton (value : Node) (name : Name) (entries : List (Name × Node)) :
    put value [name] (.dir entries) = .dir (setEntry name value entries) := by
  rw [put]
  cases entries.lookup name <;> simp [put]

/-- A directory in which an entry is put has it set among its entries. -/
theorem at?_put (value : Node) (name : Name) (isDir : root.at? there = some (.dir entries)) :
    (put value (there ++ [name]) root).at? there = some (.dir (setEntry name value entries)) := by
  induction there generalizing root with
  | nil =>
      cases isDir
      rw [List.nil_append, put_singleton]
      rfl
  | cons first there ih =>
      cases root with
      | file bytes | link target => simp [at?, child?] at isDir
      | dir children =>
          obtain ⟨child, isChild, below⟩ := Option.bind_eq_some_iff.1 isDir
          rw [List.cons_append, put_cons isChild, at?, child?, lookup_setEntry, if_pos rfl]
          exact ih below

/-- **A new entry comes behind those that its directory has.** -/
theorem at?_put_new (value : Node) (isDir : root.at? there = some (.dir entries))
    (absent : entries.lookup name = none) :
    (put value (there ++ [name]) root).at? there =
      some (.dir (entries ++ [(name, value)])) := by
  rw [at?_put value name isDir, setEntry_of_absent absent]

/-- Where something is put stands what it holds. -/
theorem occupantAt?_put_below (value : Node) (name : Name)
    (isDir : root.at? there = some (.dir entries)) (below : List Name) :
    (put value (there ++ [name]) root).occupantAt? (there ++ [name] ++ below) =
      value.occupantAt? below := by
  have isThere : (put value (there ++ [name]) root).at? (there ++ [name]) = some value := by
    rw [at?_concat (at?_put value name isDir), lookup_setEntry, if_pos rfl]
  exact occupantAt?_append isThere below

/-- **Where nothing is put stands what stood there.** -/
theorem occupantAt?_put_elsewhere (value : Node) (isDir : root.at? there = some (.dir entries))
    (elsewhere : ¬ there ++ [name] <+: names) :
    (put value (there ++ [name]) root).occupantAt? names = root.occupantAt? names := by
  induction there generalizing root names with
  | nil =>
      cases isDir
      rw [List.nil_append, put_singleton]
      cases names with
      | nil => rfl
      | cons first rest =>
          have differs : first ≠ name := by
            rintro rfl
            exact elsewhere ⟨rest, rfl⟩
          rw [occupantAt?, occupantAt?, at?, at?, child?, child?, lookup_setEntry, if_neg differs]
  | cons first there ih =>
      cases root with
      | file bytes | link target => simp [at?, child?] at isDir
      | dir children =>
          obtain ⟨child, isChild, below⟩ := Option.bind_eq_some_iff.1 isDir
          have isEntry : children.lookup first = some child := isChild
          rw [List.cons_append, put_cons isChild]
          cases names with
          | nil => rfl
          | cons other rest =>
              rw [occupantAt?, occupantAt?, at?, at?, child?, child?, lookup_setEntry]
              by_cases same : other = first
              · subst same
                rw [if_pos rfl, isEntry]
                refine ih below fun isPrefix => elsewhere ?_
                exact List.cons_prefix_cons.2 ⟨rfl, isPrefix⟩
              · rw [if_neg same]

/-- A file that takes the place of no directory changes nothing but its own place. -/
theorem occupantAt?_put_file {bytes : List UInt8} (isDir : root.at? there = some (.dir entries))
    (noDir : ∀ children, entries.lookup name ≠ some (.dir children))
    (elsewhere : names ≠ there ++ [name]) :
    (put (.file bytes) (there ++ [name]) root).occupantAt? names = root.occupantAt? names := by
  by_cases isBelow : there ++ [name] <+: names
  · obtain ⟨below, rfl⟩ := isBelow
    obtain ⟨first, rest, rfl⟩ := List.exists_cons_of_ne_nil fun none : below = [] =>
      elsewhere (by rw [none, List.append_nil])
    -- nothing stands below a file or a link
    rw [occupantAt?_put_below _ name isDir, occupantAt?, occupantAt?, at?_append, at?_concat isDir]
    cases isChild : entries.lookup name with
    | none => rfl
    | some child =>
        cases child with
        | dir children => exact absurd isChild (noDir children)
        | file old | link target => rfl
  · exact occupantAt?_put_elsewhere _ isDir isBelow

/-- Below an entry that is not there nothing stands. -/
theorem occupantAt?_below_absent (isDir : root.at? there = some (.dir entries))
    (absent : entries.lookup name = none) (isBelow : there ++ [name] <+: names) :
    root.occupantAt? names = none := by
  obtain ⟨below, rfl⟩ := isBelow
  rw [occupantAt?, at?_append, at?_concat isDir, absent]
  rfl

/-- What stands somewhere still stands there when a new entry is put. -/
theorem occupantAt?_put_new {occupant : Occupant} (value : Node)
    (isDir : root.at? there = some (.dir entries)) (absent : entries.lookup name = none)
    (here : root.occupantAt? names = some occupant) :
    (put value (there ++ [name]) root).occupantAt? names = some occupant := by
  refine (occupantAt?_put_elsewhere value isDir fun isBelow => ?_).trans here
  rw [occupantAt?_below_absent isDir absent isBelow] at here
  contradiction

end Node

/-! ## Moves that stay -/

/-- Moves of which some that stay where they are have been left out. -/
inductive Move.Skips : List Move → List Move → Prop
  | nil : Skips [] []
  | keep (move : Move) {moves fewer : List Move} (rest : Skips moves fewer) :
      Skips (move :: moves) (move :: fewer)
  | skip {move : Move} {moves fewer : List Move} (still : move.isStill = true)
      (rest : Skips moves fewer) : Skips (move :: moves) fewer

namespace Move.Skips

variable {moves fewer : List Move}

theorem append_left (front : List Move) (skips : Skips moves fewer) :
    Skips (front ++ moves) (front ++ fewer) := by
  induction front with
  | nil => exact skips
  | cons move front ih => exact .keep move ih

theorem going (moves : List Move) : Skips moves (moves.filter (!·.isStill)) := by
  induction moves with
  | nil => exact .nil
  | cons move moves ih =>
      cases still : move.isStill with
      | true => simpa [still] using Skips.skip still ih
      | false => simpa [still] using Skips.keep move ih

end Move.Skips

/-- Moves that lead somewhere lead there without those that stay. -/
theorem locateFrom_skips {root : Node} {links : Nat} {here there : List Name}
    {moves fewer : List Move} (skips : Move.Skips moves fewer)
    (leads : locateFrom root .follow links here moves = .ok there) :
    locateFrom root .follow links here fewer = .ok there := by
  induction links, here, moves using follow_induction generalizing fewer with
  | nil links here =>
      cases skips
      exact leads
  | cons links here move rest fewerMoves earlier =>
      rw [locateFrom_cons] at leads
      cases isHere : root.occupantAt? here with
      | none => simp [isHere] at leads
      | some occupant =>
          cases occupant with
          | file bytes | link target => simp [isHere] at leads
          | dir =>
              rw [isHere] at leads
              cases skips with
              | skip still skipped =>
                  cases move with
                  | idle | stay => exact fewerMoves _ skipped leads
                  | up | down name => contradiction
              | keep _ skipped =>
                  rw [locateFrom_cons, isHere]
                  cases move with
                  | idle | stay | up => exact fewerMoves _ skipped leads
                  | down name =>
                      simp only [reduceCtorEq, decide_false, Bool.false_and, Bool.false_eq_true,
                        if_false] at leads ⊢
                      cases isNext : root.occupantAt? (here ++ [name]) with
                      | none => simp [isNext] at leads
                      | some next =>
                          rw [isNext] at leads
                          cases next with
                          | file bytes | dir => exact fewerMoves _ skipped leads
                          | link target =>
                              cases links with
                              | zero => simp at leads
                              | succ left =>
                                  exact earlier left rfl _ _ (skipped.append_left target.moves)
                                    leads

/-- Moves that are idle lead nowhere else than to the directory where they start. -/
theorem locateFrom_idle {root : Node} {here : List Name} {entries : List (Name × Node)}
    (isDir : root.at? here = some (.dir entries)) (final : Final) (links count : Nat) :
    locateFrom root final links here (List.replicate count .idle) = .ok here := by
  induction count with
  | zero => exact locateFrom_nil _ _ _ _
  | succ count ih =>
      rw [List.replicate_succ, locateFrom_cons, Node.occupantAt?_of_at? isDir]
      exact ih

/-- What is done in two steps goes well when both do. -/
theorem exists_of_bind_eq_ok {ε α β : Type} {first : Except ε α} {next : α → Except ε β}
    {result : β} (isOk : first.bind next = .ok result) :
    ∃ middle, first = .ok middle ∧ next middle = .ok result := by
  cases first with
  | error cause => contradiction
  | ok middle => exact ⟨middle, rfl, isOk⟩

namespace World

variable {world after : World} {path parent : Path} {name : Name} {entries : List (Name × Node)}

/-! ## What a path opens to -/

/-- Where the moves of a path lead stands a directory with some entries. An empty path opens to the
current directory. -/
def OpensTo (world : World) (path : Path) (entries : List (Name × Node)) : Prop :=
  ∃ there, world.follow path = .ok there ∧ world.root.at? there = some (.dir entries)

/-- Nothing stands at a path, not even a link. -/
def Vacant (world : World) (path : Path) : Prop :=
  ∀ there, world.locate .keep path ≠ .ok there

theorem OpensTo.node_eq (opens : world.OpensTo path entries) (filled : path.bytes ≠ []) :
    world.node path = .ok (.dir entries) :=
  node_of_follow filled opens.choose_spec.1 opens.choose_spec.2

theorem opensTo_of_isDir (isDir : world.isDir path = true) :
    path.bytes ≠ [] ∧ ∃ entries, world.OpensTo path entries := by
  rw [World.isDir] at isDir
  split at isDir
  · next entries leads =>
      obtain ⟨there, located, -⟩ := node_eq_ok_iff.1 leads
      exact ⟨bytes_ne_nil_of_locate located, entries, follow_of_node leads⟩
  · contradiction

/-- Paths that lead somewhere still do after a new entry is put. -/
theorem follow_put {there found : List Name} (value : Node)
    (isDir : world.root.at? there = some (.dir entries)) (absent : entries.lookup name = none)
    (leads : world.follow path = .ok found) :
    (world.put (there ++ [name]) value).follow path = .ok found :=
  locateFrom_grows (fun _ _ here => Node.occupantAt?_put_new value isDir absent here) nofun leads

/-- In an open directory an entry that is not there is one whose path is vacant. -/
theorem OpensTo.vacant_iff (opens : world.OpensTo path entries) (entry : Path.IsEntryName name) :
    world.Vacant (path.join ⟨name⟩) ↔ entries.lookup name = none := by
  obtain ⟨there, leads, isDir⟩ := opens
  obtain ⟨left, goesOn⟩ := world.locate_join .keep path entry
  rw [Vacant, goesOn, leads]
  simp only [Except.bind, locateFrom_cons, Node.occupantAt?_of_at? isDir, Node.occupant,
    Node.occupantAt?_concat isDir, locateFrom_nil]
  cases entries.lookup name with
  | none => simp
  | some child => cases child <;> simp [Node.occupant]

/-- Where nothing stands a path leads nowhere. -/
theorem has_of_vacant {path : Path} (vacant : world.Vacant path) : world.has path = false := by
  rw [has, node]
  cases leads : world.locate .follow path with
  | error cause => rfl
  | ok there =>
      have filled := bytes_ne_nil_of_locate leads
      have isKept : ∃ kept, world.locate .keep path = .ok kept := by
        rw [locate_of_ne_nil .keep filled]
        rcases locateFrom_keep world.root 40 (world.startOf path) path.moves with
          ⟨kept, -, isKept, -⟩ | same
        · exact ⟨kept, isKept⟩
        · exact ⟨there, by rw [same, ← locate_of_ne_nil .follow filled, leads]⟩
      obtain ⟨kept, isKept⟩ := isKept
      exact absurd isKept (vacant kept)

/-- What is read of a file in an open directory. -/
theorem OpensTo.read {bytes : List UInt8} (opens : world.OpensTo path entries)
    (entry : Path.IsEntryName name) (isFile : entries.lookup name = some (.file bytes)) :
    world.read (path.join ⟨name⟩) = .ok bytes := by
  obtain ⟨there, leads, isDir⟩ := opens
  have noLink (target : Path) : entries.lookup name ≠ some (.link target) := by
    rw [isFile]
    exact nofun
  rw [World.read, node_join leads isDir entry noLink, isFile]
  rfl

/-- A file is written in a directory only. -/
theorem opensTo_of_write {bytes : List UInt8} (entry : Path.IsEntryName name)
    (written : world.write (path.join ⟨name⟩) bytes = .ok after) :
    ∃ entries, world.OpensTo path entries := by
  obtain ⟨left, goesOn⟩ := world.locate_join .create path entry
  rw [write, goesOn] at written
  cases leads : world.follow path with
  | error cause => simp [leads, bind, Except.bind] at written
  | ok there =>
      cases isHere : world.root.at? there with
      | none =>
          simp [leads, bind, Except.bind, locateFrom_cons, Node.occupantAt?, isHere] at written
      | some found =>
          cases found with
          | dir entries => exact ⟨entries, there, leads, isHere⟩
          | file bytes | link target =>
              simp [leads, bind, Except.bind, locateFrom_cons, Node.occupantAt?, isHere,
                Node.occupant] at written

/-- **A file is written where its name says**, unless a link or a directory stands there. -/
theorem write_join {there : List Name} (leads : world.follow path = .ok there)
    (isDir : world.root.at? there = some (.dir entries)) (entry : Path.IsEntryName name)
    (noLink : ∀ target, entries.lookup name ≠ some (.link target)) (bytes : List UInt8) :
    world.write (path.join ⟨name⟩) bytes =
      match entries.lookup name with
      | some (.dir _) => .error .isDirectory
      | _ => .ok (world.put (there ++ [name]) (.file bytes)) := by
  obtain ⟨left, goesOn⟩ := world.locate_join .create path entry
  have located : world.locate .create (path.join ⟨name⟩) = .ok (there ++ [name]) := by
    rw [goesOn, leads]
    simp only [Except.bind, locateFrom_down isDir noLink, or_true, if_true]
  rw [World.write, located]
  simp only [bind, Except.bind, Node.at?_concat isDir]
  cases entries.lookup name with
  | none => rfl
  | some child => cases child <;> rfl

/-- **A new file is written behind the entries of its directory.** -/
theorem OpensTo.write (opens : world.OpensTo path entries) (entry : Path.IsEntryName name)
    (absent : entries.lookup name = none) (bytes : List UInt8) :
    ∃ after, world.write (path.join ⟨name⟩) bytes = .ok after ∧
      after.OpensTo path (entries ++ [(name, .file bytes)]) := by
  obtain ⟨there, leads, isDir⟩ := opens
  refine ⟨world.put (there ++ [name]) (.file bytes), ?_, there, follow_put _ isDir absent leads,
    Node.at?_put_new _ isDir absent⟩
  rw [write_join leads isDir entry (fun target => by simp [absent]), absent]

/-! ## Making directories -/

/-- Slashes at the end aside, a directory is made where the last move goes down to an entry that is
not there. -/
theorem exists_of_makeDir (made : world.makeDir path = .ok after) :
    path.bytes ≠ [] ∧ ∃ front name there entries,
      path.withoutEndSlashes.moves = front ++ [.down name] ∧
      locateFrom world.root .follow 40 (world.startOf path) front = .ok there ∧
      world.root.at? there = some (.dir entries) ∧ entries.lookup name = none ∧
      after = world.put (there ++ [name]) (.dir []) := by
  rw [makeDir] at made
  split at made
  · contradiction
  · next filled =>
      refine ⟨filled, ?_⟩
      dsimp only at made
      rw [(path.moves_withoutEndSlashes filled).1, ← startOf] at made
      split at made
      · next name isLast =>
          obtain ⟨front, isFront⟩ := List.getLast?_eq_some_iff.1 isLast
          rw [isFront, List.dropLast_concat] at made
          obtain ⟨there, leads, made⟩ := exists_of_bind_eq_ok made
          split at made
          · next entries isDir =>
              split at made
              · contradiction
              · next absent =>
                  cases made
                  exact ⟨front, name, there, entries, isFront, leads, isDir,
                    Option.not_isSome_iff_eq_none.1 absent, rfl⟩
          · contradiction
          · contradiction
      · obtain ⟨there, -, made⟩ := exists_of_bind_eq_ok made
        contradiction

/-- **A directory that is made is empty.** -/
theorem opensTo_of_makeDir (made : world.makeDir path = .ok after) : after.OpensTo path [] := by
  obtain ⟨filled, front, name, there, entries, isFront, leads, isDir, absent, rfl⟩ :=
    exists_of_makeDir made
  obtain ⟨-, count, isMoves⟩ := path.moves_withoutEndSlashes filled
  have isNew : (world.put (there ++ [name]) (.dir [])).root.at? there =
      some (.dir (entries ++ [(name, .dir [])])) := Node.at?_put_new _ isDir absent
  have isMade : (world.put (there ++ [name]) (.dir [])).root.at? (there ++ [name]) =
      some (.dir []) := by
    rw [Node.at?_concat isNew, List.lookup_append, absent]
    simp
  refine ⟨there ++ [name], ?_, isMade⟩
  obtain ⟨left, behind⟩ := locateFrom_append (world.put (there ++ [name]) (.dir [])).root .follow
    40 (world.startOf path) front (.down name :: List.replicate count .idle) (.inl rfl)
  have stillLeads : locateFrom (world.put (there ++ [name]) (.dir [])).root .follow 40
      (world.startOf path) front = .ok there :=
    locateFrom_grows (fun _ _ here => Node.occupantAt?_put_new (.dir []) isDir absent here) nofun
      leads
  rw [stillLeads] at behind
  rw [follow, isMoves, isFront, List.append_assoc, List.singleton_append]
  refine behind.trans ?_
  simp only [Except.bind]
  rw [locateFrom_cons, Node.occupantAt?_of_at? isNew]
  dsimp only [Node.occupant]
  rw [Node.occupantAt?_of_at? isMade]
  exact locateFrom_idle isMade _ _ _

/-- A directory that is there is not made again. -/
theorem makeDir_of_isDir (isDir : world.isDir path = true) :
    world.makeDir path = .error .alreadyExists := by
  obtain ⟨filled, entries, there, leads, -⟩ := opensTo_of_isDir isDir
  obtain ⟨alike, count, isMoves⟩ := path.moves_withoutEndSlashes filled
  rw [makeDir, if_neg filled]
  dsimp only
  rw [alike, ← startOf]
  rw [follow, isMoves] at leads
  split
  · next name isLast =>
      obtain ⟨front, isFront⟩ := List.getLast?_eq_some_iff.1 isLast
      obtain ⟨left, behind⟩ := locateFrom_append world.root .follow 40 (world.startOf path) front
        (.down name :: List.replicate count .idle) (.inl rfl)
      rw [isFront, List.append_assoc, List.singleton_append, behind] at leads
      obtain ⟨above, leadsAbove, leads⟩ := exists_of_bind_eq_ok leads
      rw [isFront, List.dropLast_concat, leadsAbove]
      rw [locateFrom_cons] at leads
      cases isAbove : world.root.at? above with
      | none => simp [Node.occupantAt?, isAbove] at leads
      | some found =>
          cases found with
          | file bytes | link target =>
              simp [Node.occupantAt?, isAbove, Node.occupant] at leads
          | dir children =>
              have isThere : (children.lookup name).isSome = true := by
                rw [Node.occupantAt?_of_at? isAbove] at leads
                dsimp only [Node.occupant] at leads
                rw [Node.occupantAt?_concat isAbove] at leads
                cases isChild : children.lookup name with
                | none => simp [isChild] at leads
                | some child => rfl
              simp only [bind, Except.bind, isAbove, isThere, if_true]
              rfl
  · obtain ⟨left, behind⟩ := locateFrom_append world.root .follow 40 (world.startOf path)
      path.withoutEndSlashes.moves (List.replicate count .idle) (.inl rfl)
    rw [behind] at leads
    obtain ⟨above, leadsAbove, -⟩ := exists_of_bind_eq_ok leads
    rw [locate_of_ne_nil .follow (path.bytes_withoutEndSlashes filled).1, startOf, alike, ← startOf,
      leadsAbove]
    rfl

theorem makeDirsFrom_empty (count : Nat) (world : World) (empty : path.bytes = []) :
    makeDirsFrom count world path = (world, .ok ()) := by
  unfold makeDirsFrom
  rw [if_pos empty]

/-- Nothing is made of a path that leads to a directory. -/
theorem makeDirsFrom_of_isDir (count : Nat) (isDir : world.isDir path = true) :
    makeDirsFrom count world path = (world, .ok ()) := by
  unfold makeDirsFrom
  rw [if_neg (opensTo_of_isDir isDir).1, makeDir_of_isDir isDir]
  dsimp only
  rw [if_neg (by decide), if_pos isDir]

/-- In an empty directory nothing is there, so a path that goes down from it leads nowhere. -/
theorem not_isDir_of_parent (isParent : path.parent? = some parent) (filled : parent.bytes ≠ [])
    (noUp : .up ∉ path.moves) (opens : world.OpensTo parent []) : world.isDir path = false := by
  by_contra isDir
  rw [Bool.not_eq_false] at isDir
  obtain ⟨-, entries, there, leads, -⟩ := opensTo_of_isDir isDir
  obtain ⟨empty, leadsParent, isEmpty⟩ := opens
  obtain ⟨alike, last, goes, steps⟩ := Path.stepParts_parent isParent filled
  have sameStart : world.startOf parent = world.startOf path := by
    rw [startOf, startOf, alike]
  -- both go where their steps go, and the last step of the path goes down
  have isLast : Move.ofPart last = .down last := by
    have isMove : Move.ofPart last ∈ path.moves := by
      refine (List.mem_filter.1 (?_ : _ ∈ path.moves.filter (!·.isStill))).1
      rw [Path.moves_going, steps]
      simp
    unfold Move.ofPart at isMove ⊢
    split_ifs at isMove ⊢ with isEmpty isDot isUp
    · simp [Path.isIdle, isEmpty] at goes
    · simp [Path.isIdle, isDot] at goes
    · exact absurd isMove noUp
    · rfl
  have going := locateFrom_skips (.going _) leads
  have goingParent := locateFrom_skips (.going _) leadsParent
  rw [Path.moves_going, steps, List.map_append] at going
  rw [Path.moves_going, sameStart] at goingParent
  obtain ⟨left, behind⟩ := locateFrom_append world.root .follow 40 (world.startOf path)
    ((Path.stepParts (Path.parts parent.bytes)).map Move.ofPart) ([last].map Move.ofPart) (.inl rfl)
  have stops : locateFrom world.root .follow left empty [.down last] = .error .noEntry := by
    rw [locateFrom_down isEmpty fun _ => by simp]
    rfl
  rw [behind, goingParent, List.map_singleton, isLast] at going
  change locateFrom world.root .follow left empty [.down last] = .ok there at going
  rw [stops] at going
  contradiction

theorem up_not_mem_moves_parent (isParent : path.parent? = some parent)
    (filled : parent.bytes ≠ []) (noUp : .up ∉ path.moves) : .up ∉ parent.moves := by
  obtain ⟨-, last, -, steps⟩ := Path.stepParts_parent isParent filled
  intro isUp
  have going : .up ∈ parent.moves.filter (!·.isStill) := List.mem_filter.2 ⟨isUp, rfl⟩
  rw [Path.moves_going] at going
  have goingPath : .up ∈ path.moves.filter (!·.isStill) := by
    rw [Path.moves_going, steps, List.map_append]
    exact List.mem_append_left _ going
  exact noUp (List.mem_filter.1 goingPath).1

/-- The ways in which directories are made: there is none to make, the last one is made, it is there
already, or it is there once those above it are made. -/
theorem makeDirsFrom_cases {count : Nat} (made : makeDirsFrom count world path = (after, .ok ())) :
    (path.bytes = [] ∨ world.isDir path = true) ∧ after = world ∨
    (∃ before : World, before.makeDir path = .ok after) ∨
    ∃ left parent, count = left + 1 ∧ path.parent? = some parent ∧
      makeDirsFrom left world parent = (after, .ok ()) ∧ after.isDir path = true := by
  have isDir_of {before : World} {cause : SystemFault}
      (ended : (before, if before.isDir path then Except.ok () else .error cause) =
        (after, .ok ())) : before = after ∧ before.isDir path = true := by
    obtain ⟨same, isOk⟩ := Prod.mk.inj ended
    exact ⟨same, by by_contra notDir; simp [notDir] at isOk⟩
  unfold makeDirsFrom at made
  split at made
  · next none =>
      cases made
      exact .inl ⟨.inl none, rfl⟩
  · split at made
    · next isMade =>
        cases made
        exact .inr (.inl ⟨world, isMade⟩)
    · split at made
      · split at made
        · next left parent isParent =>
            split at made
            · cases made
            · next above isAbove =>
                split at made
                · next isMade =>
                    cases made
                    exact .inr (.inl ⟨above, isMade⟩)
                · obtain ⟨rfl, isDir⟩ := isDir_of made
                  exact .inr (.inr ⟨left, parent, rfl, isParent, isAbove, isDir⟩)
        · cases made
      · obtain ⟨rfl, isDir⟩ := isDir_of made
        exact .inl ⟨.inr isDir, rfl⟩

/-- **What a path leads to after its directories are made is new and empty**, unless it led to a
directory before or goes up somewhere. -/
theorem opensTo_of_makeDirsFrom {count : Nat} (filled : path.bytes ≠ []) (noUp : .up ∉ path.moves)
    (notDir : world.isDir path = false)
    (made : makeDirsFrom count world path = (after, .ok ())) : after.OpensTo path [] := by
  induction count using Nat.strong_induction_on generalizing path after with
  | h count ih =>
      rcases makeDirsFrom_cases made with ⟨none | isDir, -⟩ | ⟨before, isMade⟩ |
        ⟨left, parent, isMore, isParent, madeAbove, isDir⟩
      · exact absurd none filled
      · exact absurd isDir (Bool.eq_false_iff.1 notDir)
      · exact opensTo_of_makeDir isMade
      · -- the path was no directory before, so something was made above it, and that is empty
        have changed : after ≠ world := by
          rintro rfl
          exact Bool.eq_false_iff.1 notDir isDir
        by_cases none : parent.bytes = []
        · rw [makeDirsFrom_empty left world none] at madeAbove
          exact absurd (Prod.mk.inj madeAbove).1.symm changed
        · cases aboveDir : world.isDir parent with
          | true =>
              rw [makeDirsFrom_of_isDir left aboveDir] at madeAbove
              exact absurd (Prod.mk.inj madeAbove).1.symm changed
          | false =>
              have opens := ih left (by omega) none (up_not_mem_moves_parent isParent none noUp)
                aboveDir madeAbove
              have notThere := not_isDir_of_parent isParent none noUp opens
              exact absurd isDir (Bool.eq_false_iff.1 notThere)

/-- Directories that are made of a path are there. -/
theorem exists_opensTo_of_makeDirs (filled : path.bytes ≠ [])
    (made : world.makeDirs path = (after, .ok ())) : ∃ entries, after.OpensTo path entries := by
  rcases makeDirsFrom_cases made with ⟨none | isDir, rfl⟩ | ⟨before, isMade⟩ | ⟨-, -, -, -, -, isDir⟩
  · exact absurd none filled
  · exact (opensTo_of_isDir isDir).2
  · exact ⟨[], opensTo_of_makeDir isMade⟩
  · exact (opensTo_of_isDir isDir).2

/-- **A path for which directories are made leads where it led, or to nothing yet**, if it was a
directory or does not go up to where none was made. -/
theorem makeDirs_cases (stays : world.isDir path = true ∨ .up ∉ path.moves)
    (made : world.makeDirs path = (after, .ok ())) : after = world ∨ after.OpensTo path [] := by
  by_cases filled : path.bytes = []
  · cases (makeDirsFrom_empty _ world filled).symm.trans made
    exact .inl rfl
  · cases isDir : world.isDir path with
    | true =>
        cases (makeDirsFrom_of_isDir _ isDir).symm.trans made
        exact .inl rfl
    | false =>
        have noUp := stays.resolve_left (Bool.eq_false_iff.1 isDir)
        exact .inr (opensTo_of_makeDirsFrom filled noUp isDir made)

end World

end RepoContract
