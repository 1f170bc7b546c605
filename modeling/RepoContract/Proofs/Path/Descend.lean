/-
# RepoContract.Proofs.Path.Descend: paths of entries below a root

A path with a relative one joined to it has the parts of both, without the empty one behind a slash
at the end of the first (`Path.parts_join`), so it has the components of the first and the steps of
the second (`Path.components_join`).

The name of an entry is not empty, has no slash and is no step of its own (`Path.IsEntryName`). So
below any root, however it is spelled, the entries add their own names to its components
(`Path.components_descend`), and taking the root off again leaves these names with slashes between
them (`Path.relativeTo_descend`).
-/
import Mathlib.Data.List.Infix
import RepoContract.FileList
import RepoContract.Tree.Walk

namespace RepoContract

set_option autoImplicit false

namespace Path

/-- A name that an entry of a directory can have. -/
def IsEntryName (name : Name) : Prop :=
  name ≠ [] ∧ slash ∉ name ∧ name ≠ [dot] ∧ name ≠ [dot, dot]

instance (name : Name) : Decidable (IsEntryName name) :=
  inferInstanceAs (Decidable (_ ∧ _ ∧ _ ∧ _))

variable {path root below : Path} {name : Name} {names : List Name}

theorem IsEntryName.not_idle (entry : IsEntryName name) : isIdle name = false := by
  simp [isIdle, entry.1, entry.2.2.1]

theorem IsEntryName.stepOf_eq (entry : IsEntryName name) : stepOf name = .name name := by
  simp [stepOf, entry.2.2.2]

/-! ## Parts -/

theorem parts_of_no_slash {bytes : List UInt8} (whole : slash ∉ bytes) : parts bytes = [bytes] := by
  induction bytes with
  | nil => rfl
  | cons b rest ih =>
      obtain ⟨noSlash, restWhole⟩ := not_or.1 (List.mem_cons.not.1 whole)
      rw [parts, if_neg (Ne.symm noSlash), ih restWhole]

/-- A slash separates the parts in front of it from those behind it. -/
theorem parts_append_slash (front rest : List UInt8) :
    parts (front ++ slash :: rest) = parts front ++ parts rest := by
  induction front with
  | nil => simp [parts]
  | cons b front ih =>
      rw [List.cons_append, parts, parts, ih]
      split
      · rfl
      · obtain ⟨part, more, isParts⟩ := List.exists_cons_of_ne_nil (parts_ne_nil front)
        rw [isParts]
        rfl

theorem parts_slash_cons (rest : List UInt8) : parts (slash :: rest) = [] :: parts rest := by
  rw [parts, if_pos rfl]

theorem glue_cons_cons (name next : Name) (more : List Name) :
    glue (name :: next :: more) = name ++ slash :: glue (next :: more) := by
  simp [glue, List.intercalate, List.intersperse]

/-- Names with slashes between them are told apart again. -/
theorem parts_glue (filled : names ≠ []) (entries : ∀ name ∈ names, slash ∉ name) :
    parts (glue names) = names := by
  induction names with
  | nil => exact absurd rfl filled
  | cons name rest ih =>
      obtain ⟨whole, restWhole⟩ := List.forall_mem_cons.1 entries
      cases rest with
      | nil => simpa [glue, List.intercalate] using parts_of_no_slash whole
      | cons next more =>
          rw [glue_cons_cons, parts_append_slash, parts_of_no_slash whole, ih (by simp) restWhole]
          rfl

/-! ## Joining a name -/

theorem not_isAbsolute_name (entry : IsEntryName name) : isAbsolute ⟨name⟩ = false := by
  cases name with
  | nil => rfl
  | cons b rest =>
      have noSlash := (not_or.1 (List.mem_cons.not.1 entry.2.1)).1
      simpa [isAbsolute] using Ne.symm noSlash

theorem join_empty (path : Path) : (Path.mk []).join path = path := by
  simp [join]

/-- The text of a path with a relative one joined to it: one slash stands between the two. -/
theorem bytes_join (filled : path.bytes ≠ []) :
    ∃ front, (path.bytes = front ∧ front ≠ [] ∨ path.bytes = front ++ [slash]) ∧
      ∀ below : Path, below.isAbsolute = false →
        (path.join below).bytes = front ++ slash :: below.bytes := by
  by_cases ends : path.bytes.getLast? = some slash
  · obtain ⟨front, isFront⟩ := List.getLast?_eq_some_iff.1 ends
    refine ⟨front, .inr isFront, fun below relative => ?_⟩
    rw [join, relative, Bool.false_or, if_neg (by simpa using filled), if_pos ends]
    simp [isFront]
  · refine ⟨path.bytes, .inl ⟨rfl, filled⟩, fun below relative => ?_⟩
    rw [join, relative, Bool.false_or, if_neg (by simpa using filled), if_neg ends]

theorem bytes_join_ne_nil (filled : path.bytes ≠ []) (entry : IsEntryName name) :
    (path.join ⟨name⟩).bytes ≠ [] := by
  obtain ⟨front, -, joined⟩ := bytes_join filled
  simp [joined ⟨name⟩ (not_isAbsolute_name entry)]

theorem isAbsolute_join (filled : path.bytes ≠ []) (relative : below.isAbsolute = false) :
    (path.join below).isAbsolute = path.isAbsolute := by
  obtain ⟨front, ⟨isFront, frontFilled⟩ | isFront, joined⟩ := bytes_join filled
  · rw [isAbsolute, isAbsolute, joined below relative, isFront,
      List.head?_append_of_ne_nil _ frontFilled]
  · rw [isAbsolute, isAbsolute, joined below relative, isFront]
    cases front <;> rfl

/-- Some parts, or these with an empty one behind them. -/
def EndsAs (front all : List Name) : Prop :=
  all = front ∨ all = front ++ [[]]

/-- The parts of a path with a relative one joined to it are those of both, without the empty one
behind a slash at the end of the first. -/
theorem parts_join (filled : path.bytes ≠ []) :
    ∃ front, front ≠ [] ∧ EndsAs front (parts path.bytes) ∧
      ∀ below : Path, below.isAbsolute = false →
        parts (path.join below).bytes = front ++ parts below.bytes := by
  obtain ⟨front, isFront, joined⟩ := bytes_join filled
  refine ⟨parts front, parts_ne_nil front, ?_, fun below relative => ?_⟩
  · rcases isFront with ⟨isFront, -⟩ | isFront
    · exact .inl (by rw [isFront])
    · exact .inr (by rw [isFront, parts_append_slash]; rfl)
  · rw [joined below relative, parts_append_slash]

/-- The same holds behind the first byte, be it a slash or a dot. -/
theorem parts_drop_join (filled : path.bytes ≠ []) :
    ∃ front, EndsAs front (parts (path.bytes.drop 1)) ∧
      ∀ below : Path, below.isAbsolute = false →
        parts ((path.join below).bytes.drop 1) = front ++ parts below.bytes := by
  obtain ⟨front, isFront, joined⟩ := bytes_join filled
  cases front with
  | nil =>
      -- the path is a lone slash, and no part is in front of what is joined
      rcases isFront with ⟨-, none⟩ | isFront
      · exact absurd rfl none
      · refine ⟨[], .inr (by rw [isFront]; rfl), fun below relative => ?_⟩
        rw [joined below relative]
        rfl
  | cons b front =>
      refine ⟨parts front, ?_, fun below relative => ?_⟩
      · rcases isFront with ⟨isFront, -⟩ | isFront
        · exact .inl (by rw [isFront]; rfl)
        · exact .inr (by
            rw [isFront, List.cons_append, List.drop_one, List.tail_cons, parts_append_slash]
            rfl)
      · rw [joined below relative, List.cons_append, List.drop_one, List.tail_cons,
          parts_append_slash]

theorem anchor_join (filled : path.bytes ≠ []) (relative : below.isAbsolute = false) :
    (path.join below).anchor = path.anchor := by
  have sameHead : (parts (path.join below).bytes).head? = (parts path.bytes).head? := by
    obtain ⟨front, frontFilled, isFront | isFront, joined⟩ := parts_join filled <;>
      rw [joined below relative, isFront] <;> cases front <;> first | contradiction | rfl
  rw [anchor, anchor, isAbsolute_join filled relative, sameHead]

theorem body_join (filled : path.bytes ≠ []) (relative : below.isAbsolute = false) :
    ∃ front, (path.join below).body = front ++ parts below.bytes ∧ EndsAs front path.body := by
  rw [body, body, anchor_join filled relative]
  split
  · obtain ⟨front, -, isFront, joined⟩ := parts_join filled
    exact ⟨front, joined below relative, isFront⟩
  · obtain ⟨front, isFront, joined⟩ := parts_drop_join filled
    exact ⟨front, joined below relative, isFront⟩

/-! ## Components -/

/-- The parts that are steps. -/
def stepParts (parts : List Name) : List Name :=
  parts.filter (!isIdle ·)

theorem EndsAs.stepParts_eq {front all : List Name} (ends : EndsAs front all) :
    stepParts all = stepParts front := by
  rcases ends with rfl | rfl <;> simp [stepParts, isIdle]

theorem stepParts_append (front rest : List Name) :
    stepParts (front ++ rest) = stepParts front ++ stepParts rest :=
  List.filter_append ..

/-- A path starts with a slash, or with a dot that stands alone, or with its first step. -/
theorem anchored (path : Path) :
    (∃ rest, path.bytes = slash :: rest ∧ path.anchorBytes = [slash] ∧ path.body = parts rest) ∨
    (∃ rest more, path.bytes = dot :: rest ∧ parts rest = [] :: more ∧ path.anchorBytes = [dot] ∧
      path.body = parts rest) ∨
    path.isAbsolute = false ∧ path.anchorBytes = [] ∧ path.body = parts path.bytes := by
  cases isBytes : path.bytes with
  | nil => exact .inr (.inr (by simp [isAbsolute, anchorBytes, body, anchor, isBytes, parts]))
  | cons b rest =>
      by_cases isSlash : b = slash
      · refine .inl ⟨rest, by rw [isSlash], ?_, ?_⟩ <;>
          simp [anchorBytes, body, anchor, isAbsolute, isBytes, isSlash]
      · obtain ⟨part, more, isParts⟩ := List.exists_cons_of_ne_nil (parts_ne_nil rest)
        have first : parts (b :: rest) = (b :: part) :: more := by
          rw [parts, if_neg isSlash, isParts]
        by_cases isDot : b = dot ∧ part = []
        · obtain ⟨rfl, rfl⟩ := isDot
          refine .inr (.inl ⟨rest, more, rfl, isParts, ?_, ?_⟩) <;>
            simp [anchorBytes, body, anchor, isAbsolute, isBytes, isSlash, first]
        · refine .inr (.inr ⟨?_, ?_, ?_⟩) <;>
            simp [anchorBytes, body, anchor, isAbsolute, isBytes, isSlash, first, isDot]

/-- The anchor of a path is none of its steps. -/
theorem stepParts_body (path : Path) : stepParts path.body = stepParts (parts path.bytes) := by
  rcases path.anchored with ⟨rest, isBytes, -, isBody⟩ |
    ⟨rest, more, isBytes, isParts, -, isBody⟩ | ⟨-, -, isBody⟩
  · rw [isBody, isBytes, parts_slash_cons]
    rfl
  · rw [isBody, isBytes, isParts, parts, if_neg (by decide), isParts]
    rfl
  · rw [isBody]

theorem steps_eq (path : Path) : path.steps = (stepParts path.body).map stepOf := by
  rw [stepParts_body]
  rfl

/-- **A relative path that is joined adds its steps.** -/
theorem components_join (filled : path.bytes ≠ []) (relative : below.isAbsolute = false) :
    (path.join below).components = path.components ++ below.steps := by
  obtain ⟨front, joined, ends⟩ := body_join filled relative
  rw [components, components, anchor_join filled relative, steps_eq, steps_eq, joined,
    stepParts_append, ends.stepParts_eq, List.map_append, List.append_assoc]
  rfl

theorem steps_name (entry : IsEntryName name) : steps ⟨name⟩ = [.name name] := by
  rw [steps, parts_of_no_slash entry.2.1]
  simp [entry.not_idle, entry.stepOf_eq]

theorem components_join_name (filled : path.bytes ≠ []) (entry : IsEntryName name) :
    (path.join ⟨name⟩).components = path.components ++ [.name name] := by
  rw [components_join filled (not_isAbsolute_name entry), steps_name entry]

/-- Only the empty path has no components. -/
theorem components_ne_nil (filled : path.bytes ≠ []) : path.components ≠ [] := by
  intro none
  rw [components, List.append_eq_nil_iff, steps_eq, List.map_eq_nil_iff] at none
  obtain ⟨noAnchor, noStep⟩ := none
  rw [body, noAnchor] at noStep
  cases isBytes : path.bytes with
  | nil => exact filled isBytes
  | cons b rest =>
      obtain ⟨part, more, isParts⟩ := List.exists_cons_of_ne_nil (parts_ne_nil rest)
      by_cases isSlash : b = slash
      · simp [anchor, isAbsolute, isBytes, isSlash] at noAnchor
      · -- the first part is not empty, and it is no dot as that would be an anchor
        by_cases isDot : b :: part = [dot] <;>
          simp [anchor, isAbsolute, isBytes, parts, isSlash, isParts, isDot, stepParts,
            isIdle] at noAnchor noStep

/-! ## Entries below a root -/

theorem descend_concat (root : Path) (names : List Name) (name : Name) :
    root.descend (names ++ [name]) = (root.descend names).join ⟨name⟩ := by
  rw [descend, List.foldl_append]
  rfl

theorem bytes_descend_ne_nil (filled : root.bytes ≠ [])
    (entries : ∀ name ∈ names, IsEntryName name) : (root.descend names).bytes ≠ [] := by
  induction names using List.reverseRecOn with
  | nil => exact filled
  | append_singleton names name ih =>
      rw [List.forall_mem_append] at entries
      rw [descend_concat]
      exact bytes_join_ne_nil (ih entries.1) (entries.2 name (List.mem_singleton_self name))

/-- **An entry below a root adds the names that lead to it to the components of the root.** -/
theorem components_descend (filled : root.bytes ≠ []) (entries : ∀ name ∈ names, IsEntryName name) :
    (root.descend names).components = root.components ++ names.map .name := by
  induction names using List.reverseRecOn with
  | nil => exact (List.append_nil _).symm
  | append_singleton names name ih =>
      rw [List.forall_mem_append] at entries
      rw [descend_concat, components_join_name (bytes_descend_ne_nil filled entries.1)
        (entries.2 name (List.mem_singleton_self name)), ih entries.1, List.map_append,
        List.append_assoc]
      rfl

/-- Entries in the same place are the same. -/
theorem descend_injective {first second : List Name} (filled : root.bytes ≠ [])
    (firstEntries : ∀ name ∈ first, IsEntryName name)
    (secondEntries : ∀ name ∈ second, IsEntryName name)
    (same : FileList.samePlace (root.descend first) (root.descend second) = true) :
    first = second := by
  rw [FileList.samePlace, beq_iff_eq, components_descend filled firstEntries,
    components_descend filled secondEntries, List.append_cancel_left_eq] at same
  exact List.map_injective_iff.2 (fun _ _ => Component.name.inj) same

theorem body_descend (filled : root.bytes ≠ []) (entries : ∀ name ∈ names, IsEntryName name) :
    ∃ front, (root.descend names).body = front ++ names ∧
      stepParts front = stepParts root.body := by
  induction names using List.reverseRecOn with
  | nil => exact ⟨root.body, (List.append_nil _).symm, rfl⟩
  | append_singleton names name ih =>
      rw [List.forall_mem_append] at entries
      have entry := entries.2 name (List.mem_singleton_self name)
      obtain ⟨front, joined, ends⟩ := body_join (bytes_descend_ne_nil filled entries.1)
        (not_isAbsolute_name entry)
      rw [parts_of_no_slash entry.2.1] at joined
      obtain ⟨rootFront, isBody, sameSteps⟩ := ih entries.1
      rw [descend_concat, joined]
      rcases ends with isFront | isFront
      · exact ⟨rootFront, by rw [← isFront, isBody, List.append_assoc], sameSteps⟩
      · -- the part that goes away is empty, so it belongs to the root
        cases names using List.reverseRecOn with
        | nil =>
            refine ⟨front, rfl, ?_⟩
            have ends : EndsAs front (root.descend []).body := .inr isFront
            rw [← sameSteps, ← ends.stepParts_eq, isBody, List.append_nil]
        | append_singleton names last =>
            rw [isBody, ← List.append_assoc] at isFront
            have isEmpty := (List.append_inj' isFront rfl).2
            have lastEntry :=
              entries.1 last (List.mem_append_right _ (List.mem_singleton_self last))
            exact absurd (List.cons.inj isEmpty).1 lastEntry.1

theorem afterSteps_append (front rest : List Name) :
    ∃ idle, afterSteps (stepParts front).length (front ++ rest) = idle ++ rest ∧
      ∀ part ∈ idle, isIdle part = true := by
  induction front with
  | nil => exact ⟨[], by rw [stepParts, List.filter_nil, List.length_nil, afterSteps], nofun⟩
  | cons part front ih =>
      by_cases isIdlePart : isIdle part = true
      · have sameSteps : stepParts (part :: front) = stepParts front := by
          simp [stepParts, isIdlePart]
        rw [sameSteps, List.cons_append]
        cases steps : (stepParts front).length with
        | zero =>
            refine ⟨part :: front, by rw [afterSteps]; rfl, ?_⟩
            rw [List.length_eq_zero_iff, stepParts, List.filter_eq_nil_iff] at steps
            exact List.forall_mem_cons.2 ⟨isIdlePart, by simpa using steps⟩
        | succ count =>
            rw [afterSteps, if_pos isIdlePart, ← steps]
            exact ih
      · have oneMore : (stepParts (part :: front)).length = (stepParts front).length + 1 := by
          simp [stepParts, isIdlePart]
        rw [oneMore, List.cons_append, afterSteps, if_neg isIdlePart]
        exact ih

theorem dropIdleEnd_eq_self (entries : ∀ name ∈ names, IsEntryName name) :
    dropIdleEnd names = names := by
  cases names using List.reverseRecOn with
  | nil => rfl
  | append_singleton names name =>
      have entry := entries name (List.mem_append_right _ (List.mem_singleton_self name))
      simp [dropIdleEnd, entry.not_idle]

theorem dropWhile_isIdle_append {idle : List Name} (isIdleAll : ∀ part ∈ idle, isIdle part = true)
    (entries : ∀ name ∈ names, IsEntryName name) : (idle ++ names).dropWhile isIdle = names := by
  rw [List.dropWhile_append_of_pos isIdleAll]
  cases names with
  | nil => rfl
  | cons name rest => simp [(entries name List.mem_cons_self).not_idle]

/-- **Seen from the root, an entry is at the names that lead to it.** -/
theorem relativeTo_descend (filled : root.bytes ≠ []) (entries : ∀ name ∈ names, IsEntryName name) :
    (root.descend names).relativeTo root = ofNames names := by
  have isBelow : root.components.isPrefixOf (root.descend names).components = true := by
    rw [components_descend filled entries, List.isPrefixOf_iff_prefix]
    exact List.prefix_append _ _
  obtain ⟨front, isBody, sameSteps⟩ := body_descend filled entries
  have steps : root.steps.length = (stepParts front).length := by
    rw [steps_eq, List.length_map, sameSteps]
  obtain ⟨idle, rest, isIdleAll⟩ := afterSteps_append front names
  rw [relativeTo, below?, if_pos isBelow, if_neg (components_ne_nil filled), isBody, steps, rest]
  dsimp only
  rw [dropWhile_isIdle_append isIdleAll entries, dropIdleEnd_eq_self entries]
  rfl

/-! ## Moves -/

theorem IsEntryName.ofPart_eq (entry : IsEntryName name) : Move.ofPart name = .down name := by
  simp [Move.ofPart, entry.1, entry.2.2.1, entry.2.2.2]

theorem isAbsolute_join_name (path : Path) (entry : IsEntryName name) :
    (path.join ⟨name⟩).isAbsolute = path.isAbsolute := by
  by_cases filled : path.bytes = []
  · have isEmpty : path = ⟨[]⟩ := congrArg Path.mk filled
    rw [isEmpty, join_empty, not_isAbsolute_name entry]
    rfl
  · exact isAbsolute_join filled (not_isAbsolute_name entry)

/-- Joining a name to a path adds one move. A slash at the end of the path is no move then. -/
theorem moves_join (path : Path) :
    ∃ front, (path.moves = front ∨ path.moves = front ++ [.idle]) ∧
      ∀ name, IsEntryName name → (path.join ⟨name⟩).moves = front ++ [.down name] := by
  -- the parts that are looked at are all of them, or those behind a slash in front
  have ofParts {front all : List Name} (ends : EndsAs front all) :
      all.map Move.ofPart = front.map Move.ofPart ∨
        all.map Move.ofPart = front.map Move.ofPart ++ [.idle] := by
    rcases ends with rfl | rfl
    · exact .inl rfl
    · exact .inr (by rw [List.map_append]; rfl)
  by_cases filled : path.bytes = []
  · refine ⟨[], .inr ?_, fun name entry => ?_⟩
    · rw [moves, isAbsolute, filled]
      rfl
    · have isEmpty : path = ⟨[]⟩ := congrArg Path.mk filled
      rw [isEmpty, join_empty, moves, not_isAbsolute_name entry, if_neg Bool.false_ne_true,
        parts_of_no_slash entry.2.1, List.map_singleton, entry.ofPart_eq, List.nil_append]
  · by_cases absolute : path.isAbsolute = true
    · obtain ⟨front, ends, joined⟩ := parts_drop_join filled
      refine ⟨front.map Move.ofPart, ?_, fun name entry => ?_⟩
      · rw [moves, if_pos absolute]
        exact ofParts ends
      · have relative := not_isAbsolute_name entry
        rw [moves, isAbsolute_join filled relative, if_pos absolute, joined _ relative,
          parts_of_no_slash entry.2.1, List.map_append, List.map_singleton, entry.ofPart_eq]
    · obtain ⟨front, -, ends, joined⟩ := parts_join filled
      refine ⟨front.map Move.ofPart, ?_, fun name entry => ?_⟩
      · rw [moves, if_neg absolute]
        exact ofParts ends
      · have relative := not_isAbsolute_name entry
        rw [moves, isAbsolute_join filled relative, if_neg absolute, joined _ relative,
          parts_of_no_slash entry.2.1, List.map_append, List.map_singleton, entry.ofPart_eq]

/-! ## Paths of names -/

/-- The names of entries are told by their path. -/
theorem ofNames_injective {first second : List Name}
    (firstEntries : ∀ name ∈ first, IsEntryName name)
    (secondEntries : ∀ name ∈ second, IsEntryName name) (same : ofNames first = ofNames second) :
    first = second := by
  have filled {names : List Name} (entries : ∀ name ∈ names, IsEntryName name)
      (isEmpty : glue [] = glue names) : names = [] := by
    by_contra some
    have isParts := parts_glue some fun name isName => (entries name isName).2.1
    rw [← isEmpty] at isParts
    exact (entries [] (by rw [← isParts]; exact List.mem_singleton_self _)).1 rfl
  have sameText : glue first = glue second := congrArg Path.bytes same
  by_cases none : first = []
  · subst none
    exact (filled secondEntries sameText).symm
  · by_cases secondNone : second = []
    · subst secondNone
      exact absurd (filled firstEntries sameText.symm) none
    · rw [← parts_glue none fun name isName => (firstEntries name isName).2.1, sameText,
        parts_glue secondNone fun name isName => (secondEntries name isName).2.1]

/-- The last component of the path of some names is the last of them. -/
theorem fileName?_ofNames (entries : ∀ name ∈ names, IsEntryName name) :
    (ofNames names).fileName? = names.getLast? := by
  cases names using List.reverseRecOn with
  | nil => rfl
  | append_singleton names name =>
      have entry := entries name (List.mem_append_right _ (List.mem_singleton_self name))
      have isParts : parts (ofNames (names ++ [name])).bytes = names ++ [name] :=
        parts_glue (by simp) fun name isName => (entries name isName).2.1
      have lastStep : (ofNames (names ++ [name])).steps.getLast? = some (.name name) := by
        rw [steps, isParts]
        simp [entry.not_idle, entry.stepOf_eq]
      rw [fileName?, components, List.getLast?_append, lastStep]
      simp

end Path

end RepoContract
