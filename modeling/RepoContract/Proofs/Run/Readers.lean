/-
# RepoContract.Proofs.Run.Readers: the contract is read twice

A run reads the contract before its rules, and refuses bytes that are no text. The rule on the
schema reads the file once more and puts replacement characters where it is ill-formed. On a text
the two read the same, so once a run gets as far as its rules, those on the contract have nothing
left to find (`World.validate_rereads`).

The rule alone is not as strict as the loader. It judges what is left of an ill-formed file, and
that can be a contract (`World.isValid_loadContract_illFormed`). Both together say when a contract
loads: the rule finds nothing, and the file is a text (`World.isValid_loadContract_iff`).
-/
import RepoContract.Proofs.Run.Sources

namespace RepoContract

set_option autoImplicit false

namespace World

variable {world : World} {root : Path} {bytes : List UInt8} {text : List Char}

/-! ## What each reader reads -/

/-- Of a text the lenient reader reads what the strict one does. -/
theorem readLossy_of_read {path : Path} (reads : world.read path = .ok bytes)
    (decodes : Text.Utf8.decode? bytes = some text) : world.readLossy path = .ok text := by
  rw [readLossy, reads, Except.map, Text.Utf8.decodeLossy_of_decode? decodes]

/-- A contract that is no text does not load, and that is all that is said of it. -/
theorem loadContract_of_illFormed (reads : world.read (contractPath root) = .ok bytes)
    (illFormed : Text.Utf8.decode? bytes = none) :
    world.loadContract root =
      ⟨contractPath root, none, none, [.unreadable (contractPath root) .notText]⟩ := by
  have refuses : world.readText (contractPath root) = .error .notText := by
    simp [readText, reads, illFormed, bind, Except.bind, throw, throwThe, MonadExceptOf.throw]
  rw [loadContract, isFile_eq_isOk, reads, refuses]
  rfl

end World

theorem Rule.schemaFindings_eq_nil_iff {problems : List LoadProblem} :
    Verdict.found (schemaFindings problems) = .found [] ↔ problems = [] := by
  simp [Verdict.found, schemaFindings]

namespace World

variable {world : World} {root : Path} {bytes : List UInt8}

/-! ## One reader against the other -/

/-- **A contract loads just when the rule on the schema finds nothing and the file is a text.** The
rule completes whatever the file holds. Of a text it says what the loader says; of any other file
the loader says one thing and the rule what is wrong with what is left of it. -/
theorem isValid_loadContract_iff (project : Project)
    (reads : project.world.read (contractPath project.root) = .ok bytes) :
    ((project.world.loadContract project.root).isValid = true ↔
      Rule.checkContractSchema project = .found [] ∧ ∃ text, Text.Utf8.encode text = bytes) ∧
    Rule.checkContractSchema project = .found (Rule.schemaFindings
      (Loaded.ofText (contractPath project.root) (Text.Utf8.decodeLossy bytes)).problems) ∧
    ((∃ text, Text.Utf8.encode text = bytes) → Rule.checkContractSchema project =
      .found (Rule.schemaFindings (project.world.loadContract project.root).problems)) ∧
    ((¬ ∃ text, Text.Utf8.encode text = bytes) →
      (project.world.loadContract project.root).problems =
        [.unreadable (contractPath project.root) .notText]) := by
  have checked := Rule.checkContractSchema_of_read reads
  cases decodes : Text.Utf8.decode? bytes with
  | none =>
      have noText : ¬ ∃ text, Text.Utf8.encode text = bytes := by
        rintro ⟨text, isText⟩
        rw [← Text.Utf8.decode?_eq_some_iff, decodes] at isText
        contradiction
      have loaded := loadContract_of_illFormed reads decodes
      refine ⟨iff_of_false ?_ fun accepted => noText accepted.2, checked,
        fun isText => absurd isText noText, fun _ => by rw [loaded]⟩
      rw [loaded]
      exact Bool.false_ne_true
  | some text =>
      have isText : ∃ text, Text.Utf8.encode text = bytes :=
        ⟨text, Text.Utf8.decode?_eq_some_iff.1 decodes⟩
      have loaded := loadContract_of_read reads decodes
      have same : Rule.checkContractSchema project =
          .found (Rule.schemaFindings (project.world.loadContract project.root).problems) := by
        rw [checked, loaded, Text.Utf8.decodeLossy_of_decode? decodes]
      refine ⟨?_, checked, fun _ => same, fun noText => absurd isText noText⟩
      rw [same, Rule.schemaFindings_eq_nil_iff, Loaded.isValid, List.isEmpty_iff]
      exact (and_iff_left isText).symm

/-- A tree with a contract for a language whose name has more bytes than characters. -/
def umlautProject : World :=
  holding (Text.Utf8.encode (Contract.minimal ["größe"] .lite).render.toList)

theorem loads_umlautProject : (umlautProject.loadContract (Path.ofString ".")).contract =
    some (.minimal ["größe"] .lite) := by
  rw [umlautProject, loadContract_holding (Text.Utf8.decode?_encode _)]
  exact Contract.loads_minimal (List.cons_ne_nil _ _) .lite _

/-- Such a contract loads, so the rule finds nothing and the file is a text. -/
theorem isValid_loadContract_umlaut :
    (umlautProject.loadContract (Path.ofString ".")).isValid = true ∧
    Rule.checkContractSchema ⟨umlautProject, Path.ofString ".", .minimal ["go"] .strict,
      ⟨Path.ofString ".", []⟩, .builtIn⟩ = .found [] ∧
    ∃ text, Text.Utf8.encode text =
      Text.Utf8.encode (Contract.minimal ["größe"] .lite).render.toList := by
  let project : Project := ⟨umlautProject, Path.ofString ".", .minimal ["go"] .strict,
    ⟨Path.ofString ".", []⟩, .builtIn⟩
  have reads : umlautProject.read (contractPath (Path.ofString ".")) =
      .ok (Text.Utf8.encode (Contract.minimal ["größe"] .lite).render.toList) := by
    rw [read, umlautProject, node_holding]
    rfl
  have isValid : (umlautProject.loadContract (Path.ofString ".")).isValid = true := by
    rw [umlautProject, loadContract_holding (Text.Utf8.decode?_encode _), Loaded.isValid,
      Loaded.problems_of_ofText (Contract.loads_minimal (List.cons_ne_nil _ _) .lite _)]
    rfl
  exact ⟨isValid, (isValid_loadContract_iff project reads).1.1 isValid⟩

/-- The file of a contract for one language, the name of which is no text. -/
def illFormedContract : List UInt8 :=
  (Text.Utf8.encode (Contract.minimal ["~"] .lite).render.toList).map fun byte =>
    if byte = 0x7E then 0xFF else byte

/-- A project with that contract, as it stands before its rules. -/
def illFormedProject : Project :=
  ⟨holding illFormedContract, Path.ofString ".", .minimal ["go"] .lite, ⟨Path.ofString ".", []⟩,
    .builtIn⟩

/-- **The rule on the schema does not see that a contract is no text.** It reads a replacement
character in the name of a language, which may be any text, and the loader refuses the file. -/
theorem isValid_loadContract_illFormed :
    illFormedProject.world.read (contractPath illFormedProject.root) = .ok illFormedContract ∧
    Rule.checkContractSchema illFormedProject = .found [] ∧
    (illFormedProject.world.loadContract illFormedProject.root).isValid = false := by
  have reads : illFormedProject.world.read (contractPath illFormedProject.root) =
      .ok illFormedContract := by
    rw [read, illFormedProject, node_holding]
    rfl
  have isRead : Text.Utf8.decodeLossy illFormedContract =
      (Contract.minimal ["\uFFFD"] .lite).render.toList := by
    decide +kernel
  have noText : Text.Utf8.decode? illFormedContract = none := by
    decide +kernel
  refine ⟨reads, ?_, ?_⟩
  · have loads := Contract.loads_minimal (List.cons_ne_nil "\uFFFD" []) .lite
      (contractPath illFormedProject.root)
    rw [Rule.checkContractSchema_of_read reads, isRead, Loaded.problems_of_ofText loads]
    rfl
  · rw [loadContract_of_illFormed reads noText]
    rfl

/-! ## The records of a run -/

variable {contract : Contract} {files : FileList} {excludes : List String}

/-- Behind the first rules of a run no record has the id of one of them. -/
theorem id_ne_of_mem_rest {first rest : List Rule} {project : Project} {rule : Rule}
    {record : Record} (isSelection : RuleTable.builtIn.select contract = first ++ rest)
    (isFirst : rule ∈ first)
    (isRecord : record ∈ rest.flatMap fun rule => (rule.execute project).records) :
    record.id ≠ rule.id := by
  obtain ⟨other, isRest, isRecord⟩ := List.mem_flatMap.1 isRecord
  have isRule : rule ∈ RuleTable.builtIn.rules :=
    RuleTable.mem_rules_of_mem_select (isSelection ▸ List.mem_append_left rest isFirst)
  have isOther : other ∈ RuleTable.builtIn.rules :=
    RuleTable.mem_rules_of_mem_select (isSelection ▸ List.mem_append_right first isRest)
  rcases Rule.id_of_mem_records isRecord with isOwn | isFurther
  · have distinct : ((RuleTable.builtIn.select contract).map (·.id)).Nodup :=
      RuleTable.nodup_ids_select RuleTable.nodup_ids_builtIn
    rw [isSelection, List.map_append, List.nodup_append'] at distinct
    rw [isOwn]
    intro sameId
    exact distinct.2.2 (List.mem_map_of_mem isFirst) (sameId ▸ List.mem_map_of_mem isRest)
  · rw [isFurther]
    exact RuleTable.id_ne_warnings isRule isOther

/-- **A run that gets as far as its rules finds nothing wrong with the contract.** The text that
the strict reader accepted is the one that the lenient reader reads, so the first two records are
those of the rules on the contract, both clean, and no other record has their ids. -/
theorem validate_rereads (loads : (world.loadContract root).contract = some contract)
    (lists : world.scan root .builtIn contract.languages excludes = .ok files) :
    (∃ text, world.readText (contractPath root) = .ok text ∧
      world.readLossy (contractPath root) = .ok text ∧
      (Loaded.ofText (contractPath root) text).problems = []) ∧
    ∃ rest, (world.validate root excludes .builtIn).records =
        ⟨"contract-present", "Repository contract present", .error, []⟩ ::
        ⟨"contract-schema", "Repository contract schema", .error, []⟩ :: rest ∧
      ∀ record ∈ rest, record.id ≠ "contract-present" ∧ record.id ≠ "contract-schema" := by
  constructor
  · obtain ⟨bytes, text, reads, decodes, isText⟩ := exists_text_of_loads loads
    exact ⟨text, readText_of_read reads decodes, readLossy_of_read reads decodes,
      Loaded.problems_of_ofText isText⟩
  · let project : Project := ⟨world, root, contract, files, .builtIn⟩
    obtain ⟨present, schema⟩ : Rule.checkContractPresent project = .found [] ∧
        Rule.checkContractSchema project = .found [] := Rule.passes_of_loads loads
    let first : Rule :=
      ⟨"contract-present", "Repository contract present", .error, Rule.checkContractPresent⟩
    let second : Rule :=
      ⟨"contract-schema", "Repository contract schema", .error, Rule.checkContractSchema⟩
    let others : List Rule :=
      RuleTable.builtIn.universal.drop 2 ++ RuleTable.builtIn.selectFrom [] contract.languages
    have isSelection : RuleTable.builtIn.select contract = [first, second] ++ others := rfl
    have firstRecord : (first.execute project).records =
        [⟨"contract-present", "Repository contract present", .error, []⟩] :=
      Rule.records_of_found present
    have secondRecord : (second.execute project).records =
        [⟨"contract-schema", "Repository contract schema", .error, []⟩] :=
      Rule.records_of_found schema
    refine ⟨others.flatMap fun rule => (rule.execute project).records, ?_, ?_⟩
    · rw [validate_of_ok world root excludes _ loads lists, Summary.ofRecords_eq, isSelection,
        List.flatMap_append, List.flatMap_cons, List.flatMap_cons, firstRecord, secondRecord]
      rfl
    · intro record isRecord
      have isFirst : first ∈ [first, second] := List.mem_cons_self
      have isSecond : second ∈ [first, second] :=
        List.mem_cons_of_mem _ (List.mem_singleton_self _)
      exact ⟨id_ne_of_mem_rest isSelection isFirst isRecord,
        id_ne_of_mem_rest isSelection isSecond isRecord⟩

/-- Both readers read the characters of such a name, so the run has nothing to say of it. -/
theorem validate_rereads_umlaut :
    (umlautProject.loadContract (Path.ofString ".")).contract =
      some (.minimal ["größe"] .lite) ∧
    ∃ rest, (umlautProject.validate (Path.ofString ".") ["docs/**"] .builtIn).records =
        ⟨"contract-present", "Repository contract present", .error, []⟩ ::
        ⟨"contract-schema", "Repository contract schema", .error, []⟩ :: rest ∧
      ∀ record ∈ rest, record.id ≠ "contract-present" ∧ record.id ≠ "contract-schema" := by
  have usable : ∀ glob ∈ ["docs/**"], Glob.isUsable glob = true := by decide +kernel
  obtain ⟨files, lists⟩ := exists_files_of_usable umlautProject (Path.ofString ".")
    (.minimal ["größe"] .lite) usable
  exact ⟨loads_umlautProject, (validate_rereads loads_umlautProject lists).2⟩

end World

end RepoContract
