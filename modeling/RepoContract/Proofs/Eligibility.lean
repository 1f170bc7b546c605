/-
# RepoContract.Proofs.Eligibility: which globs a scan accepts

A scan reads the globs of the user twice, behind the fixed ones for directories and behind those
for files. Both times it gets as far as the globs of the user are usable one by one: each is a
glob, and none is a search that is nested too deeply (`Glob.isUsable`). The fixed globs never
stand in the way, and nothing else of a scan can fail (`World.scan_verdict`).
-/
import Mathlib.Tactic.Push
import Mathlib.Tactic.Tauto
import RepoContract.Eligibility

namespace RepoContract

set_option autoImplicit false

namespace Glob

/-- Whether a glob is a search that is nested too deeply. -/
def isRefused (tokens : List Token) : Bool :=
  (Manner.ofTokens tokens = .searchByExtension || Manner.ofTokens tokens = .search)
    && isTooDeep tokens

/-- Whether a text is a glob that can be tried together with others. -/
def isUsable (text : String) : Bool :=
  match parse text with
  | .ok tokens => !isRefused tokens
  | .error _ => false

/-- What is wrong with some globs, given the fault with which they are refused. -/
inductive Faulty (globs : List String) : Fault → Prop
  /-- One of them is no glob. -/
  | bad {text : String} {problem : Problem} (given : text ∈ globs)
      (fails : parse text = .error problem) : Faulty globs (.badGlob text problem)
  /-- One of them is nested too deeply. -/
  | refused {text : String} {tokens : List Token} {refusal : Refusal} (given : text ∈ globs)
      (parses : parse text = .ok tokens) (tooDeep : isRefused tokens = true) :
      Faulty globs (.refusedGlobs refusal)

theorem isUsable_of_parse {text : String} {tokens : List Token}
    (parses : parse text = .ok tokens) : isUsable text = !isRefused tokens := by
  rw [isUsable, parses]

/-- Faulty globs have one among them that cannot be used. -/
theorem Faulty.exists_unusable {globs : List String} {fault : Fault}
    (faulty : Faulty globs fault) : ∃ text ∈ globs, isUsable text = false := by
  cases faulty with
  | bad given fails => exact ⟨_, given, by rw [isUsable, fails]⟩
  | refused given parses tooDeep => exact ⟨_, given, by rw [isUsable_of_parse parses, tooDeep]; rfl⟩

/-- Globs can be combined when none of them is refused. -/
theorem refusal?_eq_none_iff (globs : List (List Token)) :
    refusal? globs = none ↔ ∀ tokens ∈ globs, isRefused tokens = false := by
  have alone : (ofManner .searchByExtension globs).find? isTooDeep = none ↔
      ∀ tokens ∈ globs, Manner.ofTokens tokens = .searchByExtension →
        isTooDeep tokens = false := by
    simp [ofManner]
  have numbered : (ofManner .search globs).findIdx? isTooDeep = none ↔
      ∀ tokens ∈ globs, Manner.ofTokens tokens = .search → isTooDeep tokens = false := by
    simp [ofManner]
  have both : refusal? globs = none ↔
      (ofManner .searchByExtension globs).find? isTooDeep = none ∧
        (ofManner .search globs).findIdx? isTooDeep = none := by
    unfold refusal?
    split <;> simp_all
  rw [both, alone, numbered, ← forall₂_and]
  refine forall₂_congr fun tokens _ => ?_
  simp only [isRefused, Bool.and_eq_false_iff, Bool.or_eq_false_iff, decide_eq_false_iff_not]
  tauto

/-- Where globs that can be used stand in front, what is wrong is behind them. -/
theorem Faulty.of_append {fixed globs : List String} {fault : Fault}
    (usable : ∀ text ∈ fixed, isUsable text = true) (faulty : Faulty (fixed ++ globs) fault) :
    Faulty globs fault := by
  have behind {text : String} (given : text ∈ fixed ++ globs) (unusable : isUsable text = false) :
      text ∈ globs := by
    refine (List.mem_append.1 given).resolve_left fun inFront => ?_
    rw [usable text inFront] at unusable
    contradiction
  cases faulty with
  | bad given fails => exact .bad (behind given (by rw [isUsable, fails])) fails
  | refused given parses tooDeep =>
      refine .refused (behind given ?_) parses tooDeep
      rw [isUsable_of_parse parses, tooDeep]
      rfl

end Glob

namespace Eligibility

open Glob (Token isUsable isRefused Faulty)

/-- The reading of one glob. -/
def readGlob (glob : String) : Except Fault (List Token) :=
  (Glob.parse glob).mapError (.badGlob glob)

/-- Globs are read one by one, up to the first that is none. -/
theorem mapM_readGlob_verdict (globs : List String) :
    (∃ read, globs.mapM readGlob = .ok read ∧
      (∀ glob ∈ globs, ∃ tokens ∈ read, Glob.parse glob = .ok tokens) ∧
      ∀ tokens ∈ read, ∃ glob ∈ globs, Glob.parse glob = .ok tokens) ∨
    ∃ glob ∈ globs, ∃ problem, Glob.parse glob = .error problem ∧
      globs.mapM readGlob = .error (.badGlob glob problem) := by
  induction globs with
  | nil => exact .inl ⟨[], rfl, nofun, nofun⟩
  | cons glob rest ih =>
      rw [List.mapM_cons]
      cases parsed : Glob.parse glob with
      | error problem =>
          have fails : readGlob glob = .error (.badGlob glob problem) := by
            rw [readGlob, parsed]
            rfl
          exact .inr ⟨glob, List.mem_cons_self, problem, parsed, by rw [fails]; rfl⟩
      | ok tokens =>
          have reads : readGlob glob = .ok tokens := by
            rw [readGlob, parsed]
            rfl
          rw [reads]
          rcases ih with ⟨read, isRead, there, back⟩ | ⟨other, given, problem, fails, stops⟩
          · refine .inl ⟨tokens :: read, by rw [isRead]; rfl, ?_, ?_⟩
            · refine List.forall_mem_cons.2 ⟨⟨tokens, List.mem_cons_self, parsed⟩, ?_⟩
              intro other given
              obtain ⟨found, isToken, parses⟩ := there other given
              exact ⟨found, List.mem_cons_of_mem _ isToken, parses⟩
            · refine List.forall_mem_cons.2 ⟨⟨glob, List.mem_cons_self, parsed⟩, ?_⟩
              intro found isToken
              obtain ⟨other, given, parses⟩ := back found isToken
              exact ⟨other, List.mem_cons_of_mem _ given, parses⟩
          · exact .inr ⟨other, List.mem_cons_of_mem _ given, problem, fails, by rw [stops]; rfl⟩

theorem readGlobs_of_error {globs : List String} {fault : Fault}
    (stops : globs.mapM readGlob = .error fault) : readGlobs globs = .error fault := by
  show (globs.mapM readGlob >>= _) = _
  rw [stops]
  rfl

theorem readGlobs_of_ok {globs : List String} {read : List (List Token)}
    (isRead : globs.mapM readGlob = .ok read) :
    readGlobs globs =
      match Glob.refusal? read with
      | some refusal => .error (.refusedGlobs refusal)
      | none => .ok read := by
  show (globs.mapM readGlob >>= _) = _
  rw [isRead]
  simp only [bind, Except.bind]
  cases Glob.refusal? read <;> rfl

/-- **Globs are read together exactly when each of them can be used**; else they are faulty. -/
theorem readGlobs_verdict (globs : List String) :
    (∃ read, readGlobs globs = .ok read ∧ ∀ glob ∈ globs, isUsable glob = true) ∨
    ∃ fault, readGlobs globs = .error fault ∧ Faulty globs fault := by
  rcases mapM_readGlob_verdict globs with
    ⟨read, isRead, there, back⟩ | ⟨glob, given, problem, fails, stops⟩
  · rw [readGlobs_of_ok isRead]
    cases refused : Glob.refusal? read with
    | none =>
        refine .inl ⟨read, rfl, fun glob given => ?_⟩
        obtain ⟨tokens, isToken, parses⟩ := there glob given
        rw [Glob.isUsable_of_parse parses,
          (Glob.refusal?_eq_none_iff read).1 refused tokens isToken]
        rfl
    | some refusal =>
        have notAll : ¬ ∀ tokens ∈ read, isRefused tokens = false := by
          rw [← Glob.refusal?_eq_none_iff, refused]
          nofun
        push Not at notAll
        obtain ⟨tokens, isToken, tooDeep⟩ := notAll
        obtain ⟨glob, given, parses⟩ := back tokens isToken
        exact .inr ⟨_, rfl, .refused given parses (by simpa using tooDeep)⟩
  · exact .inr ⟨_, readGlobs_of_error stops, .bad given fails⟩

/-- Behind globs that can be used, only those of the user matter. -/
theorem readGlobs_append_verdict {fixed : List String} (globs : List String)
    (usable : ∀ glob ∈ fixed, isUsable glob = true) :
    (∃ read, readGlobs (fixed ++ globs) = .ok read ∧ ∀ glob ∈ globs, isUsable glob = true) ∨
    ∃ fault, readGlobs (fixed ++ globs) = .error fault ∧ Faulty globs fault := by
  rcases readGlobs_verdict (fixed ++ globs) with ⟨read, isRead, all⟩ | ⟨fault, stops, faulty⟩
  · exact .inl ⟨read, isRead, fun glob given => all glob (List.mem_append_right _ given)⟩
  · exact .inr ⟨fault, stops, faulty.of_append usable⟩

theorem isUsable_fixtureGlobs : ∀ glob ∈ fixtureGlobs, isUsable glob = true := by
  decide +kernel

theorem isUsable_minifiedGlobs : ∀ glob ∈ minifiedGlobs, isUsable glob = true := by
  decide +kernel

/-- A filter is set up exactly when every glob of the user can be used. -/
theorem filter_verdict (extensions excludes : List String) :
    (∃ found, filter extensions excludes = .ok found ∧ ∀ glob ∈ excludes, isUsable glob = true) ∨
    ∃ fault, filter extensions excludes = .error fault ∧ Faulty excludes fault := by
  rcases readGlobs_append_verdict excludes isUsable_fixtureGlobs with
    ⟨dirs, areDirs, usable⟩ | ⟨fault, stops, faulty⟩
  · -- the same globs are read a second time, so nothing new can be wrong with them
    rcases readGlobs_append_verdict excludes isUsable_minifiedGlobs with
      ⟨files, areFiles, -⟩ | ⟨fault, stops, faulty⟩
    · have isFilter : ∃ found, filter extensions excludes = .ok found := by
        rw [filter, areDirs, areFiles]
        exact ⟨_, rfl⟩
      obtain ⟨found, isFilter⟩ := isFilter
      exact .inl ⟨found, isFilter, usable⟩
    · refine .inr ⟨fault, ?_, faulty⟩
      rw [filter, areDirs, stops]
      rfl
  · refine .inr ⟨fault, ?_, faulty⟩
    rw [filter, stops]
    rfl

/-- What is wrong with globs does not depend on extensions. -/
theorem filter_eq_error {extensions excludes : List String} {fault : Fault}
    (stops : filter extensions excludes = .error fault) (others : List String) :
    filter others excludes = .error fault := by
  rw [filter] at stops ⊢
  cases dirs : readGlobs (fixtureGlobs ++ excludes) with
  | error first =>
      rw [dirs] at stops
      exact stops
  | ok dirGlobs =>
      rw [dirs] at stops
      cases files : readGlobs (minifiedGlobs ++ excludes) with
      | error second =>
          rw [files] at stops
          exact stops
      | ok fileGlobs => simp [files, bind, Except.bind, pure, Except.pure] at stops

/-- Globs that can be used make a filter. -/
theorem exists_filter_of_usable (extensions : List String) {excludes : List String}
    (usable : ∀ glob ∈ excludes, isUsable glob = true) :
    ∃ found, filter extensions excludes = .ok found := by
  rcases filter_verdict extensions excludes with ⟨found, isFilter, -⟩ | ⟨fault, -, faulty⟩
  · exact ⟨found, isFilter⟩
  · obtain ⟨glob, given, unusable⟩ := faulty.exists_unusable
    rw [usable glob given] at unusable
    contradiction

/-- The fixed globs can be used. -/
theorem exists_filter (extensions : List String) : ∃ found, filter extensions [] = .ok found :=
  exists_filter_of_usable extensions (List.forall_mem_nil _)

end Eligibility

/-- **A scan lists files exactly when every glob of the user can be used**; else its fault tells
what is wrong with them. -/
theorem World.scan_verdict (world : World) (root : Path) (languages : LanguageTable)
    (declared excludes : List String) :
    (∃ files, world.scan root languages declared excludes = .ok files ∧
      ∀ glob ∈ excludes, Glob.isUsable glob = true) ∨
    ∃ fault, world.scan root languages declared excludes = .error fault ∧
      Glob.Faulty excludes fault := by
  rcases Eligibility.filter_verdict (languages.extensionsFor declared) excludes with
    ⟨filter, isFilter, usable⟩ | ⟨fault, stops, faulty⟩
  · refine .inl ⟨.ofPaths root (world.walk filter root), ?_, usable⟩
    rw [scan, isFilter]
    rfl
  · refine .inr ⟨fault, ?_, faulty⟩
    rw [scan, stops]
    rfl

end RepoContract
