import RepoContract.Main
import RepoContract.Proofs.Comment.Mask
import RepoContract.Proofs.Contract.RoundTrip
import RepoContract.Proofs.Eligibility
import RepoContract.Proofs.Rule.Scope
import RepoContract.Proofs.Rule.Table
import RepoContract.Proofs.Run.Order
import RepoContract.Proofs.Run.Starter
import RepoContract.Proofs.Selection
import RepoContract.Proofs.Summary.Tally
import RepoContract.Proofs.Text.Utf8
import RepoContract.Proofs.Rule.Judgement
import RepoContract.Proofs.Summary.Document
import RepoContract.Proofs.Run.Sources
import RepoContract.Proofs.CommandLine.ExitCode
import RepoContract.Proofs.Tree.Overwrite
import RepoContract.Proofs.Run.Coverage
import RepoContract.Proofs.Run.Strictness
import RepoContract.Proofs.Comment.Extent
import RepoContract.Proofs.Rule.Repetition
import RepoContract.Proofs.Run.Spelling
import RepoContract.Proofs.Hint
import RepoContract.Proofs.Rule.Roles
import RepoContract.Proofs.Rule.Companions
import RepoContract.Proofs.Run.Readers
import RepoContract.Proofs.Starter.Effect
import RepoContract.Proofs.Run.Classified
import RepoContract.Proofs.Rule.Evidence
import RepoContract.Proofs.Comment.Boundary
import RepoContract.Proofs.Rule.Declared
import RepoContract.Proofs.FileList
import RepoContract.Proofs.Summary.Text
import RepoContract.Proofs.Pattern.Catalog
import RepoContract.Proofs.Pattern.Mutation
import RepoContract.Proofs.Selection.Minified
import RepoContract.Proofs.Selection.Hidden
import RepoContract.Proofs.Run.LineEnds
import RepoContract.Proofs.Comment.Opening
import RepoContract.Proofs.Rule.Naming
import RepoContract.Proofs.Fault
