import Stencil.Main
import Stencil.Proofs.Resolution.Filling
import Stencil.Proofs.Resolution.Demand
import Stencil.Proofs.Resolution.Grounded
import Stencil.Proofs.Resolution.Session
import Stencil.Proofs.Resolution.Entries
import Stencil.Proofs.Resolution.Passes
import Stencil.Proofs.Resolution.Solution
import Stencil.Proofs.Resolution.Resolvable
import Stencil.Proofs.Resolution.Requests
import Stencil.Proofs.Resolution.Agreement
import Stencil.Proofs.Resolution.Overrides
import Stencil.Proofs.Resolution.Once
import Stencil.Proofs.Guard.Discipline
import Stencil.Proofs.Config.Loading
import Stencil.Proofs.Config.Guarantees
import Stencil.Proofs.Markup.Reading
import Stencil.Proofs.Markup.Lexing
import Stencil.Proofs.Markup.Cutting
import Stencil.Proofs.Markup.Places
import Stencil.Proofs.Config.Layout
import Stencil.Proofs.Answers.Completion
import Stencil.Proofs.Answers.Usability
import Stencil.Proofs.Answers.Completability
import Stencil.Proofs.Workspace.Refusal
import Stencil.Proofs.Placeholder.Tokens
import Stencil.Proofs.Resolution.Truthfulness
import Stencil.Proofs.Placeholder.Scanning
import Stencil.Proofs.Resolution.Interpolation
import Stencil.Proofs.Config.Nesting
import Stencil.Proofs.Config.Problems
import Stencil.Proofs.Markup.Spans
import Stencil.Proofs.Markup.ErrorPlaces
import Stencil.Proofs.Markup.Viability
import Stencil.Proofs.Config.ProblemPlaces
import Stencil.Proofs.Config.Attributes
import Stencil.Proofs.Config.Positions
import Stencil.Proofs.Answers.Asking
import Stencil.Proofs.Workspace.Collisions
import Stencil.Proofs.Workspace.Course
import Stencil.Proofs.Workspace.Permissions
import Stencil.Proofs.Workspace.Directories
import Stencil.Proofs.Markup.Slices
import Stencil.Proofs.Resolution.Escaping
