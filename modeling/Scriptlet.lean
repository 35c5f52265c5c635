import Scriptlet.Main
import Scriptlet.Program.Source
import Scriptlet.Proofs.Scope.Chain
import Scriptlet.Proofs.Session.Lines
import Scriptlet.Proofs.Grammar.Program
import Scriptlet.Proofs.Run.Sequence
import Scriptlet.Proofs.Parse.Parallel
import Scriptlet.Proofs.Token.Lines
import Scriptlet.Proofs.Parse.Horizon
import Scriptlet.Proofs.Parse.Recovery
import Scriptlet.Proofs.Parse.Blocks
import Scriptlet.Proofs.Parse.Segments
import Scriptlet.Proofs.Parse.Anchored
import Scriptlet.Proofs.Run.Anchored
import Scriptlet.Proofs.Session.Anchored
import Scriptlet.Proofs.Number.Nearest
import Scriptlet.Proofs.Token.Lexical
import Scriptlet.Proofs.Token.Spaced
import Scriptlet.Proofs.Session.Rejected
import Scriptlet.Proofs.Session.Relined
import Scriptlet.Proofs.Session.Interactive
import Scriptlet.Proofs.CommandLine.Status
import Scriptlet.Proofs.Parse.Rounds
import Scriptlet.Proofs.Program.WellFormed
import Scriptlet.Proofs.Parse.Unlimited
import Scriptlet.Proofs.Grammar.Nesting
import Scriptlet.Proofs.Run.Depth
import Scriptlet.Proofs.Run.Scoped
import Scriptlet.Proofs.Run.Targets
import Scriptlet.Proofs.Token.Newline
import Scriptlet.Proofs.Grammar.LeadingOperator
import Scriptlet.Proofs.Session.Printed
import Scriptlet.Proofs.Token.Position
import Scriptlet.Proofs.Parse.Order
import Scriptlet.Proofs.Number.Faithful
import Scriptlet.Proofs.Program.Outline
import Scriptlet.Proofs.Parse.Boundary
import Scriptlet.Proofs.Session.Conversation
