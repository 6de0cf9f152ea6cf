import Roteiro.Main
import Roteiro.Proofs.Grammar
import Roteiro.Proofs.Tree.Numbers
import Roteiro.Proofs.Tree.Orderly
import Roteiro.Proofs.Tree.Copies
import Roteiro.Proofs.Tree.Pairs
import Roteiro.Proofs.Tree.Marks
import Roteiro.Proofs.Tree.Blamed
import Roteiro.Proofs.Tree.Render
import Roteiro.Proofs.Tree.Functions
import Roteiro.Proofs.Tree.Twins
import Roteiro.Proofs.Tree.Likeness
import Roteiro.Proofs.Tree.Renaming
import Roteiro.Proofs.Tree.Inside
import Roteiro.Proofs.Tree.Phrase
import Roteiro.Proofs.Tree.Bare
import Roteiro.Proofs.Tree.ReadBack
import Roteiro.Proofs.Decimal.Number
import Roteiro.Proofs.Decimal.Nearest
import Roteiro.Proofs.Decimal.Shortest
import Roteiro.Proofs.Decimal.Text
import Roteiro.Proofs.Decimal.Rounding
import Roteiro.Proofs.Decimal.Unsigned
import Roteiro.Proofs.Value.Table
import Roteiro.Proofs.Value.Push
import Roteiro.Proofs.Value.Display
import Roteiro.Proofs.Value.Equality
import Roteiro.Proofs.Value.Keys
import Roteiro.Proofs.Value.Sized
import Roteiro.Proofs.Token.Words
import Roteiro.Proofs.Token.Seam
import Roteiro.Proofs.Token.Tiling
import Roteiro.Proofs.Token.Renaming
import Roteiro.Proofs.Token.Spacing
import Roteiro.Proofs.Parser.Reading
import Roteiro.Proofs.Parser.Soundness
import Roteiro.Proofs.Parser.Spelling
import Roteiro.Proofs.Parser.Taking
import Roteiro.Proofs.Parser.RoundTrip
import Roteiro.Proofs.Parser.Likeness
import Roteiro.Proofs.Parser.Renaming
import Roteiro.Proofs.Parser.Twins
import Roteiro.Proofs.Parser.Numbers
import Roteiro.Proofs.Parser.Seam
import Roteiro.Proofs.Parser.Fuel
import Roteiro.Proofs.Parser.Complaints
import Roteiro.Proofs.Parser.Progress
import Roteiro.Proofs.Parser.LoopExits
import Roteiro.Proofs.Parser.Counting
import Roteiro.Proofs.Parser.Sides
import Roteiro.Proofs.Parser.Shortening
import Roteiro.Proofs.Parser.Steps
import Roteiro.Proofs.Parser.Legible
import Roteiro.Proofs.Parser.Unambiguous
import Roteiro.Proofs.Scope.Analysis
import Roteiro.Proofs.Scope.Signals
import Roteiro.Proofs.Scope.Tidy
import Roteiro.Proofs.Scope.Surroundings
import Roteiro.Proofs.Scope.Recorded
import Roteiro.Proofs.Scope.Visits
import Roteiro.Proofs.Scope.Effects
import Roteiro.Proofs.Scope.Findings
import Roteiro.Proofs.Scope.Placed
import Roteiro.Proofs.Scope.Legal
import Roteiro.Proofs.Scope.Offences
import Roteiro.Proofs.Scope.Roles
import Roteiro.Proofs.Scope.Likeness
import Roteiro.Proofs.Scope.Renaming
import Roteiro.Proofs.Scope.Bound
import Roteiro.Proofs.Scope.Twins
import Roteiro.Proofs.Scope.Repeats
import Roteiro.Proofs.Machine.Moments
import Roteiro.Proofs.Machine.Kept
import Roteiro.Proofs.Machine.Code
import Roteiro.Proofs.Machine.Blame
import Roteiro.Proofs.Machine.Steady
import Roteiro.Proofs.Machine.Signals
import Roteiro.Proofs.Machine.Frames
import Roteiro.Proofs.Machine.Chains
import Roteiro.Proofs.Machine.Changes
import Roteiro.Proofs.Machine.Sound
import Roteiro.Proofs.Machine.References
import Roteiro.Proofs.Machine.Closed
import Roteiro.Proofs.Machine.WellFormed
import Roteiro.Proofs.Machine.Initializers
import Roteiro.Proofs.Machine.Order
import Roteiro.Proofs.Machine.Likeness
import Roteiro.Proofs.Machine.Pairing
import Roteiro.Proofs.Machine.Links
import Roteiro.Proofs.Machine.CountedLoop
import Roteiro.Proofs.Machine.Spelled
import Roteiro.Proofs.Machine.Renaming
import Roteiro.Proofs.Machine.Twins
import Roteiro.Proofs.Session.Stages
import Roteiro.Proofs.Session.Restored
import Roteiro.Proofs.Session.CountedLoop
import Roteiro.Proofs.Session.StepCopies
import Roteiro.Proofs.Session.History
import Roteiro.Proofs.Session.Arrays
import Roteiro.Proofs.Session.Names
import Roteiro.Proofs.Session.Receiver
import Roteiro.Proofs.Session.References
import Roteiro.Proofs.Session.WellFormed
import Roteiro.Proofs.Session.Construction
import Roteiro.Proofs.Session.Twins
import Roteiro.Proofs.Session.Rejected
import Roteiro.Proofs.Session.Lines
import Roteiro.Proofs.Session.Joined
import Roteiro.Proofs.Session.Keywords
import Roteiro.Proofs.Session.Renaming
import Roteiro.Proofs.Session.LocalNames
import Roteiro.Proofs.Session.Blame
