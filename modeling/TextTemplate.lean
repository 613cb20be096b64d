import TextTemplate.Main
import TextTemplate.Proofs.Parser.Outcome
import TextTemplate.Proofs.Parser.Reading
import TextTemplate.Proofs.Parser.Derivation
import TextTemplate.Proofs.Parser.Unambiguous
import TextTemplate.Proofs.Parser.Complete
import TextTemplate.Proofs.Parser.Sound
import TextTemplate.Proofs.Parser.Lockstep
import TextTemplate.Proofs.Parser.Height
import TextTemplate.Proofs.Parser.Language
import TextTemplate.Proofs.Parser.Tower
import TextTemplate.Proofs.Parser.Shape
import TextTemplate.Proofs.Parser.OnDemand
import TextTemplate.Proofs.Parser.Reuse
import TextTemplate.Proofs.Parser.Reentry
import TextTemplate.Proofs.Template.Bytes
import TextTemplate.Proofs.Template.Matches
import TextTemplate.Proofs.Template.Splice
import TextTemplate.Proofs.Template.Strict
import TextTemplate.Proofs.Template.Rescan
import TextTemplate.Proofs.Template.Closing
import TextTemplate.Proofs.Template.Lines
import TextTemplate.Proofs.Template.Reorder
import TextTemplate.Proofs.Value.RoundTrip
import TextTemplate.Proofs.Value.FromText
import TextTemplate.Proofs.Value.Indentation
import TextTemplate.Proofs.Value.Canonical
import TextTemplate.Proofs.Decimal.Rounded
import TextTemplate.Proofs.Token.LongestCut
import TextTemplate.Proofs.Token.Calls
import TextTemplate.Proofs.Expr.Path
import TextTemplate.Proofs.Expr.Provenance
import TextTemplate.Proofs.Expr.NumberText
import TextTemplate.Proofs.Expr.Summary
import TextTemplate.Proofs.Expr.PlusChain
import TextTemplate.Proofs.Expr.Item
import TextTemplate.Proofs.Expr.Extreme
import TextTemplate.Proofs.Binary64.HalfUp
import TextTemplate.Proofs.Template.Noninterference
import TextTemplate.Proofs.Command.Agreement
import TextTemplate.Proofs.Command.Reorder
