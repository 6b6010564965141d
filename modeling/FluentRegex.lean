import FluentRegex.Main
import FluentRegex.Proofs.Losslessness
import FluentRegex.Proofs.Programs
import FluentRegex.Proofs.Reacceptance
import FluentRegex.Proofs.Grammar
import FluentRegex.Proofs.Recognition
import FluentRegex.Proofs.Containment
import FluentRegex.Proofs.Batches
import FluentRegex.Proofs.SetBodies
import FluentRegex.Proofs.LayoutLexemes
import FluentRegex.Proofs.Nesting
import FluentRegex.Proofs.SetFixedPoint
import FluentRegex.Proofs.LiteralRuns
import FluentRegex.Proofs.Descent
import FluentRegex.Proofs.Spacing
import FluentRegex.Proofs.ErrorPlaces
import FluentRegex.Proofs.Slashes
import FluentRegex.Proofs.LayoutFixedPoint
import FluentRegex.Proofs.SetReader
import FluentRegex.Proofs.RangeTexts
