import FixedInit.Binary.Format
import FixedInit.Binary.Nearest
import FixedInit.Binary.Shortest
import FixedInit.Factory
import FixedInit.Failure
import FixedInit.Json.Record
import FixedInit.Json.Text
import FixedInit.Json.Value
import FixedInit.Literal
import FixedInit.Model.Component
import FixedInit.Model.Expr
import FixedInit.Model.Outline
import FixedInit.Model.Snapshot
import FixedInit.Model.TypeRef
import FixedInit.Number
import FixedInit.Options
import FixedInit.Pass
import FixedInit.Proofs.Arguments
import FixedInit.Proofs.Arrangement
import FixedInit.Proofs.Attachment
import FixedInit.Proofs.CloseFractions
import FixedInit.Proofs.ClosedForm
import FixedInit.Proofs.Course
import FixedInit.Proofs.Faithful
import FixedInit.Proofs.FirstConstant
import FixedInit.Proofs.FirstRefusal
import FixedInit.Proofs.Fit
import FixedInit.Proofs.Flavours
import FixedInit.Proofs.Identities
import FixedInit.Proofs.Installation
import FixedInit.Proofs.IntegerText
import FixedInit.Proofs.JsonLayout
import FixedInit.Proofs.JsonNumber
import FixedInit.Proofs.JsonRecord
import FixedInit.Proofs.NumeralDecimal
import FixedInit.Proofs.NumeralText
import FixedInit.Proofs.Patterns
import FixedInit.Proofs.QuotedText
import FixedInit.Proofs.Range
import FixedInit.Proofs.RealGrammar
import FixedInit.Proofs.RealLiterals
import FixedInit.Proofs.RealText
import FixedInit.Proofs.Recollection
import FixedInit.Proofs.Remarks
import FixedInit.Proofs.RememberedIdentities
import FixedInit.Proofs.RenderedIntegers
import FixedInit.Proofs.RenderedNumbers
import FixedInit.Proofs.RenderedTexts
import FixedInit.Proofs.Repetition
import FixedInit.Proofs.Requests
import FixedInit.Proofs.RoundTrip
import FixedInit.Proofs.Rounding
import FixedInit.Proofs.RoundingError
import FixedInit.Proofs.SchemaIntegers
import FixedInit.Proofs.ShortestDecimal
import FixedInit.Proofs.ShortestSize
import FixedInit.Proofs.SingleNumbers
import FixedInit.Proofs.SnapshotAfterPass
import FixedInit.Proofs.SnapshotLayout
import FixedInit.Proofs.SnapshotNumbers
import FixedInit.Proofs.Statics
import FixedInit.Proofs.Stretch
import FixedInit.Proofs.ThroughDouble
import FixedInit.Proofs.Treatment
import FixedInit.Report
import FixedInit.Target
import FixedInit.Text
