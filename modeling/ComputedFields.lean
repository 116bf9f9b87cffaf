import ComputedFields.ChangeGate
import ComputedFields.Compile.Error
import ComputedFields.Compile.Operand
import ComputedFields.Compile.Steps
import ComputedFields.Json.Basic
import ComputedFields.Json.Draft
import ComputedFields.Json.Printer
import ComputedFields.Json.Reader
import ComputedFields.Json.Records
import ComputedFields.Json.Token
import ComputedFields.Number.Basic
import ComputedFields.Number.Binary64
import ComputedFields.Number.Decimal
import ComputedFields.Number.Shortest
import ComputedFields.Operator
import ComputedFields.Picker
import ComputedFields.Pipeline.Basic
import ComputedFields.Pipeline.Emit
import ComputedFields.Pipeline.Expr
import ComputedFields.Proofs.Acceptance
import ComputedFields.Proofs.Admission
import ComputedFields.Proofs.ClosedPipeline
import ComputedFields.Proofs.CompiledOperand
import ComputedFields.Proofs.CompiledRun
import ComputedFields.Proofs.CompiledStep
import ComputedFields.Proofs.DescribedTable
import ComputedFields.Proofs.FiniteDouble
import ComputedFields.Proofs.FollowedPath
import ComputedFields.Proofs.PipelineReferences
import ComputedFields.Proofs.ServedTable
import ComputedFields.Proofs.SplitJoin
import ComputedFields.Proofs.WrittenDecimal
import ComputedFields.Record.Format
import ComputedFields.Record.Misfit
import ComputedFields.Schema.Basic
import ComputedFields.Schema.FieldType
import ComputedFields.Schema.Lookup
import ComputedFields.Schema.Path
import ComputedFields.Schema.Records
import ComputedFields.Source
import ComputedFields.Step.Basic
import ComputedFields.Step.Records
import ComputedFields.Text.Blank
import ComputedFields.Text.CaseTable
import ComputedFields.Text.EscapeTable
import ComputedFields.Text.Lower
import ComputedFields.Text.Quoted
import ComputedFields.Text.Segments
import ComputedFields.Yaml.Block
import ComputedFields.Yaml.Document
import ComputedFields.Yaml.Folding
import ComputedFields.Yaml.Lexer
import ComputedFields.Yaml.Node
import ComputedFields.Yaml.Plain
import ComputedFields.Yaml.Quoted
import ComputedFields.Yaml.Records
import ComputedFields.Yaml.Scalar
import ComputedFields.Yaml.Spot
import ComputedFields.Yaml.Tag
import ComputedFields.Yaml.Token
import ComputedFields.Proofs.NameClash
import ComputedFields.Proofs.RefusedStep
import ComputedFields.Proofs.AgreeingDiagnosis
import ComputedFields.Proofs.LeftoverLookups
import ComputedFields.Proofs.EmittedOrder
import ComputedFields.Proofs.SharedNames
import ComputedFields.Proofs.FaithfulEmission
import ComputedFields.Proofs.EnumeratedRoutes
import ComputedFields.Proofs.PickedPaths
import ComputedFields.Proofs.PickedCalculation
import ComputedFields.Proofs.GrownSchema
import ComputedFields.Proofs.RootedLookups
import ComputedFields.Proofs.AppendedSteps
import ComputedFields.Proofs.UnsignedZero
import ComputedFields.Proofs.GatedRun
import ComputedFields.Proofs.HeldText
import ComputedFields.Proofs.RefusedPath
import ComputedFields.Proofs.NearestDouble
import ComputedFields.Proofs.IntegerConstant
import ComputedFields.Proofs.UnreadOperand
import ComputedFields.Proofs.ResultShape
import ComputedFields.Proofs.EmittedPaths
import ComputedFields.Proofs.CappedRoutes
import ComputedFields.Proofs.AssembledPipeline
import ComputedFields.Proofs.ExactLiteral
import ComputedFields.Proofs.SettledCase
import ComputedFields.Proofs.FaithfulFormat
import ComputedFields.Proofs.ReadBackSchema
import ComputedFields.Proofs.DraftedValue
import ComputedFields.Proofs.ReadBackSteps
import ComputedFields.Proofs.ExactCollision
