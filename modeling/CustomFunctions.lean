import CustomFunctions.Document.Generation
import CustomFunctions.Json.Reader
import CustomFunctions.Command.Check
import CustomFunctions.Command.Request
import CustomFunctions.Command.Run
import CustomFunctions.Main
import CustomFunctions.Proofs.FirstWins
import CustomFunctions.Proofs.Document.EnumReferences
import CustomFunctions.Proofs.Document.Orphans
import CustomFunctions.Proofs.Document.Accounting
import CustomFunctions.Proofs.Document.SingleFile
import CustomFunctions.Proofs.Document.UsableEnums
import CustomFunctions.Proofs.Document.Invocations
import CustomFunctions.Proofs.Document.LaterInput
import CustomFunctions.Proofs.Document.SchemaText
import CustomFunctions.Proofs.Files.Saving
import CustomFunctions.Proofs.Files.Sources
import CustomFunctions.Proofs.Files.Listing
import CustomFunctions.Proofs.Command.Check
import CustomFunctions.Proofs.Diff.Script
import CustomFunctions.Proofs.Doc.Rendering
import CustomFunctions.Proofs.ValueType.WellFormed
import CustomFunctions.Proofs.CustomEnum.Rules
import CustomFunctions.Proofs.Files.SizeLimit
import CustomFunctions.Proofs.TypeExpr.Printing
import CustomFunctions.Proofs.CustomEnum.Lookup
import CustomFunctions.Proofs.TypeExpr.Acceptance
import CustomFunctions.Proofs.ValueType.Unions
import CustomFunctions.Proofs.Signature.Repeating
import CustomFunctions.Proofs.Doc.Division
import CustomFunctions.Proofs.Signature.InlineTypes
import CustomFunctions.Proofs.Doc.Description
import CustomFunctions.Proofs.Signature.TagOrder
import CustomFunctions.Proofs.Review.Offenders
import CustomFunctions.Proofs.Document.Unrelated
import CustomFunctions.Proofs.Files.Expansion
import CustomFunctions.Proofs.Config
import CustomFunctions.Proofs.Script.EnumMembers
import CustomFunctions.Proofs.Script.StringLiteral
import CustomFunctions.Proofs.Script.Inference
import CustomFunctions.Proofs.TypeExpr.Shape
import CustomFunctions.Proofs.Script.IntegerLiteral
import CustomFunctions.Proofs.TypeExpr.Advance
import CustomFunctions.Proofs.Doc.Checked
