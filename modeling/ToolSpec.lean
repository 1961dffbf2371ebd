import ToolSpec.Codec.Signature
import ToolSpec.Logging
import ToolSpec.Main
import ToolSpec.Proofs.Json.Equality
import ToolSpec.Proofs.Schema.Acceptance
import ToolSpec.Proofs.Schema.Widening
import ToolSpec.Proofs.DeclaredType.Distinct
import ToolSpec.Proofs.DeclaredType.Keys
import ToolSpec.Proofs.Schema.EqualSchemas
import ToolSpec.Proofs.DeclaredType.Meaning
import ToolSpec.Proofs.Schema.StrictForm
import ToolSpec.Proofs.Schema.Subschema
import ToolSpec.Proofs.Signature.Assembly
import ToolSpec.Proofs.Tool.ClosedObjects
import ToolSpec.Proofs.Tool.OptionalProperties
import ToolSpec.Proofs.Tool.RequiredProperties
import ToolSpec.Proofs.Signature.Requiredness
import ToolSpec.Proofs.Schema.Warnings
import ToolSpec.Proofs.Schema.DistinctWarnings
import ToolSpec.Proofs.Schema.Supported
import ToolSpec.Proofs.Schema.Edits
import ToolSpec.Proofs.Tool.Idempotence
import ToolSpec.Proofs.Codec.ReadBack
import ToolSpec.Proofs.Docstring.Documented
import ToolSpec.Proofs.Docstring.Scanning
import ToolSpec.Proofs.Docstring.ArgsBlock
import ToolSpec.Proofs.Docstring.FieldTags
import ToolSpec.Proofs.Docstring.HeadedList
import ToolSpec.Proofs.Signature.DeclarationOrder
import ToolSpec.Proofs.Signature.Nullability
import ToolSpec.Proofs.Tool.PlainAndStrict
import ToolSpec.Proofs.Schema.Bounds
import ToolSpec.Proofs.Schema.Consulted
import ToolSpec.Proofs.Schema.Loosening
import ToolSpec.Proofs.Docstring.Indentation
import ToolSpec.Proofs.Docstring.Sections
import ToolSpec.Proofs.Docstring.Styles
import ToolSpec.Proofs.Signature.InsertionRun
import ToolSpec.Proofs.DeclaredType.Alternatives
import ToolSpec.Proofs.DeclaredType.Bare
import ToolSpec.Proofs.DeclaredType.LiteralTypes
import ToolSpec.Proofs.Signature.Layers
import ToolSpec.Proofs.Signature.Sources
import ToolSpec.Proofs.Signature.ListedValues
import ToolSpec.Proofs.Json.Rounding
import ToolSpec.Proofs.DeclaredType.Parts
import ToolSpec.Proofs.Codec.Written
import ToolSpec.Proofs.Codec.Integers
import ToolSpec.Proofs.Codec.KeptIntegers
import ToolSpec.Proofs.Declaration.Parameters
import ToolSpec.Proofs.Declaration.TypeLayers
import ToolSpec.Proofs.Declaration.OwnSchema
import ToolSpec.Proofs.Docstring.TrailingBlanks
import ToolSpec.Proofs.Declaration.Documentation
import ToolSpec.Proofs.Declaration.Attributes
import ToolSpec.Proofs.Declaration.Faults
import ToolSpec.Proofs.Declaration.AttributeOrder
import ToolSpec.Proofs.Declaration.RawNames
import ToolSpec.Proofs.Json.Pointer
import ToolSpec.Proofs.Schema.Places
import ToolSpec.Proofs.Docstring.Clean
