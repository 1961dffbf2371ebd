import ToolSpec.Codec.DeclaredType
import ToolSpec.Signature.Basic

/-!
# Signatures, options and compiled schemas as JSON

A parameter has a default exactly if its object has the key, even with null under it. Only what a
compiled schema needs is read back: its kind may be any text.
-/

set_option autoImplicit false

namespace ToolSpec
open Codec

namespace Parameter

def toJson (p : Parameter) : Json :=
  .obj <| [("name", .str p.name), ("annotation", p.type.toJson)] ++
    entry "default" id p.default

def ofJson? : Json → Option Parameter
  | .obj fs => do
    let name ← needed "name" Json.str? fs
    let type ← withDefault "annotation" .unknown DeclaredType.ofJson? fs
    pure ⟨name, type, fs.lookup "default"⟩
  | _ => none

end Parameter

namespace ParameterSpec

def toJson (p : ParameterSpec) : Json :=
  .obj [("name", .str p.name), ("annotation", p.type.toJson),
    ("default_value", .ofOption p.default), ("description", .str p.description),
    ("enum_values", .ofOption (p.enum.map .arr))]

end ParameterSpec

namespace Property

def toJson (p : Property) : Json :=
  .obj [("name", .str p.name), ("schema", p.schema), ("required", .bool p.required)]

end Property

namespace Signature

def toJson (s : Signature) : Json :=
  .obj <| [("name", .str s.name)] ++ entry "docstring" .str s.docstring ++
    [("parameters", .arr (s.parameters.map Parameter.toJson))]

def ofJson? : Json → Option Signature
  | .obj fs => do
    let name ← needed "name" Json.str? fs
    let docstring ← optional "docstring" Json.str? fs
    let parameters ← withDefault "parameters" [] (list Parameter.ofJson?) fs
    pure ⟨name, docstring, parameters⟩
  | _ => none

end Signature

namespace FunctionSpec

def toJson (f : FunctionSpec) : Json :=
  .obj [("name", .str f.name), ("description", .str f.description),
    ("parameters", .arr (f.parameters.map ParameterSpec.toJson))]

end FunctionSpec

namespace Dialect

def ofJson? : Json → Option Dialect := named [.openai, .claude] selector

end Dialect

namespace DocstringStyle

def name : DocstringStyle → String
  | .auto => "auto"
  | .google => "google"
  | .sphinx => "sphinx"
  | .rustdoc => "rustdoc"

def ofJson? : Json → Option DocstringStyle := named [.auto, .google, .sphinx, .rustdoc] name

end DocstringStyle

namespace Options

def toJson (o : Options) : Json :=
  .obj [("dialect", .str o.dialect.selector), ("strict", .bool o.strict),
    ("placeholder_descriptions", .bool o.placeholders), ("docstring_style", .str o.style.name)]

def ofJson? : Json → Option Options
  | .obj fs => do
    let dialect ← withDefault "dialect" standard.dialect Dialect.ofJson? fs
    let strict ← withDefault "strict" standard.strict Json.bool? fs
    let placeholders ←
      withDefault "placeholder_descriptions" standard.placeholders Json.bool? fs
    let style ← withDefault "docstring_style" standard.style DocstringStyle.ofJson? fs
    pure ⟨dialect, strict, placeholders, style⟩
  | _ => none

end Options

namespace ObjectSchema

def ofJson? : Json → Option ObjectSchema
  | .obj fs => do
    let kind ← needed "type" Json.str? fs
    let properties ← needed "properties" Json.fields? fs
    let names ← needed "required" strings fs
    pure ⟨kind, properties, names⟩
  | _ => none

end ObjectSchema

namespace CompiledSchema

def toJson (c : CompiledSchema) : Json :=
  .obj [("name", .str c.name), ("description", .str c.description),
    ("parameters", c.parameters.toJson)]

def ofJson? : Json → Option CompiledSchema
  | .obj fs => do
    let name ← needed "name" Json.str? fs
    let description ← needed "description" Json.str? fs
    let parameters ← needed "parameters" ObjectSchema.ofJson? fs
    pure ⟨name, description, parameters⟩
  | _ => none

end CompiledSchema

end ToolSpec
