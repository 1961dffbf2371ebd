import ToolSpec.Schema.Strict
import ToolSpec.Signature.Basic

/-!
# Tools

A tool is a compiled function in the form that a vendor expects. The dialects differ in the key
of the parameters; a strict tool carries the strict form of its parameters and says so.
-/

set_option autoImplicit false

namespace ToolSpec

structure Tool where
  dialect : Dialect
  name : String
  description : String
  parameters : Json
  strict : Bool

namespace Tool

def toJson (t : Tool) : Json :=
  .obj <| [("name", .str t.name), ("description", .str t.description),
    (t.dialect.wrapperKey, t.parameters)] ++ if t.strict then [("strict", .bool true)] else []

end Tool

namespace CompiledSchema

def render (c : CompiledSchema) (d : Dialect) : Tool :=
  ⟨d, c.name, c.description, c.parameters.toJson, false⟩

/-- Every property is required before the schema takes its strict form. -/
def strictParameters (c : CompiledSchema) : Json :=
  Strict.form (Nullable.requireAll c.parameters.toJson)

def renderStrict (c : CompiledSchema) (d : Dialect) : Tool :=
  ⟨d, c.name, c.description, c.strictParameters, true⟩

def strictWarnings (c : CompiledSchema) : List Warning :=
  Strict.warnings [] (Nullable.requireAll c.parameters.toJson)

end CompiledSchema

namespace Signature

def tool (s : Signature) (o : Options) : Tool :=
  let compiled := (s.compile o).assemble
  if o.strict then compiled.renderStrict o.dialect else compiled.render o.dialect

def toolWarnings (s : Signature) (o : Options) : List Warning :=
  (s.compile o).warnings ++ if o.strict then (s.compile o).assemble.strictWarnings else []

def functionSchema (s : Signature) (selector : String) : Except SchemaError Json := do
  let d ← Dialect.ofSelector selector
  pure (s.tool { Options.standard with dialect := d }).toJson

end Signature

end ToolSpec
