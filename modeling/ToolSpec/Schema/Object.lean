import ToolSpec.Signature.Parameter
import ToolSpec.Warning

/-!
# Object schemas

The parameters of a tool, built by inserting properties. A repeated name replaces the earlier
property in place; its entry among the required names goes to the end or away.
-/

set_option autoImplicit false

namespace ToolSpec

structure ObjectSchema where
  kind : String
  properties : Fields Json
  required : List String

namespace ObjectSchema

def empty : ObjectSchema := ⟨"object", [], []⟩

def insert (s : ObjectSchema) (p : Property) : ObjectSchema where
  kind := s.kind
  properties := Fields.insert p.name p.schema s.properties
  required :=
    (if Fields.has p.name s.properties then s.required.filter (· ≠ p.name) else s.required) ++
      if p.required then [p.name] else []

def insertWarnings (s : ObjectSchema) (p : Property) : List Warning :=
  if Fields.has p.name s.properties then [.duplicateParameter p.name] else []

def insertAll (s : ObjectSchema) (ps : List Property) : ObjectSchema := ps.foldl insert s

def insertAllWarnings : ObjectSchema → List Property → List Warning
  | _, [] => []
  | s, p::ps => s.insertWarnings p ++ insertAllWarnings (s.insert p) ps

def toJson (s : ObjectSchema) : Json :=
  .obj [("type", .str s.kind), ("properties", .obj s.properties), ("required", .strs s.required)]

theorem insert_all_append (s : ObjectSchema) (ps qs : List Property) :
    s.insertAll (ps ++ qs) = (s.insertAll ps).insertAll qs := List.foldl_append

end ObjectSchema

structure CompiledSchema where
  name : String
  description : String
  parameters : ObjectSchema

namespace CompiledSchema

def empty (name : String) : CompiledSchema := ⟨name, "", .empty⟩

def withDescription (c : CompiledSchema) (text : String) : CompiledSchema :=
  { c with description := text }

def addParameter (c : CompiledSchema) (p : Property) : CompiledSchema :=
  { c with parameters := c.parameters.insert p }

end CompiledSchema

end ToolSpec
