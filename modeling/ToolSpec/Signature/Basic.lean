import ToolSpec.Schema.Object

/-!
# Signatures

A signature is compiled by resolving each parameter against the docstring, and assembled by
inserting the compiled properties in the order of declaration.
-/

set_option autoImplicit false

namespace ToolSpec

structure Signature where
  name : String
  docstring : Option String
  parameters : List Parameter

structure FunctionSpec where
  name : String
  description : String
  parameters : List ParameterSpec

namespace Signature

def empty (name : String) : Signature := ⟨name, none, []⟩

def withDocstring (s : Signature) (text : String) : Signature := { s with docstring := some text }

def addParameter (s : Signature) (p : Parameter) : Signature :=
  { s with parameters := s.parameters ++ [p] }

def docs (s : Signature) (style : DocstringStyle) : Docstring :=
  match s.docstring with
  | none => .empty
  | some text => .parse style text

def compile (s : Signature) (o : Options) : FunctionSpec where
  name := s.name
  description := (s.docs o.style).summary
  parameters := s.parameters.map (·.spec (s.docs o.style) o.placeholders)

end Signature

namespace FunctionSpec

/-- The names of required parameters; a repeated name takes the verdict of its last declaration. -/
def required (f : FunctionSpec) : List String :=
  f.parameters.foldl
    (fun names p => names.filter (· ≠ p.name) ++ if p.isRequired then [p.name] else []) []

def properties (f : FunctionSpec) : List Property := f.parameters.map ParameterSpec.compile

theorem properties_of_parameter {s : Signature} {i : Nat} {p : Parameter}
    (h : s.parameters[i]? = some p) (o : Options) :
    (s.compile o).properties[i]? = some (p.spec (s.docs o.style) o.placeholders).compile := by
  simp [properties, Signature.compile, h]

def assemble (f : FunctionSpec) : CompiledSchema :=
  ⟨f.name, f.description, ObjectSchema.empty.insertAll f.properties⟩

def warnings (f : FunctionSpec) : List Warning :=
  ObjectSchema.empty.insertAllWarnings f.properties

end FunctionSpec

end ToolSpec
