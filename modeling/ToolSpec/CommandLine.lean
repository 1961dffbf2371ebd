import ToolSpec.Sample.Tools

/-!
# Command line

The arguments may name a dialect and ask for strict schemas. Without a name both dialects are
shown; a name that is no dialect fails and shows nothing.
-/

set_option autoImplicit false

namespace ToolSpec.CommandLine

structure Outcome where
  exitCode : UInt8
  output : String
  deriving DecidableEq

/-- The dialects to show. An argument that starts with two dashes names none. -/
def dialects (args : List String) : Except SchemaError (List Dialect) :=
  match args.find? (!·.startsWith "--") with
  | some name => (Dialect.ofSelector name).map fun d => [d]
  | none => .ok [.openai, .claude]

def page (strict : Bool) (d : Dialect) : String :=
  (Json.arr (Sample.renderAll d strict)).pretty ++ "\n"

def run (args : List String) : Outcome :=
  match dialects args with
  | .ok ds => ⟨0, String.join (ds.map (page (args.contains "--strict")))⟩
  | .error _ => ⟨1, ""⟩

end ToolSpec.CommandLine
