import ToolSpec.Docstring.Basic

/-!
# Options

How a signature is compiled and rendered. A dialect is named by its selector; any other name is
refused.
-/

set_option autoImplicit false

namespace ToolSpec

inductive Dialect
  | openai
  | claude
  deriving DecidableEq, Repr

inductive SchemaError
  | unsupportedDialect (name : String)
  deriving DecidableEq, Repr

def SchemaError.message : SchemaError → String
  | .unsupportedDialect name =>
    "unsupported dialect '" ++ name ++ "': expected 'openai' or 'claude'"

namespace Dialect

def selector : Dialect → String
  | .openai => "openai"
  | .claude => "claude"

def wrapperKey : Dialect → String
  | .openai => "parameters"
  | .claude => "input_schema"

def ofSelector : String → Except SchemaError Dialect
  | "openai" => .ok .openai
  | "claude" => .ok .claude
  | name => .error (.unsupportedDialect name)

theorem of_selector_selector (d : Dialect) : ofSelector d.selector = .ok d := by cases d <;> rfl

end Dialect

structure Options where
  dialect : Dialect
  strict : Bool
  /-- Describe a parameter that nothing describes by its name. -/
  placeholders : Bool
  style : DocstringStyle
  deriving DecidableEq

namespace Options

def standard : Options := ⟨.openai, false, false, .auto⟩

end Options

end ToolSpec
