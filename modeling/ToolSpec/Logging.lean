/-!
# Log settings

Level, output format and filter of the log. Settings from outside replace the standard ones as far
as they can be read; the name of a format is read in any case.
-/

set_option autoImplicit false

namespace ToolSpec

inductive LogLevel
  | trace
  | debug
  | info
  | warn
  | error
  deriving DecidableEq, Repr

namespace LogLevel

def name : LogLevel → String
  | .trace => "TRACE"
  | .debug => "DEBUG"
  | .info => "INFO"
  | .warn => "WARN"
  | .error => "ERROR"

def all : List LogLevel := [.trace, .debug, .info, .warn, .error]

def ofName? (s : String) : Option LogLevel := all.find? (·.name = s)

end LogLevel

inductive LogFormat
  | pretty
  | compact
  | json
  deriving DecidableEq, Repr

namespace LogFormat

def name : LogFormat → String
  | .pretty => "Pretty"
  | .compact => "Compact"
  | .json => "Json"

def all : List LogFormat := [.pretty, .compact, .json]

/-- Case is ignored for ASCII letters. -/
def ofName? (s : String) : Option LogFormat :=
  all.find? fun f => f.name.toLower = s.toLower

end LogFormat

structure LogSettings where
  level : LogLevel
  format : LogFormat
  filter : Option String
  deriving DecidableEq

namespace LogSettings

def standard : LogSettings := ⟨.info, .pretty, none⟩

def ofNames (filter format : Option String) : LogSettings :=
  ⟨.info, (format.bind LogFormat.ofName?).getD .pretty, filter⟩

end LogSettings

end ToolSpec
