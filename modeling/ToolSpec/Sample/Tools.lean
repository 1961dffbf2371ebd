import ToolSpec.Sample.Types
import ToolSpec.Tool

/-!
# Sample tools

Three functions with their declarations. Their documentation uses an argument block, a headed list
and descriptions on the parameters.
-/

set_option autoImplicit false

namespace ToolSpec.Sample

def docs (lines : List String) : List Attribute := lines.map .doc

def applied (name : String) (arg : TypeExpr) : TypeExpr := .path [name] [.type arg]

def parameter (attributes : List Attribute) (name : String) (type : TypeExpr) : ParameterDecl :=
  ⟨.binding ⟨false, name⟩, type, attributes⟩

def function (attributes : List Attribute) (name : String) (parameters : List ParameterDecl) :
    Declaration :=
  ⟨⟨false, name⟩, "pub", false, attributes, parameters⟩

def intArg (key : String) (n : Int) : FieldArg := ⟨key, .value (.int n)⟩

def getWeatherDecl : Declaration :=
  function
    (docs [" Returns the weather.", "", " Args:", "     city: The city to look up.",
      "     unit: Temperature unit."])
    "get_weather"
    [parameter [] "city" (.named "String"),
      parameter
        [.default (.value (.str "celsius")),
          .members [.word ⟨false, "celsius"⟩, .word ⟨false, "fahrenheit"⟩]]
        "unit" (applied "Option" (.named "String"))]

def searchDocumentsDecl : Declaration :=
  function
    (docs [" Search indexed documents.", "", " # Arguments", "", " * `query` - Free-text query.",
      " * `limit` - Maximum number of hits."])
    "search_documents"
    [parameter [.field [intArg "min_length" 1, intArg "max_length" 200]]
        "query" (.reference (.named "str")),
      parameter [.field [intArg "minimum" 1, intArg "maximum" 100], .default (.value (.int 10))]
        "limit" (.named "u32"),
      parameter [] "tags" (applied "Option" (applied "Vec" (.named "String")))]

def bookRoomDecl : Declaration :=
  function (docs [" Book a meeting room."]) "book_room"
    [parameter (docs [" Room identifier."]) "room" (.named "String"),
      parameter (docs [" When the room is needed."] ++ [.schema]) "during" (.named "TimeRange"),
      parameter (docs [" Attendee emails."]) "attendees" (applied "Vec" (.named "String"))]

def declarations : List Declaration := [getWeatherDecl, searchDocumentsDecl, bookRoomDecl]

def signatures : List Signature :=
  declarations.filterMap fun d => (d.signature catalogue).toOption

def options (d : Dialect) (strict : Bool) : Options :=
  { Options.standard with dialect := d, strict := strict }

def renderAll (d : Dialect) (strict : Bool) : List Json :=
  signatures.map fun s => (s.tool (options d strict)).toJson

def renderWarnings (d : Dialect) (strict : Bool) : List Warning :=
  signatures.flatMap fun s => s.toolWarnings (options d strict)

def getWeather (city : String) (unit : Option String) : String :=
  "21 degrees " ++ unit.getD "celsius" ++ " in " ++ city

def searchDocuments (query : String) (limit : Nat) (tags : Option (List String)) : List String :=
  List.replicate (min limit 3) query ++ tags.getD []

structure TimeRange where
  start : String
  stop : String

def bookRoom (room : String) (during : TimeRange) (attendees : List String) : Bool :=
  room ≠ "" && attendees ≠ [] && during.start ≤ during.stop

end ToolSpec.Sample
