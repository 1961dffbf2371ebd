import ToolSpec.DeclaredType.Keywords

/-!
# Declared types

The type of a parameter as it is declared. Metadata wraps a type in layers; the leaf is the type
without its layers, and the items of inner layers come first.
-/

set_option autoImplicit false

namespace ToolSpec

inductive MetadataItem
  | plainText (text : String)
  | docTag (text : String)
  | enumClass (members : List String)
  | field (keywords : Keywords)
  | extra (fields : Fields Json)
  | other

namespace MetadataItem

def docTag? : MetadataItem → Option String
  | .docTag text => some text
  | _ => none

def plainText? : MetadataItem → Option String
  | .plainText text => some text
  | _ => none

def enumClass? : MetadataItem → Option (List String)
  | .enumClass members => some members
  | _ => none

def keywords? : MetadataItem → Option Keywords
  | .field keywords => some keywords
  | _ => none

def extra? : MetadataItem → Option (Fields Json)
  | .extra fields => some fields
  | _ => none

def ofJson : Json → MetadataItem
  | .obj fields => .extra fields
  | _ => .other

end MetadataItem

inductive DeclaredType
  | primitive (kind : Primitive)
  | array (element : DeclaredType)
  | objectMap (value : DeclaredType)
  | tuple (elements : List DeclaredType)
  | union (members : List DeclaredType)
  | literal (values : List Scalar)
  | enumRef (members : List String)
  | annotated (inner : DeclaredType) (items : List MetadataItem)
  | schema (value : Json)
  | unknown

namespace DeclaredType

def null : DeclaredType := .primitive .null

def optional (inner : DeclaredType) : DeclaredType := .union [inner, null]

def leaf : DeclaredType → DeclaredType
  | .annotated inner _ => leaf inner
  | a => a

/-- The items of all layers above the leaf, inner layers first. -/
def metadata : DeclaredType → List MetadataItem
  | .annotated inner items => metadata inner ++ items
  | _ => []

def isNull : DeclaredType → Bool
  | .primitive .null => true
  | .annotated inner _ => isNull inner
  | _ => false

theorem is_null_annotated (a : DeclaredType) (items : List MetadataItem) :
    (DeclaredType.annotated a items).isNull = a.isNull := rfl

theorem metadata_annotated (a : DeclaredType) (items : List MetadataItem) :
    (DeclaredType.annotated a items).metadata = a.metadata ++ items := rfl

end DeclaredType

end ToolSpec
