import ToolSpec.Declaration.Token

/-!
# Patterns

What a parameter is bound to. Only a plain identifier names a parameter; it may follow a binding
mode and may be matched against a further pattern. The word `self` may make the parameter a
receiver.
-/

set_option autoImplicit false

namespace ToolSpec

inductive Pattern
  | binding (id : Identifier)
  | receiver
  | other

namespace Pattern

def dropMode (mode : String) : List Token → List Token
  | .word id::rest => if id = .plain mode then rest else .word id::rest
  | ts => ts

/-- Reserved words name nothing, but `self` can be bound by reference. -/
def canBind (id : Identifier) : Bool := !id.isReserved || id = .plain "self"

/-- A pattern by its tokens. A word with anything but `@` behind it begins another kind of pattern,
and `self` alone or behind `mut` is a receiver. -/
def ofTokens (ts : List Token) : Pattern :=
  match ts with
  | [.word ⟨false, "self"⟩] | [.word ⟨false, "mut"⟩, .word ⟨false, "self"⟩] => .receiver
  | _ =>
    match dropMode "mut" (dropMode "ref" ts) with
    | [.word id] => if canBind id then .binding id else .other
    | .word id::.mark '@'::_ => if canBind id then .binding id else .other
    | _ => .other

def read (s : String) : Pattern := ofTokens (Token.read s)

def isReceiver : Pattern → Bool
  | .receiver => true
  | _ => false

end Pattern

end ToolSpec
