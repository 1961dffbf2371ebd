import ToolSpec.Text.Blank
import ToolSpec.Text.WordChar

/-!
# Identifiers

An identifier may be written raw, with `r#` in front; the mark is no part of its name. The
characters of identifiers follow Unicode 17: they are the word characters, which follow Unicode 16,
the letters, marks and digits added since, and a few exceptions in both directions. A word that the
language reserves is an identifier only if it is raw.
-/

set_option autoImplicit false

namespace ToolSpec
open ToolSpec.Text

structure Identifier where
  raw : Bool
  name : String
  deriving DecidableEq

namespace Identifier

/-- Characters of identifiers that are no word characters. -/
def addedRanges : List (Nat × Nat) :=
  [(0xB7, 0xB7), (0x387, 0x387), (0x1369, 0x1371), (0x19DA, 0x19DA), (0x2118, 0x2118),
   (0x212E, 0x212E), (0x30FB, 0x30FB), (0xFF65, 0xFF65)]

/-- Letters, marks and digits that are new in Unicode 17. -/
def newerRanges : List (Nat × Nat) :=
  [(0x88F, 0x88F), (0xC5C, 0xC5C), (0xCDC, 0xCDC), (0x1ACF, 0x1ADD), (0x1AE0, 0x1AEB),
   (0xA7CE, 0xA7CF), (0xA7D2, 0xA7D2), (0xA7D4, 0xA7D4), (0xA7F1, 0xA7F1), (0x10940, 0x10959),
   (0x10EC5, 0x10EC7), (0x10EFA, 0x10EFB), (0x11B60, 0x11B67), (0x11DB0, 0x11DDB),
   (0x11DE0, 0x11DE9), (0x16EA0, 0x16EB8), (0x16EBB, 0x16ED3), (0x16FF2, 0x16FF6),
   (0x187F8, 0x187FF), (0x18D09, 0x18D1E), (0x18D80, 0x18DF2), (0x1E6C0, 0x1E6DE),
   (0x1E6E0, 0x1E6F5), (0x1E6FE, 0x1E6FF), (0x2B73A, 0x2B73F), (0x2CEA2, 0x2CEAD),
   (0x323B0, 0x33479)]

/-- Word characters that do not occur in identifiers: enclosing marks, enclosed letters, and letters
that a compatibility mapping takes apart. -/
def removedRanges : List (Nat × Nat) :=
  [(0x37A, 0x37A), (0x488, 0x489), (0x1ABE, 0x1ABE), (0x20DD, 0x20E0), (0x20E2, 0x20E4),
   (0x24B6, 0x24E9), (0x2E2F, 0x2E2F), (0xA670, 0xA672), (0xFC5E, 0xFC63), (0xFDFA, 0xFDFB),
   (0xFE70, 0xFE70), (0xFE72, 0xFE72), (0xFE74, 0xFE74), (0xFE76, 0xFE76), (0xFE78, 0xFE78),
   (0xFE7A, 0xFE7A), (0xFE7C, 0xFE7C), (0xFE7E, 0xFE7E), (0x1F130, 0x1F149),
   (0x1F150, 0x1F169), (0x1F170, 0x1F189)]

def isNameChar (c : Char) : Bool :=
  inRanges addedRanges c.toNat || inRanges newerRanges c.toNat ||
    (isWordChar c && !inRanges removedRanges c.toNat)

def reservedWords : List String :=
  ["_", "abstract", "as", "async", "await", "become", "box", "break", "const", "continue", "crate",
    "do", "dyn", "else", "enum", "extern", "false", "final", "fn", "for", "if", "impl", "in", "let",
    "loop", "macro", "match", "mod", "move", "mut", "override", "priv", "pub", "ref", "return",
    "Self", "self", "static", "struct", "super", "trait", "true", "try", "type", "typeof", "unsafe",
    "unsized", "use", "virtual", "where", "while", "yield"]

def isReserved (i : Identifier) : Bool := !i.raw && i.name ∈ reservedWords

def plain (name : String) : Identifier := ⟨false, name⟩

def read (s : String) : Identifier :=
  match s.toList with
  | 'r' :: '#'::name => ⟨true, String.ofList name⟩
  | _ => plain s

def spelling (i : Identifier) : String := if i.raw then "r#" ++ i.name else i.name

theorem is_reserved_raw (name : String) : (Identifier.mk true name).isReserved = false := rfl

end Identifier

end ToolSpec
