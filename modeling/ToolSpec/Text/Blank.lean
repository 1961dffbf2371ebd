/-!
# Blanks, lines and indentation

Lines are lists of characters. A line ends at a line feed, which takes one carriage return
before it; the last line is not empty, and keeps a final carriage return.
-/

set_option autoImplicit false

namespace ToolSpec.Text

/-- The white-space characters of Unicode. -/
def isBlank (c : Char) : Bool :=
  let n := c.toNat
  (9 ≤ n && n ≤ 13) || n = 0x20 || n = 0x85 || n = 0xA0 || n = 0x1680 ||
    (0x2000 ≤ n && n ≤ 0x200A) || n = 0x2028 || n = 0x2029 || n = 0x202F || n = 0x205F || n = 0x3000

abbrev Line := List Char

def skipBlanks (s : Line) : Line := s.dropWhile isBlank

def leadingBlanks (s : Line) : Line := s.takeWhile isBlank

def trimEnd : Line → Line
  | [] => []
  | c::rest =>
    match trimEnd rest with
    | [] => if isBlank c then [] else [c]
    | kept => c::kept

def trim (s : Line) : Line := trimEnd (skipBlanks s)

/-- The size of the leading blanks in bytes of UTF-8. -/
def indent (s : Line) : Nat := (leadingBlanks s).foldr (fun c n => c.utf8Size+n) 0

def lines : List Char → List Line
  | [] => []
  | '\n'::rest => []::lines rest
  | '\r' :: '\n'::rest => []::lines rest
  | c::rest =>
    match lines rest with
    | [] => [[c]]
    | first::more => (c::first)::more

def joinLines (ls : List Line) : Line := List.intercalate ['\n'] ls

theorem is_blank_newline : isBlank '\n' = true := by decide

theorem is_blank_space : isBlank ' ' = true := by decide

end ToolSpec.Text
