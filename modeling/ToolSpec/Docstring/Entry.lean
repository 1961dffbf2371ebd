import ToolSpec.Text.Blank
import ToolSpec.Text.WordChar

/-!
# Documented parameters and line scanners

An entry is a parameter name with its description. Every docstring layout is a scanner: it goes
through the lines once, keeps the entry that later lines may continue, and emits entries in the
order in which they end.
-/

set_option autoImplicit false

namespace ToolSpec.Docstring
open ToolSpec.Text

structure Entry where
  name : String
  description : String
  deriving DecidableEq

def Entry.continued (line : Line) (e : Entry) : Entry :=
  let text := String.ofList (trim line)
  { e with description := if e.description = "" then text else e.description ++ " " ++ text }

def splitName? : Line → Option (Line × Line)
  | [] => none
  | c::rest =>
    if isNameStart c then some (c::rest.takeWhile isWordChar, rest.dropWhile isWordChar) else none

/-- At most two stars mark a variadic parameter; they are no part of the name. -/
def dropStars : Line → Line
  | '*' :: '*'::rest => rest
  | '*'::rest => rest
  | rest => rest

def sentence? (s : Line) : Option String :=
  let body := skipBlanks s
  if '\n' ∈ body then none else some (String.ofList (trimEnd body))

def afterColon? : Line → Option String
  | [] => some ""
  | c::rest => if isBlank c then sentence? rest else none

def isOneOf (words : List Line) (s : Line) : Bool := s ∈ words

structure Scanner (σ : Type) where
  start : σ
  step : σ → Line → σ × List Entry
  finish : σ → List Entry

namespace Scanner

variable {σ : Type}

def run (r : Scanner σ) : σ → List Line → List Entry
  | s, [] => r.finish s
  | s, l::ls => (r.step s l).2 ++ run r (r.step s l).1 ls

def entries (r : Scanner σ) (ls : List Line) : List Entry := r.run r.start ls

/-- The loop over the lines. It writes each entry behind those that were found before it. -/
def collect (r : Scanner σ) : σ → List Entry → List Line → List Entry
  | s, found, [] => found ++ r.finish s
  | s, found, l::ls => collect r (r.step s l).1 (found ++ (r.step s l).2) ls

def through (r : Scanner σ) : σ → List Line → σ × List Entry
  | s, [] => (s, [])
  | s, l::ls =>
    let (s', later) := through r (r.step s l).1 ls
    (s', (r.step s l).2 ++ later)

theorem run_append (r : Scanner σ) (s : σ) (xs ys : List Line) :
    r.run s (xs++ys) = (r.through s xs).2 ++ r.run (r.through s xs).1 ys := by
  induction xs generalizing s with
  | nil => rfl
  | cons l ls ih => simp [run, through, ih]

theorem run_eq_through (r : Scanner σ) (s : σ) (xs : List Line) :
    r.run s xs = (r.through s xs).2 ++ r.finish (r.through s xs).1 := by
  simpa [run] using r.run_append s xs []

theorem collect_eq_run (r : Scanner σ) (s : σ) (found : List Entry) (ls : List Line) :
    r.collect s found ls = found ++ r.run s ls := by
  induction ls generalizing s found with
  | nil => rfl
  | cons l ls ih => rw [collect, ih, run, List.append_assoc]

end Scanner

end ToolSpec.Docstring
