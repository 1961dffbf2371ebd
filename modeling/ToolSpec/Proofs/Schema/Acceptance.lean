import ToolSpec.Proofs.Json.Keys
import ToolSpec.Schema.Nullable

/-!
# The values a schema accepts

A value has to meet every keyword of an object schema. `type`, `enum`, `const`, `anyOf`, `oneOf`,
`allOf` and `items` have their meaning here; `description`, `default` and `examples` say nothing
about values; what the other keywords say together is part of the reading. A keyword whose own
value has the wrong form constrains nothing.
-/

set_option autoImplicit false

namespace ToolSpec

namespace Binary64

def whole? (x : Binary64) : Option Int :=
  let (n, d) := x.quotient
  if d ∣ n then some (if x.negative then -(n/d : Nat) else (n/d : Nat)) else none

end Binary64

def Number.plain : Number → Number
  | .float x => x.whole?.elim (.float x) .int
  | n => n

namespace Json

mutual

def plain : Json → Json
  | .num n => .num n.plain
  | .arr items => .arr (plainItems items)
  | .obj fields => .obj (plainFields fields)
  | v => v

def plainItems : List Json → List Json
  | [] => []
  | v::rest => plain v::plainItems rest

def plainFields : List (String × Json) → List (String × Json)
  | [] => []
  | (k, v)::rest => (k, plain v)::plainFields rest

end

def isOfType (integral : Number → Bool) (name : String) : Json → Bool
  | .null => name = "null"
  | .bool _ => name = "boolean"
  | .num n => name = "number" || name = "integer" && integral n
  | .str _ => name = "string"
  | .arr _ => name = "array"
  | .obj _ => name = "object"

theorem is_null_eq_false {v : Json} (h : v ≠ .null) : v.isNull = false := by
  cases v <;> simp_all [isNull]

end Json

/-- How the values in a schema are compared and typed. Null equals itself alone. -/
structure Reading where
  equal : Json → Json → Bool
  integral : Number → Bool
  rest : Fields Json → Json → Bool
  equal_null : ∀ v, equal .null v = v.isNull
  rest_nil : ∀ v, rest [] v = true

namespace Reading

/-- Values are compared as alternatives of a union are, and an integer is written as one. -/
def exact : Reading where
  equal := Json.same
  integral
    | .int _ => true
    | .float _ => false
  rest := fun _ _ => true
  equal_null v := by cases v <;> rfl
  rest_nil _ := rfl

/-- Numbers are compared by their value, and an integer is a number without a fraction. -/
def numeric : Reading where
  equal a b := a.plain.same b.plain
  integral n :=
    match n.plain with
    | .int _ => true
    | .float _ => false
  rest := fun _ _ => true
  equal_null v := by cases v <;> rfl
  rest_nil _ := rfl

def vocabulary : List String := ["type", "enum", "const", "anyOf", "oneOf", "allOf", "items"]

def isForeign (key : String) : Bool := key ∉ vocabulary && !Nullable.isDescriptive key

def foreign (fs : Fields Json) : Fields Json := fs.filter fun (k, _) => isForeign k

variable (r : Reading)

def positional : List (Json → Bool) → List Json → Bool
  | p::ps, v::vs => p v && positional ps vs
  | _, _ => true

/-- The verdict of one keyword. `whole` and `parts` judge by the keyword's value, taken as a
schema and as a list of schemas. -/
def keyword (key : String) (s : Json) (whole : Json → Bool) (parts : List (Json → Bool))
    (v : Json) : Bool :=
  match key, s with
  | "type", .str name => v.isOfType r.integral name
  | "type", .arr names => names.any fun n => n.str?.any (v.isOfType r.integral ·)
  | "enum", .arr values => values.any (r.equal · v)
  | "const", value => r.equal value v
  | "anyOf", .arr _ => parts.any (· v)
  | "oneOf", .arr _ => parts.countP (· v) = 1
  | "allOf", .arr _ => parts.all (· v)
  | "items", .arr _ => v.items?.all (positional parts ·)
  | "items", _ => v.items?.all (·.all whole)
  | _, _ => true

mutual

def accepts : Json → Json → Bool
  | .bool b => fun _ => b
  | .obj fields => fun v => meetsAll fields v && r.rest (foreign fields) v
  | _ => fun _ => true

def meetsAll : List (String × Json) → Json → Bool
  | [], _ => true
  | (k, s)::rest, v =>
    r.keyword k s (accepts s) (match s with
      | .arr parts => acceptors parts
      | _ => []) v && meetsAll rest v

def acceptors : List Json → List (Json → Bool)
  | [] => []
  | s::rest => accepts s::acceptors rest

end

theorem acceptors_eq_map (parts : List Json) : r.acceptors parts = parts.map r.accepts := by
  induction parts with
  | nil => rfl
  | cons s rest ih => simp [acceptors, ih]

def meets (key : String) (s v : Json) : Bool :=
  r.keyword key s (r.accepts s) ((s.items?.getD []).map r.accepts) v

theorem meets_all_eq_all (fs : Fields Json) (v : Json) :
    r.meetsAll fs v = fs.all fun (k, s) => r.meets k s v := by
  induction fs with
  | nil => rfl
  | cons e rest ih =>
    obtain ⟨k, s⟩ := e
    have hkeyword : r.meetsAll ((k, s)::rest) v = (r.meets k s v && r.meetsAll rest v) := by
      cases s <;> simp [meetsAll, meets, Json.items?, acceptors_eq_map]
    rw [hkeyword, ih, List.all_cons]

theorem accepts_obj (fs : Fields Json) (v : Json) :
    r.accepts (.obj fs) v = ((fs.all fun (k, s) => r.meets k s v) && r.rest (foreign fs) v) := by
  rw [← meets_all_eq_all, accepts]

theorem accepts_empty (v : Json) : r.accepts (.obj []) v = true := by
  simp [accepts_obj, foreign, r.rest_nil]

theorem accepts_cons {key : String} (h : isForeign key = false) (s : Json) (fs : Fields Json)
    (v : Json) :
    r.accepts (.obj ((key, s)::fs)) v = (r.meets key s v && r.accepts (.obj fs) v) := by
  simp [accepts_obj, foreign, h, Bool.and_assoc]

theorem accepts_iff_lookup {fs : Fields Json} (hn : (Fields.keys fs).Nodup) (v : Json) :
    r.accepts (.obj fs) v = true ↔
      (∀ k s, fs.lookup k = some s → r.meets k s v = true) ∧ r.rest (foreign fs) v = true := by
  simp [accepts_obj, List.all_eq_true, Fields.lookup_eq_some hn]

theorem is_of_type_null {integral : Number → Bool} {v : Json} :
    v.isOfType integral "null" = v.isNull := by
  cases v <;> simp [Json.isOfType, Json.isNull]

theorem meets_type (name : String) (v : Json) :
    r.meets "type" (.str name) v = v.isOfType r.integral name := by simp [meets, keyword]

theorem meets_enum (vs : List Json) (v : Json) :
    r.meets "enum" (.arr vs) v = vs.any (r.equal · v) := by simp [meets, keyword]

theorem meets_any_of (bs : List Json) (v : Json) :
    r.meets "anyOf" (.arr bs) v = bs.any (r.accepts · v) := by
  simp [meets, keyword, Json.items?, Function.comp_def]

theorem meets_of_not_mem {key : String} (h : key ∉ vocabulary) (s v : Json) :
    r.meets key s v = true := by
  simp only [vocabulary, List.mem_cons, List.not_mem_nil, or_false, not_or] at h
  obtain ⟨h1, h2, h3, h4, h5, h6, h7⟩ := h
  unfold meets keyword
  split <;> first | rfl | contradiction

end Reading

end ToolSpec
