import ToolSpec.Proofs.Schema.Acceptance

/-!
# Bounds on numbers, lengths and sizes

Each bound asks something of numbers, of strings or of arrays, and nothing of any other value. They
complete what a schema says about a value that is not an object: such a value is accepted if it
meets every key, by the key's own meaning and as a bound.
-/

set_option autoImplicit false

namespace ToolSpec

def Number.value : Number → Rat
  | .int n => n
  | .float x =>
    let (n, d) := x.quotient
    mkRat (if x.negative then -n else n) d

def Number.size? (n : Number) : Option Nat :=
  match n.plain with
  | .int (.ofNat size) => some size
  | _ => none

namespace Json

mutual

def objectFree : Json → Bool
  | .arr items => eachObjectFree items
  | .obj _ => false
  | _ => true

def eachObjectFree : List Json → Bool
  | [] => true
  | v::rest => objectFree v && eachObjectFree rest

end

theorem object_free_arr (items : List Json) :
    (Json.arr items).objectFree = true ↔ ∀ v ∈ items, v.objectFree = true := by
  rw [objectFree]
  induction items with
  | nil => simp [eachObjectFree]
  | cons v rest ih => simp [eachObjectFree, ih]

theorem is_object_of_object_free {v : Json} (h : v.objectFree = true) : v.isObject = false := by
  cases v <;> simp_all [objectFree, isObject, fields?]

end Json

namespace Reading

variable (r : Reading)

def boundKeywords : List String :=
  ["minimum", "maximum", "exclusiveMinimum", "exclusiveMaximum", "multipleOf", "minLength",
    "maxLength", "minItems", "maxItems", "uniqueItems"]

def bound (key : String) (limit v : Json) : Bool :=
  match key, limit, v with
  | "minimum", .num l, .num x => l.value ≤ x.value
  | "maximum", .num l, .num x => x.value ≤ l.value
  | "exclusiveMinimum", .num l, .num x => l.value < x.value
  | "exclusiveMaximum", .num l, .num x => x.value < l.value
  | "multipleOf", .num l, .num x => l.value ≤ 0 || (x.value/l.value).isInt
  | "minLength", .num l, .str s => l.size?.all (· ≤ s.length)
  | "maxLength", .num l, .str s => l.size?.all (s.length ≤ ·)
  | "minItems", .num l, .arr vs => l.size?.all (· ≤ vs.length)
  | "maxItems", .num l, .arr vs => l.size?.all (vs.length ≤ ·)
  | "uniqueItems", .bool true, .arr vs => vs.Pairwise fun a b => r.equal a b = false
  | _, _, _ => true

theorem bound_of_not_mem {key : String} (h : key ∉ boundKeywords) (limit v : Json) :
    r.bound key limit v = true := by
  simp only [boundKeywords, List.mem_cons, List.not_mem_nil, or_false, not_or] at h
  unfold bound
  split <;> first | rfl | simp at h

theorem is_foreign_of_bound : ∀ key ∈ boundKeywords, isForeign key = true := by decide

/-- The bounds get their meaning. What else is said of objects is left to the reading. -/
def bounded : Reading :=
  { r with
    rest := fun fs v =>
      if v.isObject then r.rest fs v else fs.all fun (k, limit) => r.bound k limit v
    rest_nil := fun v => by cases v.isObject <;> simp [r.rest_nil] }

theorem bounded_accepts {fs : Fields Json} (hn : (Fields.keys fs).Nodup) {v : Json}
    (hv : v.isObject = false) :
    r.bounded.accepts (.obj fs) v = true ↔
      ∀ k s, fs.lookup k = some s → r.bounded.meets k s v = true ∧ r.bound k s v = true := by
  have hrest : r.bounded.rest (foreign fs) v = true ↔
      ∀ k s, fs.lookup k = some s → r.bound k s v = true := by
    have hdef : r.bounded.rest (foreign fs) v = (foreign fs).all fun (k, s) => r.bound k s v := by
      simp [bounded, hv]
    rw [hdef, List.all_eq_true, foreign]
    constructor
    · intro h k s hs
      by_cases hk : isForeign k = true
      · exact h (k, s) (List.mem_filter.mpr ⟨Fields.mem_of_lookup hs, hk⟩)
      · exact r.bound_of_not_mem (fun hbound => hk (is_foreign_of_bound k hbound)) s v
    · rintro h ⟨k, s⟩ hks
      exact h k s (Fields.lookup_of_mem hn (List.mem_of_mem_filter hks))
  rw [r.bounded.accepts_iff_lookup hn, hrest]
  constructor
  · rintro ⟨hmeets, hbound⟩ k s hs
    exact ⟨hmeets k s hs, hbound k s hs⟩
  · intro h
    exact ⟨fun k s hs => (h k s hs).1, fun k s hs => (h k s hs).2⟩

end Reading

end ToolSpec
