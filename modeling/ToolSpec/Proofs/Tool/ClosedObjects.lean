import ToolSpec.Proofs.Tool.StrictParameters

/-!
# Closed objects of a strict tool

The strict form closes an object schema by its type or its properties. A type list is not looked
into, although widening writes one, and nothing under `prefixItems` is visited. These are the only
ways in which an object of a strict tool stays open.
-/

set_option autoImplicit false

namespace ToolSpec

namespace Strict

def describesObject (fs : Fields Json) : Bool :=
  (fs.lookup "type").any (fun t => t.str? = some "object" ||
    t.items?.any (·.any (·.str? = some "object"))) || Fields.has "properties" fs

def Closed (fs : Fields Json) : Prop :=
  describesObject fs = true → fs.lookup "additionalProperties" = some (.bool false)

/-- Every object schema is closed, those of tuples included. -/
def ClosedThroughout (s : Json) : Prop :=
  ∀ fs, Within (["prefixItems"] ++ schemaKeys) s (.obj fs) → Closed fs

/-- The strict form of an object closes it, and nothing is open where the strict form does not
reach. -/
structure Closable (fs : Fields Json) : Prop where
  own : isObjectSchema fs = true ∨ Closed fs
  prefixItems : ∀ s, fs.lookup "prefixItems" = some s → ClosedThroughout s

theorem closed_tidy {fs : Fields Json} (hn : (Fields.keys fs).Nodup) :
    Closed (tidy (formFields fs)) ↔ isObjectSchema fs = true ∨ Closed fs := by
  have htype : (tidy (formFields fs)).lookup "type" = fs.lookup "type" :=
    lookup_untouched hn (by decide)
  have hproperties : Fields.has "properties" (tidy (formFields fs)) =
      Fields.has "properties" fs := by
    rw [Fields.has, Fields.has, lookup_named hn (by decide), Option.isSome_map]
  have hdescribes : describesObject (tidy (formFields fs)) = describesObject fs := by
    rw [describesObject, describesObject, htype, hproperties]
  have hadditional : (tidy (formFields fs)).lookup "additionalProperties" =
      if isObjectSchema fs = true then some (.bool false)
      else fs.lookup "additionalProperties" := by
    rw [lookup_tidy (by rwa [keys_form_fields]), lookup_form_fields, is_object_schema_form_fields,
      form_field_of_not_mem (by decide), Option.map_id, id, if_neg (by decide),
      kept_of_not_mem (by decide)]
    simp only [and_true]
  rw [Closed, Closed, hdescribes, hadditional]
  by_cases hobject : isObjectSchema fs = true <;> simp [hobject]

theorem closed_throughout_form {s : Json} (hs : s.wellKeyed = true) :
    ClosedThroughout (form s) ↔ ∀ fs, Kept s (.obj fs) → Closable fs := by
  have hform := forall_within_form ["prefixItems"] (by decide) hs Closed
  rw [ClosedThroughout, hform]
  apply forall₂_congr
  intro fs hkept
  rw [closed_tidy (nodup_of_kept hkept hs)]
  constructor
  · rintro ⟨hown, hunder⟩
    exact ⟨hown, hunder "prefixItems" (by simp)⟩
  · rintro ⟨hown, hunder⟩
    refine ⟨hown, fun key hkey => ?_⟩
    obtain rfl := List.mem_singleton.mp hkey
    exact hunder

theorem closable_requiring_fields (s : ObjectSchema) : Closable s.requiringFields := by
  constructor
  · exact .inl (by simp [isObjectSchema, Fields.has, ObjectSchema.requiringFields,
      Fields.lookup_cons_ite])
  · intro c hc
    simp [ObjectSchema.requiringFields, Fields.lookup_cons_ite] at hc

/-- The objects of a strict tool are closed exactly if every object that the strict form keeps in
a property is closed by it, or was closed before, with nothing open under `prefixItems`. An
optional property is looked at with the null that requiring it adds. -/
theorem tool_closed_iff {s : Signature} (hs : s.wellKeyed = true) {o : Options}
    (ho : o.strict = true) :
    ClosedThroughout (s.tool o).parameters ↔
      ∀ name v, (s.compile o).assemble.parameters.properties.lookup name = some v →
        ∀ fs, Kept ((s.compile o).assemble.parameters.onceRequired name v) (.obj fs) →
          Closable fs := by
  have hkeyed := Signature.assemble_well_keyed hs o
  have hparameters : (s.tool o).parameters =
      form (Nullable.requireAll (s.compile o).assemble.parameters.toJson) := by
    rw [Signature.tool, ho]
    rfl
  rw [hparameters, closed_throughout_form (ObjectSchema.require_all_well_keyed hkeyed)]
  exact ObjectSchema.forall_kept_require_all _ (closable_requiring_fields _)

/-- A required map next to an optional list of points. -/
theorem map_and_points_closed_iff :
    let point : Json := .obj [("properties", .obj [("x", .ofType "number")])]
    let s : Signature := ⟨"plot", none, [⟨"style", .objectMap (.primitive .string), none⟩,
      ⟨"points", .optional (.array (.schema point)), none⟩]⟩
    let o : Options := { Options.standard with strict := true }
    s.wellKeyed = true ∧ o.strict = true ∧ (ClosedThroughout (s.tool o).parameters ↔
      ∀ name v, (s.compile o).assemble.parameters.properties.lookup name = some v →
        ∀ fs, Kept ((s.compile o).assemble.parameters.onceRequired name v) (.obj fs) →
          Closable fs) := by
  intro point s o
  have hs : s.wellKeyed = true := by decide
  exact ⟨hs, rfl, tool_closed_iff hs rfl⟩

/-- An optional map becomes a map or null, and is left open. -/
theorem optional_map_open :
    ¬ ClosedThroughout (Signature.tool
      ⟨"f", none, [⟨"m", .optional (.objectMap (.primitive .string)), none⟩]⟩
      { Options.standard with strict := true }).parameters := by
  intro h
  have hname : [("m", Json.obj [("type", .strs ["object", "null"])])].lookup "m" =
      some (.obj [("type", .strs ["object", "null"])]) := rfl
  have hclosed := h _ (.property rfl hname) (by decide)
  simp [Fields.lookup_cons_ite] at hclosed

end Strict

end ToolSpec
