import ToolSpec.Proofs.Signature.DeclarationOrder
import ToolSpec.Proofs.Tool.OptionalProperties
import ToolSpec.Proofs.Tool.StrictParameters

/-!
# A plain tool and its strict form

Both describe the same parameters in the same order. The strict one requires them all, so that a
property that was optional is widened before it takes its strict form, and any other one takes its
strict form as it is. Nothing of this depends on the dialect, which names one key.
-/

set_option autoImplicit false

namespace ToolSpec

def Json.propertyNames? (s : Json) : Option (List String) :=
  (s.get? "properties").bind fun ps => ps.fields?.map Fields.keys

open Nullable Strict in
/-- Strict parameters next to the plain ones, with the names that both describe. -/
structure Counterparts (names : List String) (plain strict : Json) : Prop where
  plainNames : plain.propertyNames? = some names
  strictNames : strict.propertyNames? = some names
  required : strict.get? "required" = some (.strs names)
  closed : strict.get? "additionalProperties" = some (.bool false)
  property : ∀ name, strict.property? name = (plain.property? name).map fun v =>
    form (if name ∈ requiredNames plain.fieldsOrEmpty then v else widen v)

theorem Strict.tidy_described (kind properties required : Json) :
    tidy [("type", kind), ("properties", properties), ("required", required)] =
      [("type", kind), ("properties", properties), ("required", required),
        ("additionalProperties", .bool false)] := by
  simp [tidy, eraseKeywords, droppedKeywords, Fields.erase, eraseUnless, dropped?, close,
    isObjectSchema, Fields.has, Fields.insert, eraseAllOfRefs, Fields.lookup_cons_ite]

namespace ObjectSchema
open Nullable Strict

theorem form_require_all (s : ObjectSchema) :
    form (requireAll s.toJson) = .obj [("type", .str s.kind),
      ("properties", .obj (s.properties.map fun (name, v) => (name, form (s.onceRequired name v)))),
      ("required", .strs (Fields.keys s.properties)), ("additionalProperties", .bool false)] := by
  have hvalues : formValues (widenMissing s.required s.properties) =
      s.properties.map fun (name, v) => (name, form (s.onceRequired name v)) := by
    rw [form_values_eq_map, widenMissing, List.map_map]
    rfl
  have hfields : formFields s.requiringFields = [("type", .str s.kind),
      ("properties", .obj (formValues (widenMissing s.required s.properties))),
      ("required", .strs (Fields.keys s.properties))] := rfl
  rw [require_all_to_json, form, hfields, hvalues, tidy_described]

theorem counterparts (s : ObjectSchema) :
    Counterparts (Fields.keys s.properties) s.toJson (form (requireAll s.toJson)) := by
  rw [form_require_all]
  constructor
  · rfl
  · have hkeys := Fields.keys_map_value (fun name v => form (s.onceRequired name v)) s.properties
    exact congrArg some hkeys
  · rfl
  · rfl
  · intro name
    have hlookup := Fields.lookup_map_value (fun name v => form (s.onceRequired name v)) name
      s.properties
    rw [required_names_to_json]
    exact hlookup

end ObjectSchema

namespace Signature

theorem keys_assemble_compile (s : Signature) (o : Options) :
    Fields.keys (s.compile o).assemble.parameters.properties =
      (s.parameters.map Parameter.name).eraseDups := by
  rw [FunctionSpec.keys_assemble, compile, List.map_map]
  rfl

/-- A plain and a strict tool of one signature have the same name and description and describe the
same parameters in the order of their first declaration. In each of them the dialect decides about
one key and nothing else. -/
theorem plain_and_strict (s : Signature) (o : Options) :
    ∃ plain strict, Counterparts (s.parameters.map Parameter.name).eraseDups plain strict ∧
      ∀ d : Dialect,
        (s.tool { o with dialect := d, strict := false }).toJson =
          .obj [("name", .str s.name), ("description", .str (s.docs o.style).summary),
            (d.wrapperKey, plain)] ∧
        (s.tool { o with dialect := d, strict := true }).toJson =
          .obj [("name", .str s.name), ("description", .str (s.docs o.style).summary),
            (d.wrapperKey, strict), ("strict", .bool true)] := by
  have hparameters := (s.compile o).assemble.parameters.counterparts
  rw [keys_assemble_compile] at hparameters
  refine ⟨_, _, hparameters, fun d => ?_⟩
  constructor
  · rfl
  · rfl

end Signature

end ToolSpec
