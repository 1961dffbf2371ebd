import ToolSpec.Proofs.Schema.Supported
import ToolSpec.Proofs.Tool.StrictParameters

/-!
# Strict parameters taken strictly again

Requiring all properties and taking the strict form settles a schema: its required names are those
of its properties and its strict form is supported, so that doing both again changes nothing, not
even the order of a key, and gives no warning.
-/

set_option autoImplicit false

namespace ToolSpec

namespace Nullable

def RequiresExactly (fs : Fields Json) : Prop :=
  ∀ ps, fs.lookup "properties" = some (.obj ps) →
    fs.lookup "required" = some (.strs (Fields.keys ps))

theorem require_all_eq_self {fs : Fields Json} (h : RequiresExactly fs) :
    requireAll (.obj fs) = .obj fs := by
  rw [requireAll]
  split
  · rename_i ps hps
    have hrequired := h ps hps
    have hwidened : widenMissing (Fields.keys ps) ps = ps := by
      apply Fields.map_value_eq_self (g := fun k v => if k ∈ Fields.keys ps then v else widen v)
      intro name v hv
      have hname : name ∈ Fields.keys ps := List.mem_map_of_mem hv
      rw [if_pos hname]
    rw [required_names_of_strs hrequired, hwidened, Fields.insert_lookup hps,
      Fields.insert_lookup hrequired]
  · rfl

theorem require_all_obj (fs : Fields Json) :
    ∃ gs, requireAll (.obj fs) = .obj gs ∧ RequiresExactly gs := by
  rw [requireAll]
  split
  · refine ⟨_, rfl, fun ps hps => ?_⟩
    rw [Fields.lookup_insert, if_neg (by decide), Fields.lookup_insert, if_pos rfl] at hps
    rw [Fields.lookup_insert, if_pos rfl, ← Json.obj.inj (Option.some.inj hps), keys_widen_missing]
  · rename_i hno
    exact ⟨fs, rfl, fun ps hps => absurd hps (hno ps)⟩

end Nullable

namespace Strict
open Nullable

theorem requires_exactly_tidy {fs : Fields Json} (hn : (Fields.keys fs).Nodup)
    (h : RequiresExactly fs) : RequiresExactly (tidy (formFields fs)) := by
  intro ps hps
  rw [lookup_named hn (by decide), Option.map_eq_some_iff] at hps
  obtain ⟨v, hv, hformed⟩ := hps
  obtain ⟨values, rfl, rfl⟩ := form_named_eq_obj hformed
  rw [lookup_untouched hn (by decide), h values hv, keys_form_values]

theorem require_all_form {s : Json} (hs : s.wellKeyed = true) :
    requireAll (form (requireAll s)) = form (requireAll s) := by
  cases s with
  | obj fs =>
    obtain ⟨gs, hgs, hexact⟩ := require_all_obj fs
    have hkeyed := require_all_well_keyed hs
    rw [hgs] at hkeyed ⊢
    obtain ⟨hn, -⟩ := (Json.well_keyed_obj gs).mp hkeyed
    exact require_all_eq_self (requires_exactly_tidy hn hexact)
  | _ => rfl

/-- Taking a strict schema strictly again returns it as it is and warns of nothing. -/
theorem strict_idempotent {s : Json} (hs : s.wellKeyed = true) :
    form (requireAll (form (requireAll s))) = form (requireAll s) ∧
      warnings [] (requireAll (form (requireAll s))) = [] := by
  have hkeyed := form_well_keyed (require_all_well_keyed hs)
  have hsupported := form_supported (require_all_well_keyed hs)
  rw [require_all_form hs]
  exact ⟨form_eq_self hkeyed hsupported, warnings_eq_nil hkeyed hsupported []⟩

/-- Optional properties whose widening moves a rejected keyword into a branch of its own. -/
theorem optional_bounds_idempotent :
    let bound : Json := .obj [("minimum", .int 0), ("description", .str "at least"),
      ("allOf", .arr [.obj [("$ref", .str "#/$defs/n")], .obj [("title", .str "n")]])]
    let s : Json := .obj [("title", .str "Range"), ("required", .arr [.str "to", .int 3]),
      ("properties", .obj [("from", bound), ("to", bound)])]
    s.wellKeyed = true ∧
      form (requireAll (form (requireAll s))) = form (requireAll s) ∧
      warnings [] (requireAll (form (requireAll s))) = [] := by
  intro bound s
  have hs : s.wellKeyed = true := by decide
  exact ⟨hs, strict_idempotent hs⟩

end Strict

end ToolSpec
