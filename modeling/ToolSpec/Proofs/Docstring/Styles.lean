import ToolSpec.Proofs.Docstring.Scanning
import ToolSpec.Proofs.Json.Keys

/-!
# Styles

The automatic style reads all layouts, one after the other, and each of them writes its entries
behind those of the layouts before it. As the first entry of a name wins, the docstring is that of
the single styles put together: whatever an earlier one says stands, and a later one adds the names
that are new.
-/

set_option autoImplicit false

namespace ToolSpec

namespace Fields

variable {α : Type}

def merge (fs others : Fields α) : Fields α := fs ++ others.filter (·.1 ∉ keys fs)

theorem lookup_merge (fs others : Fields α) (key : String) :
    (merge fs others).lookup key = (fs.lookup key).or (others.lookup key) := by
  have hnew := lookup_filter_key (fun k => k ∉ keys fs) key others
  rw [merge, List.lookup_append, hnew]
  cases hold : fs.lookup key with
  | some v => simp
  | none =>
    have hfresh : key ∉ keys fs := by
      rw [mem_keys_iff, hold]
      simp
    simp [hfresh]

end Fields

namespace Docstring
open ToolSpec.Text

theorem first_wins_append (es others : List Entry) :
    firstWins (es ++ others) = Fields.merge (firstWins es) (firstWins others) := by
  induction es with
  | nil => simp [firstWins, Fields.merge, Fields.keys]
  | cons e es ih =>
    have hkeys : ∀ k, k ∈ Fields.keys (firstWins (e::es)) ↔
        k = e.name ∨ k ∈ Fields.keys (firstWins es) := by
      intro k
      by_cases hk : k = e.name <;> simp [firstWins, Fields.keys, hk]
    have hnew : (firstWins others).filter (·.1 ∉ Fields.keys (firstWins (e::es))) =
        ((firstWins others).filter (·.1 ∉ Fields.keys (firstWins es))).filter (·.1 ≠ e.name) := by
      rw [List.filter_filter]
      apply List.filter_congr
      intro p _
      simp [hkeys, not_or]
    rw [Fields.merge, hnew, List.cons_append, firstWins, ih, Fields.merge, List.filter_append,
      firstWins, List.cons_append]

theorem params_auto (text : String) :
    (parse .auto text).params =
      Fields.merge (Fields.merge (parse .google text).params (parse .sphinx text).params)
        (parse .rustdoc text).params := by
  simp [parse_eq, entriesOf, layouts, ← first_wins_append]

/-- Every layout writes its entries behind those found before, whatever these are. With all layouts
the description of a name is that of the first single style that has one, the entries are those of
the single styles in their order without repeated names, and the summary is the same throughout. -/
theorem auto_merges_styles :
    (∀ layout ls, ∃ es, ∀ found, extract layout found ls = found ++ es) ∧
    ∀ text,
      (∀ name, (parse .auto text).param? name =
        ((parse .google text).param? name).or
          (((parse .sphinx text).param? name).or ((parse .rustdoc text).param? name))) ∧
      (parse .auto text).params =
        Fields.merge (Fields.merge (parse .google text).params (parse .sphinx text).params)
          (parse .rustdoc text).params ∧
      ∀ style, (parse style text).summary = (parse .auto text).summary := by
  constructor
  · intro layout ls
    exact ⟨layout.entries ls, fun found => extract_eq_entries layout found ls⟩
  · intro text
    refine ⟨fun name => ?_, params_auto text, fun _ => rfl⟩
    rw [param?, params_auto, Fields.lookup_merge, Fields.lookup_merge, Option.or_assoc]
    rfl

end Docstring

end ToolSpec
