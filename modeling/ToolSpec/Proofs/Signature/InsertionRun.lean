import ToolSpec.Proofs.Signature.DeclarationOrder

/-!
# Runs of insertions

Properties may be added to a schema one by one, with any names and verdicts and also to one that has
some already. The list of required names and the map of properties are kept apart, and a name may
change its verdict any number of times; they agree after every step.
-/

set_option autoImplicit false

namespace ToolSpec

namespace ObjectSchema

theorem length_insert_warnings (s : ObjectSchema) (p : Property) :
    (s.insertWarnings p).length = if p.name ∈ Fields.keys s.properties then 1 else 0 := by
  by_cases h : p.name ∈ Fields.keys s.properties <;> simp [insertWarnings, Fields.has_iff, h]

theorem length_insert_all_warnings (s : ObjectSchema) (ps : List Property) :
    (s.insertAllWarnings ps).length = (List.finRange ps.length).countP fun i : Fin ps.length =>
      ps[i].name ∈ Fields.keys (s.insertAll (ps.take i)).properties := by
  induction ps generalizing s with
  | nil => rfl
  | cons p ps ih =>
    have hcount : (List.finRange (p::ps).length).countP (fun i : Fin (p::ps).length =>
        (p::ps)[i].name ∈ Fields.keys (s.insertAll ((p::ps).take i)).properties) =
          ((List.finRange ps.length).countP fun i : Fin ps.length =>
            ps[i].name ∈ Fields.keys ((s.insert p).insertAll (ps.take i)).properties) +
              if decide (p.name ∈ Fields.keys s.properties) = true then 1 else 0 := by
      show (List.finRange (ps.length+1)).countP _ = _
      rw [List.finRange_succ, List.countP_cons, List.countP_map]
      rfl
    rw [hcount, insertAllWarnings, List.length_append, length_insert_warnings, ih, Nat.add_comm]
    simp only [decide_eq_true_eq]

end ObjectSchema

namespace CompiledSchema

def addAll (c : CompiledSchema) (ps : List Property) : CompiledSchema := ps.foldl addParameter c

theorem parameters_add_all (c : CompiledSchema) (ps : List Property) :
    (c.addAll ps).parameters = c.parameters.insertAll ps := by
  induction ps generalizing c with
  | nil => rfl
  | cons p ps ih => exact ih (c.addParameter p)

/-- A run of insertions into any schema that has a property for each required name and requires none
of them twice, such as the empty schema. It stays so after every step. In the end the last insertion
of a name decides about it, and other names are as they were. New names stand behind the old ones, in
the order of their first insertions, and every insertion of a name that is present is reported. -/
theorem insertion_run {c : CompiledSchema} (hc : c.parameters.Sound)
    (hn : c.parameters.required.Nodup) (ps : List Property) :
    (∀ done, done <+: ps →
      (c.addAll done).parameters.Sound ∧ (c.addAll done).parameters.required.Nodup) ∧
    (∀ before p after, ps = before ++ p::after → p.name ∉ after.map Property.name →
      (c.addAll ps).parameters.properties.lookup p.name = some p.schema ∧
        (p.name ∈ (c.addAll ps).parameters.required ↔ p.required = true)) ∧
    (∀ name, name ∉ ps.map Property.name →
      (c.addAll ps).parameters.properties.lookup name = c.parameters.properties.lookup name ∧
        (name ∈ (c.addAll ps).parameters.required ↔ name ∈ c.parameters.required)) ∧
    Fields.keys (c.addAll ps).parameters.properties = Fields.keys c.parameters.properties ++
      ((ps.map Property.name).filter (· ∉ Fields.keys c.parameters.properties)).eraseDups ∧
    (c.parameters.insertAllWarnings ps).length =
      (List.finRange ps.length).countP fun i : Fin ps.length =>
        ps[i].name ∈ Fields.keys (c.addAll (ps.take i)).parameters.properties := by
  simp only [parameters_add_all]
  refine ⟨fun done _ => ?_, ?_, fun name h => ?_, ?_, ?_⟩
  · exact ⟨ObjectSchema.sound_insert_all hc done, ObjectSchema.nodup_required_insert_all hc hn done⟩
  · rintro before p after rfl hlast
    exact ObjectSchema.insert_all_last hc before hlast
  · exact ObjectSchema.insert_all_of_not_mem hc h
  · exact ObjectSchema.keys_insert_all_from c.parameters ps
  · exact ObjectSchema.length_insert_all_warnings c.parameters ps

/-- A required name is inserted as optional and as required again, with a new name in between. -/
theorem verdict_changed_twice :
    let a (kind : String) (required : Bool) : Property :=
      ⟨"a", .obj [("type", .str kind)], required⟩
    let n : Property := ⟨"n", .obj [], true⟩
    let c : CompiledSchema := ⟨"f", "", ⟨"object", [("b", .null), ("a", .null)], ["b", "a"]⟩⟩
    let ps := [a "string" false, n, n, a "integer" true]
    c.parameters.Sound ∧ c.parameters.required.Nodup ∧
      (c.addAll ps).parameters.properties.lookup "a" = some (.obj [("type", .str "integer")]) ∧
      "a" ∈ (c.addAll ps).parameters.required ∧
      (c.addAll ps).parameters.properties.lookup "b" = some .null ∧
      "b" ∈ (c.addAll ps).parameters.required ∧
      Fields.keys (c.addAll ps).parameters.properties = ["b", "a", "n"] ∧
      (c.parameters.insertAllWarnings ps).length = 3 := by
  intro a n c ps
  have hc : c.parameters.Sound := ⟨by decide, by decide⟩
  have hn : c.parameters.required.Nodup := by decide
  obtain ⟨-, hlast, hother, hkeys, hwarnings⟩ := insertion_run hc hn ps
  obtain ⟨ha, harequired⟩ := hlast [a "string" false, n, n] (a "integer" true) [] rfl (by decide)
  obtain ⟨hb, hbrequired⟩ := hother "b" (by decide)
  refine ⟨hc, hn, ha, harequired.mpr rfl, hb, hbrequired.mpr (by decide), ?_, ?_⟩
  · rw [hkeys]
    decide
  · rw [hwarnings]
    decide

end CompiledSchema

end ToolSpec
