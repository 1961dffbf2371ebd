import Mathlib.Data.List.Induction
import Mathlib.Data.List.Pairwise
import Mathlib.Data.List.Sort
import ToolSpec.Proofs.Signature.Requiredness

/-!
# The order of properties and of required names

Properties stand in the order in which their names are first declared, required names in the order
in which they are last declared. The two orders part where a required name is declared only between
two declarations of another one, and nowhere else.
-/

set_option autoImplicit false

namespace ToolSpec

/-- From either end of the names, the outer one is met first. -/
def Encloses (names : List String) (outer inner : String) : Prop :=
  names.idxOf outer < names.idxOf inner ∧ names.reverse.idxOf outer < names.reverse.idxOf inner

theorem erase_dups_concat (names : List String) (name : String) :
    (names ++ [name]).eraseDups =
      names.eraseDups ++ if name ∈ names then [] else [name] := by
  rw [List.eraseDups_append]
  by_cases h : name ∈ names <;> simp [List.removeAll, List.eraseDups_cons, h]

theorem erase_dups_first (names : List String) :
    names.eraseDups.Pairwise fun x y => names.idxOf x < names.idxOf y := by
  induction names using List.reverseRecOn with
  | nil => exact .nil
  | append_singleton names name ih =>
    have hold : names.eraseDups.Pairwise fun x y =>
        (names ++ [name]).idxOf x < (names ++ [name]).idxOf y := by
      apply ih.imp_of_mem
      intro x y hx hy hxy
      rwa [List.idxOf_append_of_mem (List.mem_eraseDups.mp hx),
        List.idxOf_append_of_mem (List.mem_eraseDups.mp hy)]
    rw [erase_dups_concat]
    split
    · rwa [List.append_nil]
    · rename_i hnew
      rw [List.pairwise_append]
      refine ⟨hold, List.pairwise_singleton _ _, fun x hx y hy => ?_⟩
      obtain rfl := List.mem_singleton.mp hy
      have hx := List.mem_eraseDups.mp hx
      rw [List.idxOf_append_of_mem hx, List.idxOf_append_of_notMem hnew]
      exact Nat.lt_add_right _ (List.idxOf_lt_length_of_mem hx)

namespace ObjectSchema

theorem keys_insert_all_from (s : ObjectSchema) (ps : List Property) :
    Fields.keys (s.insertAll ps).properties = Fields.keys s.properties ++
      ((ps.map Property.name).filter (· ∉ Fields.keys s.properties)).eraseDups := by
  induction ps using List.reverseRecOn with
  | nil => simp [insertAll]
  | append_singleton ps p ih =>
    have hstep : (s.insertAll (ps ++ [p])).properties =
        Fields.insert p.name p.schema (s.insertAll ps).properties := by
      rw [insert_all_append]
      rfl
    rw [hstep, List.map_append, List.map_singleton, List.filter_append]
    by_cases hold : p.name ∈ Fields.keys s.properties
    · rw [Fields.keys_insert_of_mem, ih]
      · simp [hold]
      · rw [ih]
        exact List.mem_append_left _ hold
    · have hsingle : [p.name].filter (· ∉ Fields.keys s.properties) = [p.name] := by simp [hold]
      rw [hsingle, erase_dups_concat, ← List.append_assoc, ← ih]
      by_cases h : p.name ∈ (ps.map Property.name).filter (· ∉ Fields.keys s.properties)
      · rw [if_pos h, List.append_nil, Fields.keys_insert_of_mem]
        rw [ih]
        exact List.mem_append_right _ (List.mem_eraseDups.mpr h)
      · rw [if_neg h, Fields.keys_insert_of_not_mem]
        rw [ih, List.mem_append, List.mem_eraseDups]
        exact not_or.mpr ⟨hold, h⟩

theorem keys_insert_all (ps : List Property) :
    Fields.keys (empty.insertAll ps).properties = (ps.map Property.name).eraseDups := by
  simpa [empty, Fields.keys] using keys_insert_all_from empty ps

theorem required_last (ps : List Property) :
    (empty.insertAll ps).required.Pairwise fun x y =>
      (ps.map Property.name).reverse.idxOf y < (ps.map Property.name).reverse.idxOf x := by
  induction ps using List.reverseRecOn with
  | nil => exact .nil
  | append_singleton ps p ih =>
    have hstep : (empty.insertAll (ps ++ [p])).required =
        ((empty.insertAll ps).insert p).required := by
      rw [insert_all_append]
      rfl
    have hother : ∀ x, x ≠ p.name → ((ps ++ [p]).map Property.name).reverse.idxOf x =
        (ps.map Property.name).reverse.idxOf x + 1 := by
      intro x hx
      rw [List.map_append, List.reverse_append]
      exact List.idxOf_cons_ne _ (Ne.symm hx)
    have hown : ((ps ++ [p]).map Property.name).reverse.idxOf p.name = 0 := by
      rw [List.map_append, List.reverse_append]
      exact List.idxOf_cons_self
    rw [hstep, required_insert (sound_insert_all sound_empty ps), List.pairwise_append]
    refine ⟨?_, by split <;> simp, fun x hx y hy => ?_⟩
    · apply (ih.filter _).imp_of_mem
      intro x y hx hy hxy
      rw [hother x (by simpa using (List.mem_filter.mp hx).2),
        hother y (by simpa using (List.mem_filter.mp hy).2)]
      exact Nat.add_lt_add_right hxy 1
    · obtain ⟨rfl, -⟩ : y = p.name ∧ p.required = true := by simpa [and_comm] using hy
      rw [hown, hother x (by simpa using (List.mem_filter.mp hx).2)]
      exact Nat.succ_pos _

theorem required_sublist_iff (ps : List Property) :
    (empty.insertAll ps).required.Sublist (Fields.keys (empty.insertAll ps).properties) ↔
      (empty.insertAll ps).required.Pairwise fun x y =>
        (ps.map Property.name).idxOf x < (ps.map Property.name).idxOf y := by
  have hfirst := erase_dups_first (ps.map Property.name)
  rw [← keys_insert_all] at hfirst
  constructor
  · exact fun hsub => List.Pairwise.sublist hsub hfirst
  · intro hordered
    have hsubperm := List.subperm_of_subset (nodup_required_insert_all sound_empty .nil ps)
      (sound_insert_all sound_empty ps).known
    have : Std.Antisymm fun x y =>
        (ps.map Property.name).idxOf x < (ps.map Property.name).idxOf y :=
      ⟨fun _ _ hxy hyx => absurd hxy (Nat.lt_asymm hyx)⟩
    exact List.sublist_of_subperm_of_pairwise hsubperm hordered hfirst

theorem required_first_iff (ps : List Property) :
    ((empty.insertAll ps).required.Pairwise fun x y =>
        (ps.map Property.name).idxOf x < (ps.map Property.name).idxOf y) ↔
      ∀ outer ∈ (empty.insertAll ps).required, ∀ inner ∈ (empty.insertAll ps).required,
        ¬ Encloses (ps.map Property.name) outer inner := by
  have hlast := required_last ps
  constructor
  · intro hfirst
    have hapart : (empty.insertAll ps).required.Pairwise fun x y =>
        ¬ Encloses (ps.map Property.name) x y ∧ ¬ Encloses (ps.map Property.name) y x := by
      apply (hfirst.and hlast).imp
      rintro x y ⟨hxy, hyx⟩
      exact ⟨fun h => Nat.lt_asymm h.2 hyx, fun h => Nat.lt_asymm h.1 hxy⟩
    have : Std.Symm fun x y =>
        ¬ Encloses (ps.map Property.name) x y ∧ ¬ Encloses (ps.map Property.name) y x :=
      ⟨fun _ _ h => ⟨h.2, h.1⟩⟩
    intro outer houter inner hinner hencloses
    by_cases hne : outer = inner
    · rw [hne] at hencloses
      exact Nat.lt_irrefl _ hencloses.1
    · exact (hapart.forall houter hinner hne).1 hencloses
  · intro h
    apply hlast.imp_of_mem
    intro x y hx hy hyx
    have hdeclared := (sound_insert_all sound_empty ps).known y hy
    rw [keys_insert_all, List.mem_eraseDups] at hdeclared
    have hne : y ≠ x := by
      rintro rfl
      exact Nat.lt_irrefl _ hyx
    have hindex := mt (List.idxOf_inj hdeclared).mp hne
    have hfree : ¬ (ps.map Property.name).idxOf y < (ps.map Property.name).idxOf x :=
      fun hlt => h y hy x hx ⟨hlt, hyx⟩
    omega

end ObjectSchema

namespace FunctionSpec

theorem names_properties (f : FunctionSpec) :
    f.properties.map Property.name = f.parameters.map ParameterSpec.name := by
  rw [properties, List.map_map]
  rfl

theorem keys_assemble (f : FunctionSpec) :
    Fields.keys f.assemble.parameters.properties =
      (f.parameters.map ParameterSpec.name).eraseDups := by
  rw [assemble, ObjectSchema.keys_insert_all, names_properties]

/-- The required names of an assembled schema are a subsequence of its properties exactly if none of
them is declared only between two declarations of another one. -/
theorem required_subsequence_iff (f : FunctionSpec) :
    f.assemble.parameters.required.Sublist (Fields.keys f.assemble.parameters.properties) ↔
      ∀ outer ∈ f.assemble.parameters.required, ∀ inner ∈ f.assemble.parameters.required,
        ¬ Encloses (f.parameters.map ParameterSpec.name) outer inner := by
  have hsub := ObjectSchema.required_sublist_iff f.properties
  rw [ObjectSchema.required_first_iff, names_properties] at hsub
  exact hsub

/-- A required name that is declared again moves behind the one declared in between, while its
property stays in front. -/
theorem redeclared_name_moves :
    let a : ParameterSpec := ⟨"a", .primitive .string, none, "", none⟩
    let b : ParameterSpec := ⟨"b", .primitive .string, none, "", none⟩
    let f : FunctionSpec := ⟨"f", "", [a, b, a]⟩
    ¬ f.assemble.parameters.required.Sublist (Fields.keys f.assemble.parameters.properties) := by
  decide

end FunctionSpec

end ToolSpec
