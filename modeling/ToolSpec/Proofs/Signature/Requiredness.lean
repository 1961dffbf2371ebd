import ToolSpec.Proofs.Signature.Assembly

/-!
# Required names

A compiled signature lists its required names in one pass over the parameters, and its assembled
object schema lists them again, property by property. Both give the same names in the same order,
each of them once, and the last declaration of a name decides about it.
-/

set_option autoImplicit false

namespace ToolSpec

namespace ObjectSchema

variable {s : ObjectSchema}

theorem nodup_required_insert (hs : s.Sound) (hn : s.required.Nodup) (p : Property) :
    (s.insert p).required.Nodup := by
  rw [required_insert hs]
  apply List.nodup_append.mpr
  refine ⟨hn.filter _, by split <;> simp, fun name hold new hnew => ?_⟩
  have hne : name ≠ p.name := by simpa using (List.mem_filter.mp hold).2
  obtain ⟨rfl, -⟩ : new = p.name ∧ p.required = true := by simpa [and_comm] using hnew
  exact hne

theorem nodup_required_insert_all (hs : s.Sound) (hn : s.required.Nodup) (ps : List Property) :
    (s.insertAll ps).required.Nodup := by
  induction ps generalizing s with
  | nil => exact hn
  | cons p ps ih => exact ih (sound_insert hs p) (nodup_required_insert hs hn p)

theorem mem_required_insert_all (hs : s.Sound) (ps : List Property) (name : String) :
    name ∈ (s.insertAll ps).required ↔
      (ps.reverse.find? (·.name = name)).elim (name ∈ s.required) (·.required = true) := by
  cases hlast : ps.reverse.find? (·.name = name) with
  | none =>
    have habsent : name ∉ ps.map Property.name := by
      simpa using List.find?_eq_none.mp hlast
    exact (insert_all_of_not_mem hs habsent).2
  | some p =>
    obtain ⟨hname, later, earlier, hsplit, hlater⟩ := List.find?_eq_some_iff_append.mp hlast
    obtain rfl : p.name = name := by simpa using hname
    have hps : ps = earlier.reverse ++ p::later.reverse := by
      rw [List.reverse_eq_iff.mp hsplit]
      simp
    have hafter : p.name ∉ later.reverse.map Property.name := by
      simpa using hlater
    rw [hps]
    exact (insert_all_last hs earlier.reverse hafter).2

end ObjectSchema

namespace FunctionSpec

theorem required_foldl {s : ObjectSchema} (hs : s.Sound) (ps : List ParameterSpec) :
    ps.foldl (fun names p => names.filter (· ≠ p.name) ++ if p.isRequired then [p.name] else [])
      s.required = (s.insertAll (ps.map ParameterSpec.compile)).required := by
  -- Both passes are in step after each parameter, as long as every required name is known.
  induction ps generalizing s with
  | nil => rfl
  | cons p ps ih =>
    have hstep := ObjectSchema.required_insert hs p.compile
    have hrest := ih (ObjectSchema.sound_insert hs p.compile)
    rw [hstep] at hrest
    exact hrest

theorem required_eq_assembled (f : FunctionSpec) :
    f.required = f.assemble.parameters.required :=
  required_foldl ObjectSchema.sound_empty f.parameters

end FunctionSpec

/-- The merged keywords ask for the parameter, or say nothing and it has neither a default nor a
type that admits null. -/
def Parameter.Demanded (p : Parameter) : Prop :=
  (Parameter.keywords p.type.metadata).required = some true ∨
    (Parameter.keywords p.type.metadata).required = none ∧ p.default = none ∧
      p.type.resolve.nullable = false

theorem Parameter.required_compile (p : Parameter) (docs : Docstring) (placeholders : Bool) :
    (p.spec docs placeholders).compile.required = true ↔ p.Demanded := by
  have hverdict : (p.spec docs placeholders).compile.required =
      (Parameter.keywords p.type.metadata).required.getD
        (!p.type.resolve.nullable && !p.default.isSome) := rfl
  rw [hverdict, Demanded]
  cases (Parameter.keywords p.type.metadata).required <;> simp [and_comm]

namespace Signature

def lastDeclared? (s : Signature) (name : String) : Option Parameter :=
  s.parameters.reverse.find? (·.name = name)

/-- A compiled signature and its assembled schema require the same names in the same order, none of
them twice, and a name is among them exactly if its last declaration asks for it. -/
theorem compile_required (s : Signature) (o : Options) :
    (s.compile o).required = (s.compile o).assemble.parameters.required ∧
      (s.compile o).required.Nodup ∧
      ∀ name, name ∈ (s.compile o).required ↔
        ∃ p, s.lastDeclared? name = some p ∧ p.Demanded := by
  have hagree := (s.compile o).required_eq_assembled
  refine ⟨hagree, ?_, fun name => ?_⟩
  · rw [hagree]
    exact ObjectSchema.nodup_required_insert_all ObjectSchema.sound_empty .nil _
  · have hlast : (s.compile o).properties.reverse.find? (·.name = name) =
        (s.lastDeclared? name).map fun p => (p.spec (s.docs o.style) o.placeholders).compile := by
      rw [FunctionSpec.properties, compile, List.map_map, ← List.map_reverse, List.find?_map]
      rfl
    rw [hagree, FunctionSpec.assemble,
      ObjectSchema.mem_required_insert_all ObjectSchema.sound_empty, hlast]
    cases s.lastDeclared? name with
    | none => simp [ObjectSchema.empty]
    | some p => simpa using p.required_compile (s.docs o.style) o.placeholders

/-- Of two names declared twice, one last declared optional drops out. -/
example : (Signature.compile ⟨"f", none, [⟨"a", .primitive .string, none⟩,
    ⟨"b", .primitive .string, none⟩, ⟨"a", .optional (.primitive .string), none⟩,
    ⟨"b", .primitive .integer, none⟩]⟩ .standard).required = ["b"] := by decide

end Signature

end ToolSpec
