import ToolSpec.Proofs.Declaration.Parameters
import ToolSpec.Proofs.DeclaredType.Alternatives
import ToolSpec.Proofs.Signature.Requiredness

/-!
# Layers of a written type

References, parentheses and pointers around a type stand for the type itself, and an option around it
for the type or null. Any number of such layers leaves the schema of a parameter, and makes the
parameter optional if one of them is an option.
-/

set_option autoImplicit false

namespace ToolSpec

inductive LayerKind
  | reference
  | paren
  | group
  | pointer
  | option
  deriving DecidableEq

namespace TypeExpr

/-- The second type is the first one in a layer. A pointer and an option are layers if they have
exactly one type argument. -/
inductive Layer : LayerKind → TypeExpr → TypeExpr → Prop
  | reference (t : TypeExpr) : Layer .reference t (.reference t)
  | paren (t : TypeExpr) : Layer .paren t (.paren t)
  | group (t : TypeExpr) : Layer .group t (.group t)
  | pointer {segments : List String} {args : List GenericArg} {t : TypeExpr} :
      lastName segments ∈ ["Box", "Arc", "Rc", "Cow"] → typeArgs args = [t] →
      Layer .pointer t (.path segments args)
  | option {segments : List String} {args : List GenericArg} {t : TypeExpr} :
      lastName segments = "Option" → typeArgs args = [t] → Layer .option t (.path segments args)

/-- The layers around the base, from the outermost inwards. -/
inductive Layered (base : TypeExpr) : List LayerKind → TypeExpr → Prop
  | base : Layered base [] base
  | layer {kind : LayerKind} {kinds : List LayerKind} {t u : TypeExpr} :
      Layer kind t u → Layered base kinds t → Layered base (kind::kinds) u

def IsLayer (u : TypeExpr) : Prop := ∃ kind t, Layer kind t u

/-- A pointer type with several type arguments. -/
def HoldsSeveral : TypeExpr → Prop
  | .path segments args =>
    lastName segments ∈ ["Box", "Arc", "Rc", "Cow"] ∧ 2 ≤ (typeArgs args).length
  | _ => False

theorem declared_args_eq_map (args : List GenericArg) :
    declaredArgs args = (typeArgs args).map declared := by
  induction args with
  | nil => rfl
  | cons arg rest ih =>
    cases arg with
    | type t =>
      rw [declaredArgs, ih]
      rfl
    | other =>
      rw [declaredArgs, ih]
      rfl

theorem of_name_option : TypeConstructor.ofName "Option" = .option := by decide

theorem of_name_pointer {name : String} (h : name ∈ ["Box", "Arc", "Rc", "Cow"]) :
    TypeConstructor.ofName name = .pointer := by
  simp only [List.mem_cons, List.not_mem_nil, or_false] at h
  rcases h with rfl | rfl | rfl | rfl <;> decide

theorem eq_option_of_name {name : String} (h : TypeConstructor.ofName name = .option) :
    name = "Option" := by
  unfold TypeConstructor.ofName at h
  grind

theorem mem_pointers_of_name {name : String} (h : TypeConstructor.ofName name = .pointer) :
    name ∈ ["Box", "Arc", "Rc", "Cow"] := by
  unfold TypeConstructor.ofName at h
  grind [TypeConstructor.pointerNames]

theorem apply_metadata (k : TypeConstructor) {as : List DeclaredType}
    (h : ∀ a ∈ as, a.metadata = []) : (k.apply as).metadata = [] := by
  unfold TypeConstructor.apply
  split
  case h_7 =>
    cases hlast : as.getLast? with
    | none => rfl
    | some a => exact h a (List.mem_of_getLast? hlast)
  all_goals rfl

mutual

theorem declared_metadata : ∀ t : TypeExpr, t.declared.metadata = []
  | .path segments args => by
    rw [declared]
    exact apply_metadata _ (declared_args_metadata args)
  | .reference t => declared_metadata t
  | .paren t => declared_metadata t
  | .group t => declared_metadata t
  | .slice _ => rfl
  | .array _ => rfl
  | .tuple [] => rfl
  | .tuple (_::_) => rfl
  | .other => rfl

theorem declared_args_metadata : ∀ args : List GenericArg, ∀ a ∈ declaredArgs args, a.metadata = []
  | [], _, h => by simp [declaredArgs] at h
  | .type t::rest, a, h => by
    rcases List.mem_cons.mp h with rfl | h
    · exact declared_metadata t
    · exact declared_args_metadata rest a h
  | .other::rest, a, h => declared_args_metadata rest a h

end

theorem Layer.declared {kind : LayerKind} {t u : TypeExpr} (h : Layer kind t u) :
    u.declared = if kind = .option then .optional t.declared else t.declared := by
  cases h with
  | pointer hname hargs =>
    rw [TypeExpr.declared, of_name_pointer hname, declared_args_eq_map, hargs]
    rfl
  | option hname hargs =>
    rw [TypeExpr.declared, hname, of_name_option, declared_args_eq_map, hargs]
    rfl
  | _ => rfl

namespace Layered

variable {base t : TypeExpr} {kinds : List LayerKind}

theorem fragment (h : base.Layered kinds t) :
    t.declared.resolve.fragment = base.declared.resolve.fragment := by
  induction h with
  | base => rfl
  | layer hlayer _ ih =>
    rw [hlayer.declared]
    split
    · rw [DeclaredType.optional_fragment, ih]
    · exact ih

theorem nullable (h : base.Layered kinds t) :
    t.declared.resolve.nullable = (decide (.option ∈ kinds) || base.declared.resolve.nullable) := by
  induction h with
  | base => simp
  | layer hlayer _ ih =>
    rw [hlayer.declared]
    split
    · rename_i hkind
      simp [DeclaredType.optional_nullable, hkind]
    · rename_i hkind
      simp [ih, eq_comm, hkind]

end Layered

theorem apply_nullable {k : TypeConstructor} {as : List DeclaredType}
    (h : (k.apply as).resolve.nullable = true) :
    (k = .option ∧ ∃ a, as = [a]) ∨ k = .pointer ∧ as ≠ [] := by
  unfold TypeConstructor.apply at h
  split at h <;> simp_all [DeclaredType.resolve, Resolution.plain]
  rintro rfl
  simp [DeclaredType.resolve, Resolution.plain] at h

theorem base_nullable {base : TypeExpr} (hlayer : ¬ base.IsLayer) (hseveral : ¬ base.HoldsSeveral) :
    base.declared.resolve.nullable = false := by
  cases base with
  | path segments args =>
    rw [← Bool.not_eq_true]
    intro h
    rw [declared, declared_args_eq_map] at h
    rcases apply_nullable h with ⟨hoption, a, ha⟩ | ⟨hpointer, hne⟩
    · obtain ⟨t, hargs, -⟩ := List.map_eq_singleton_iff.mp ha
      exact hlayer ⟨.option, t, .option (eq_option_of_name hoption) hargs⟩
    · have hname := mem_pointers_of_name hpointer
      match hargs : typeArgs args with
      | [] => simp [hargs] at hne
      | [t] => exact hlayer ⟨.pointer, t, .pointer hname hargs⟩
      | _::_::_ => exact hseveral ⟨hname, by simp [hargs]⟩
  | reference t => exact absurd ⟨_, _, .reference t⟩ hlayer
  | paren t => exact absurd ⟨_, _, .paren t⟩ hlayer
  | group t => exact absurd ⟨_, _, .group t⟩ hlayer
  | tuple elements => cases elements <;> rfl
  | _ => rfl

end TypeExpr

theorem Parameter.schema_congr {a b : DeclaredType} (hmetadata : a.metadata = b.metadata)
    (hfragment : a.resolve.fragment = b.resolve.fragment) (name : String) (default : Option Json)
    (docs : Docstring) (placeholders : Bool) :
    (Parameter.spec ⟨name, a, default⟩ docs placeholders).compile.schema =
      (Parameter.spec ⟨name, b, default⟩ docs placeholders).compile.schema := by
  have hallowed : allowed a = allowed b := by rw [allowed, hmetadata, hfragment, allowed]
  simp only [ParameterSpec.compile, ParameterSpec.overlay, ParameterSpec.keywords, spec, hmetadata,
    hfragment, hallowed]

namespace Declaration

theorem parameter_plain (c : Catalogue) (id : Identifier) (t : TypeExpr) :
    parameter c ⟨.binding id, t, []⟩ = .ok ⟨id.name, t.declared, none⟩ := rfl

theorem required_plain (name : String) (t : TypeExpr) (docs : Docstring) (placeholders : Bool) :
    (Parameter.spec ⟨name, t.declared, none⟩ docs placeholders).compile.required = true ↔
      t.declared.resolve.nullable = false := by
  have hkeywords : Parameter.keywords [] = .empty := rfl
  rw [Parameter.required_compile, Parameter.Demanded, t.declared_metadata, hkeywords]
  simp [Keywords.empty]

/-- A parameter without attributes whose type is a base in some layers has the schema of a parameter
of the base. It is required exactly if no layer is an option and a parameter of the base is required,
which it is unless the base is a layer itself or a pointer with several type arguments. -/
theorem layers_decide_required {base t : TypeExpr} {kinds : List LayerKind}
    (h : base.Layered kinds t) (c : Catalogue) (id : Identifier) :
    ∃ p q, parameter c ⟨.binding id, t, []⟩ = .ok p ∧ parameter c ⟨.binding id, base, []⟩ = .ok q ∧
      ∀ docs placeholders,
        let outer := (p.spec docs placeholders).compile
        let inner := (q.spec docs placeholders).compile
        outer.name = inner.name ∧ outer.schema = inner.schema ∧
          (outer.required = true ↔ .option ∉ kinds ∧ inner.required = true) ∧
          (¬ base.IsLayer → ¬ base.HoldsSeveral → (outer.required = true ↔ .option ∉ kinds)) := by
  refine ⟨_, _, parameter_plain c id t, parameter_plain c id base, fun docs placeholders => ?_⟩
  intro outer inner
  have hmetadata : t.declared.metadata = base.declared.metadata := by
    rw [t.declared_metadata, base.declared_metadata]
  have hrequired : outer.required = true ↔ .option ∉ kinds ∧ inner.required = true := by
    rw [required_plain, required_plain, h.nullable]
    simp
  refine ⟨rfl, Parameter.schema_congr hmetadata h.fragment _ _ docs placeholders, hrequired, ?_⟩
  intro hlayer hseveral
  have hbase : inner.required = true :=
    (required_plain _ _ _ _).mpr (TypeExpr.base_nullable hlayer hseveral)
  rw [hrequired, and_iff_left hbase]

/-- A shared, borrowed option of an optional unit. -/
theorem shared_units_required :
    let unit : TypeExpr := .tuple []
    let inside : TypeExpr := .path ["std", "option", "Option"] [.type (.paren (.path ["Option"]
      [.type unit]))]
    let t : TypeExpr := .path ["Cow"] [.other, .type (.reference inside)]
    let kinds : List LayerKind := [.pointer, .reference, .option, .paren, .option]
    unit.Layered kinds t ∧ ¬ unit.IsLayer ∧ ¬ unit.HoldsSeveral ∧
      ∃ p q, parameter ⟨fun _ => ⟨.null, []⟩, .empty⟩ ⟨.binding (.plain "at"), t, []⟩ = .ok p ∧
        parameter ⟨fun _ => ⟨.null, []⟩, .empty⟩ ⟨.binding (.plain "at"), unit, []⟩ = .ok q ∧
        (p.spec .empty false).compile.schema = (q.spec .empty false).compile.schema ∧
        ((p.spec .empty false).compile.required = true ↔ .option ∉ kinds) := by
  intro unit inside t kinds
  have hlayers : unit.Layered kinds t :=
    .layer (.pointer (by decide) rfl) <| .layer (.reference _) <| .layer (.option rfl rfl) <|
      .layer (.paren _) <| .layer (.option rfl rfl) .base
  have hlayer : ¬ unit.IsLayer := by
    rintro ⟨kind, u, hu⟩
    change TypeExpr.Layer kind u (.tuple []) at hu
    cases hu
  obtain ⟨p, q, hp, hq, hall⟩ :=
    layers_decide_required hlayers ⟨fun _ => ⟨.null, []⟩, .empty⟩ (.plain "at")
  obtain ⟨-, hschema, -, hrequired⟩ := hall .empty false
  exact ⟨hlayers, hlayer, id, p, q, hp, hq, hschema, hrequired hlayer id⟩

/-- A pointer with two type arguments is no layer, but it stands for the last of them, here an
option, and no parameter of that type is required. -/
theorem second_argument_optional :
    let base : TypeExpr := .path ["Box"] [.type (.named "u8"), .type (.path ["Option"]
      [.type (.named "u8")])]
    ¬ base.IsLayer ∧ base.Layered [] base ∧
      ∃ p, parameter ⟨fun _ => ⟨.null, []⟩, .empty⟩ ⟨.binding (.plain "n"), base, []⟩ = .ok p ∧
        ¬ ((p.spec .empty false).compile.required = true ↔ .option ∉ ([] : List LayerKind)) := by
  intro base
  refine ⟨?_, .base, _, parameter_plain _ _ _, by decide⟩
  rintro ⟨kind, t, h⟩
  change TypeExpr.Layer kind t (.path _ _) at h
  cases h with
  | pointer _ hargs => simp [TypeExpr.typeArgs] at hargs
  | option hname _ => exact absurd hname (by decide)

end Declaration

end ToolSpec
