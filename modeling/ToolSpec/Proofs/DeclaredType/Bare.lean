import ToolSpec.Proofs.DeclaredType.Keys

/-!
# Types without their layers

The bare type has no metadata left at any depth. It resolves as the type does, so that metadata has
a say about the property of a parameter only where it is gathered: in the layers at the top.
-/

set_option autoImplicit false

namespace ToolSpec

namespace DeclaredType

mutual

/-- The type without its layers and those of the types inside it. -/
def bare : DeclaredType → DeclaredType
  | .array a => .array (bare a)
  | .objectMap a => .objectMap (bare a)
  | .tuple as => .tuple (eachBare as)
  | .union as => .union (eachBare as)
  | .annotated a _ => bare a
  | a => a

def eachBare : List DeclaredType → List DeclaredType
  | [] => []
  | a::rest => bare a::eachBare rest

end

theorem each_bare_eq_map (as : List DeclaredType) : eachBare as = as.map bare := by
  induction as with
  | nil => rfl
  | cons a rest ih => simp [eachBare, ih]

theorem bare_annotated (a : DeclaredType) (items : List MetadataItem) :
    (DeclaredType.annotated a items).bare = a.bare := by rw [bare]

theorem is_null_bare (a : DeclaredType) : a.bare.isNull = a.isNull := by
  induction a using induct with
  | annotated a items ih => rw [bare_annotated, is_null_annotated, ih]
  | _ => rfl

theorem resolve_each_bare {as : List DeclaredType} (h : ∀ a ∈ as, a.bare.resolve = a.resolve) :
    resolveEach (eachBare as) = resolveEach as := by
  rw [each_bare_eq_map, resolve_each_eq_map, resolve_each_eq_map, List.map_map]
  apply List.map_congr_left
  intro a ha
  rw [Function.comp_apply, h a ha]

theorem resolve_members_bare {as : List DeclaredType} (h : ∀ a ∈ as, a.bare.resolve = a.resolve) :
    resolveMembers (eachBare as) = resolveMembers as := by
  induction as with
  | nil => rfl
  | cons a rest ih =>
    rw [eachBare, resolveMembers, resolveMembers, is_null_bare, h a List.mem_cons_self,
      ih fun b hb => h b (List.mem_cons_of_mem a hb)]

theorem any_is_null_bare (as : List DeclaredType) :
    (eachBare as).any isNull = as.any isNull := by
  simp [each_bare_eq_map, is_null_bare, Function.comp_def]

theorem resolve_bare (a : DeclaredType) : a.bare.resolve = a.resolve := by
  induction a using induct with
  | array a ih => rw [bare, resolve, resolve, ih]
  | objectMap a _ => rw [bare, resolve, resolve]
  | tuple as ih => rw [bare, resolve, resolve, resolve_each_bare ih]
  | union as ih => rw [bare, resolve, resolve, resolve_members_bare ih, any_is_null_bare]
  | annotated a items ih => rw [bare_annotated, resolve_annotated, ih]
  | _ => rfl

theorem resolve_of_bare {a b : DeclaredType} (h : a.bare = b.bare) : a.resolve = b.resolve := by
  rw [← resolve_bare a, h, resolve_bare]

end DeclaredType

end ToolSpec
