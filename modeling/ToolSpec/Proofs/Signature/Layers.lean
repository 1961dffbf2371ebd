import ToolSpec.Proofs.DeclaredType.Bare
import ToolSpec.Signature.Parameter

/-!
# Layers of metadata

How the metadata at the top of a type is divided into layers makes no difference to a parameter, and
metadata below the top makes none at all: the flattened items and the bare type decide.
-/

set_option autoImplicit false

namespace ToolSpec

namespace DeclaredType

def isLayer : DeclaredType → Bool
  | .annotated _ _ => true
  | _ => false

/-- The second type comes from the first one by joining layers at the top, the inner items first, by
dividing them, and by adding and removing layers below the leaf. -/
inductive Relayered : DeclaredType → DeclaredType → Prop
  | join (a : DeclaredType) (inner outer : List MetadataItem) :
      Relayered (.annotated (.annotated a inner) outer) (.annotated a (inner ++ outer))
  | divide (a : DeclaredType) (inner outer : List MetadataItem) :
      Relayered (.annotated a (inner ++ outer)) (.annotated (.annotated a inner) outer)
  | beneath {a b : DeclaredType} (ha : a.isLayer = false) (hb : b.isLayer = false)
      (h : a.bare = b.bare) : Relayered a b
  | under {a b : DeclaredType} (items : List MetadataItem) (h : Relayered a b) :
      Relayered (.annotated a items) (.annotated b items)
  | trans {a b c : DeclaredType} (hab : Relayered a b) (hbc : Relayered b c) : Relayered a c

theorem metadata_of_not_is_layer {a : DeclaredType} (h : a.isLayer = false) : a.metadata = [] := by
  cases a <;> first | rfl | simp [isLayer] at h

theorem Relayered.keeps {a b : DeclaredType} (h : Relayered a b) :
    a.metadata = b.metadata ∧ a.bare = b.bare := by
  induction h with
  | join a inner outer =>
    simp only [metadata_annotated, bare_annotated, List.append_assoc, and_self]
  | divide a inner outer =>
    simp only [metadata_annotated, bare_annotated, List.append_assoc, and_self]
  | beneath ha hb h =>
    exact ⟨by rw [metadata_of_not_is_layer ha, metadata_of_not_is_layer hb], h⟩
  | under items _ ih =>
    simp only [metadata_annotated, bare_annotated, ih, and_self]
  | trans _ _ ihab ihbc => exact ⟨ihab.1.trans ihbc.1, ihab.2.trans ihbc.2⟩

end DeclaredType

open DeclaredType

theorem ParameterSpec.compile_congr {p q : ParameterSpec} (hname : p.name = q.name)
    (hdefault : p.default = q.default) (hdescription : p.description = q.description)
    (henum : p.enum = q.enum) (hmetadata : p.type.metadata = q.type.metadata)
    (hresolve : p.type.resolve = q.type.resolve) : p.compile = q.compile := by
  have hkeywords : p.keywords = q.keywords := by rw [keywords, hmetadata, keywords]
  have hoverlay : p.overlay = q.overlay := by
    rw [overlay, hkeywords, henum, hdescription, hdefault, hmetadata, overlay]
  have hrequired : p.isRequired = q.isRequired := by
    rw [isRequired, hkeywords, hresolve, hdefault, isRequired]
  rw [compile, hname, hoverlay, hresolve, hrequired, compile]

theorem Parameter.allowed_congr {a b : DeclaredType} (hmetadata : a.metadata = b.metadata)
    (hresolve : a.resolve = b.resolve) : allowed a = allowed b := by
  rw [allowed, hmetadata, hresolve, allowed]

/-- Taking all layers off a type at every depth leaves its resolution and whether it is null. A
parameter whose layers at the top are joined or divided, and whose type gains or loses layers below
the leaf, keeps its description, its allowed values and its property, the verdict included. -/
theorem Parameter.flattened_items_decide :
    (∀ a : DeclaredType, a.bare.resolve = a.resolve ∧ a.bare.isNull = a.isNull) ∧
    ∀ (p : Parameter) (b : DeclaredType), p.type.Relayered b →
      ∀ (docs : Docstring) (placeholders : Bool),
        let old := p.spec docs placeholders
        let new := { p with type := b }.spec docs placeholders
        new.description = old.description ∧ new.enum = old.enum ∧ new.compile = old.compile ∧
          new.isRequired = old.isRequired := by
  refine ⟨fun a => ⟨resolve_bare a, is_null_bare a⟩, fun p b h docs placeholders => ?_⟩
  intro old new
  obtain ⟨hmetadata, hbare⟩ := h.keeps
  have hresolve : b.resolve = p.type.resolve := resolve_of_bare hbare.symm
  have hdescription : new.description = old.description := by
    simp only [new, old, spec, hmetadata]
  have henum : new.enum = old.enum := allowed_congr hmetadata.symm hresolve
  have hcompile : new.compile = old.compile :=
    ParameterSpec.compile_congr rfl rfl hdescription henum hmetadata.symm hresolve
  exact ⟨hdescription, henum, hcompile, congrArg Property.required hcompile⟩

/-- A described list of described strings, its two layers joined and its elements left bare. -/
theorem Parameter.described_strings_relayered :
    let a : DeclaredType := .array (.annotated (.primitive .string) [.docTag "inside"])
    let inner : List MetadataItem := [.enumClass ["x"], .plainText "inner"]
    let outer : List MetadataItem := [.plainText "outer", .enumClass ["y"]]
    let p : Parameter := ⟨"p", .annotated (.annotated a inner) outer, none⟩
    let b : DeclaredType := .annotated (.array (.primitive .string)) (inner ++ outer)
    p.type.Relayered b ∧
      ({ p with type := b }.spec .empty false).description = "inner" ∧
      ({ p with type := b }.spec .empty false).enum = some [.str "x"] ∧
      ({ p with type := b }.spec .empty false).compile = (p.spec .empty false).compile := by
  intro a inner outer p b
  have hjoined : p.type.Relayered (.annotated a (inner ++ outer)) := .join a inner outer
  have hinside : a.Relayered (.array (.primitive .string)) := .beneath rfl rfl rfl
  have hlayers := hjoined.trans (hinside.under (inner ++ outer))
  obtain ⟨hdescription, henum, hcompile, -⟩ :=
    Parameter.flattened_items_decide.2 p b hlayers .empty false
  exact ⟨hlayers, hdescription, henum, hcompile⟩

end ToolSpec
