import ToolSpec.Proofs.Codec.Integers
import ToolSpec.Proofs.Codec.Written

/-!
# Integers from the written signature to the property

A bound in the items around a written type, a value that they list and a value of a literal inside
the type are found in the property of the parameter, unless another source writes over them. An
integer is the same there exactly if it fits 64 bits with a sign.
-/

set_option autoImplicit false

namespace ToolSpec
open Codec

inductive BoundKind
  | minimum
  | maximum
  | exclusiveMinimum
  | exclusiveMaximum

namespace BoundKind

def key : BoundKind → String
  | .minimum => "minimum"
  | .maximum => "maximum"
  | .exclusiveMinimum => "exclusive_minimum"
  | .exclusiveMaximum => "exclusive_maximum"

def keyword : BoundKind → String
  | .minimum => "minimum"
  | .maximum => "maximum"
  | .exclusiveMinimum => "exclusiveMinimum"
  | .exclusiveMaximum => "exclusiveMaximum"

def bound : BoundKind → Keywords → Option Bound
  | .minimum => Keywords.minimum
  | .maximum => Keywords.maximum
  | .exclusiveMinimum => Keywords.exclusiveMinimum
  | .exclusiveMaximum => Keywords.exclusiveMaximum

theorem read (b : BoundKind) (fs : Fields Json) (k : Keywords)
    (h : Keywords.ofJson? (.obj fs) = some k) :
    optional b.key Bound.ofJson? fs = some (b.bound k) := by
  obtain ⟨-, -, -, -, hminimum, hmaximum, hexclusiveMinimum, hexclusiveMaximum, -⟩ :=
    Keywords.of_json_eq_some.mp h
  cases b <;> assumption

theorem declared (b : BoundKind) (p : Parameter) (docs : Docstring) (placeholders : Bool) :
    p.declared? docs placeholders b.keyword =
      (Parameter.lastSet? b.bound p.type.metadata).bind Bound.keyword? := by
  cases b <;> rfl

end BoundKind

namespace Parameter

/-- Where a part of the schema of a type is in the property. The schema of the type is the property
itself, apart from the keys that other sources write. A part inside it is under the same key. -/
inductive Placed (p : Parameter) (property : Property) (w : Json) : Prop
  | itself : w = p.type.resolve.schema →
      (listed? p.type.metadata = none → lastExtra? "enum" p.type.metadata = none →
        property.schema.get? "enum" = w.get? "enum") →
      (lastSet? Keywords.type p.type.metadata = none → lastExtra? "type" p.type.metadata = none →
        property.schema.get? "type" = w.get? "type") → Placed p property w
  | inside {key : String} {v : Json} : key ∈ ["items", "anyOf"] →
      p.type.resolve.schema.get? key = some v → SchemaPart v w →
      (lastExtra? key p.type.metadata = none → property.schema.get? key = some v) →
      Placed p property w

/-- What becomes of the integers in a written type, unless another source writes over them. -/
structure KeepsIntegers (written : Json) (p : Parameter) (property : Property) : Prop where
  layered : ∃ items, written.LayerItems items
  bounds : ∀ items, written.LayerItems items → ∀ (b : BoundKind) (n : Int),
    Json.lastKeyword? b.key items = some (.int n) → Fits64 n →
    lastExtra? b.keyword p.type.metadata = none →
    ∃ w, property.schema.get? b.keyword = some w ∧ LeftOf n w
  listed : ∀ items, written.LayerItems items → ∀ vs,
    Json.lastKeyword? "enum" items = some (.arr vs) →
    (∀ m ∈ p.type.metadata, m.enumClass? = none) → lastExtra? "enum" p.type.metadata = none →
    ∃ ws, property.schema.get? "enum" = some (.arr ws) ∧
      List.Forall₂ Keeps (vs.filter (!·.isNull)) ws
  literals : ∀ vs, written.LiteralAt vs → (∃ n, .int n ∈ vs) →
    ∃ w, Placed p property w ∧ KeepsLiteral vs w

theorem extras_nodup {p : Parameter} (h : p.wellKeyed = true) (fields : Fields Json)
    (hmem : .extra fields ∈ p.type.metadata) : (Fields.keys fields).Nodup := by
  simp only [wellKeyed, Bool.and_eq_true, List.all_eq_true] at h
  exact ((Json.well_keyed_obj fields).mp (h.1.2 _ hmem)).1

section

variable {p : Parameter} {written : Json} (hread : DeclaredType.ofJson? written = some p.type)
  (hp : p.wellKeyed = true) (docs : Docstring) (placeholders : Bool)
include hread hp

theorem bound_keeps {items : List Json} (hitems : written.LayerItems items) (b : BoundKind)
    {n : Int} (hn : Fits64 n) (hlast : Json.lastKeyword? b.key items = some (.int n))
    (hextra : lastExtra? b.keyword p.type.metadata = none) :
    ∃ w, (p.spec docs placeholders).compile.schema.get? b.keyword = some w ∧ LeftOf n w := by
  have hbound := last_keyword_read b.read (DeclaredType.layer_items_read hitems hread)
  rw [hlast] at hbound
  obtain ⟨bound, hset, hbound⟩ := Option.map_eq_some_iff.mp hbound.symm
  obtain rfl : Bound.ofNumber (.int n) = bound := Option.some.inj hbound.symm
  obtain ⟨w, hw, hleft⟩ := Bound.of_number_int hn
  refine ⟨w, ?_, hleft⟩
  rw [get_compile (extras_nodup hp), hextra, Option.none_or, b.declared, hset, Option.bind_some, hw]
  rfl

theorem listed_keeps {items : List Json} (hitems : written.LayerItems items) {vs : List Json}
    (hlast : Json.lastKeyword? "enum" items = some (.arr vs))
    (hclass : ∀ m ∈ p.type.metadata, m.enumClass? = none)
    (hextra : lastExtra? "enum" p.type.metadata = none) :
    ∃ ws, (p.spec docs placeholders).compile.schema.get? "enum" = some (.arr ws) ∧
      List.Forall₂ Keeps (vs.filter (!·.isNull)) ws := by
  have hlist := last_keyword_read (fun _ _ h => (Keywords.of_json_eq_some.mp h).2.2.1)
    (DeclaredType.layer_items_read hitems hread)
  rw [hlast] at hlist
  obtain ⟨values, hset, hvalues⟩ := Option.map_eq_some_iff.mp hlist.symm
  refine ⟨_, ?_, present_keeps (mapm_eq_some_iff.mp hvalues.symm)⟩
  rw [get_compile (extras_nodup hp), hextra, Option.none_or]
  change (listed? p.type.metadata).or _ = _
  rw [listed?, List.findSome?_eq_none_iff.mpr hclass, hset]
  rfl

omit hread in
theorem placed {w : Json} (hw : SchemaPart p.type.resolve.schema w) :
    Placed p (p.spec docs placeholders).compile w := by
  have hget := get_compile (extras_nodup hp) docs placeholders
  cases hw with
  | here =>
    refine .itself rfl (fun hlisted hextra => ?_) (fun htype hextra => ?_)
    · have hdeclared : p.declared? docs placeholders "enum" = none := hlisted
      rw [hget, hextra, hdeclared]
      rfl
    · have hdeclared : p.declared? docs placeholders "type" = none :=
        congrArg (Option.map fun t : TypeName => Json.str t.text) htype
      rw [hget, hextra, hdeclared]
      rfl
  | @under _ key v _ hkey hlookup hv =>
    refine .inside hkey hlookup hv fun hextra => ?_
    rw [hget, hextra]
    simp only [List.mem_cons, List.not_mem_nil, or_false] at hkey
    rcases hkey with rfl | rfl <;> exact hlookup

theorem literal_placed {vs : List Json} (hvalues : written.LiteralAt vs) (hint : ∃ n, .int n ∈ vs) :
    ∃ w, Placed p (p.spec docs placeholders).compile w ∧ KeepsLiteral vs w := by
  have htype : p.type.wellKeyed = true := by
    simp only [wellKeyed, Bool.and_eq_true] at hp
    exact hp.1.1
  obtain ⟨values, hvalues, hpart⟩ := DeclaredType.literal_at_read hvalues hread
  obtain ⟨w, hw, hkeys⟩ := hpart.lookup htype rfl
  rw [DeclaredType.resolve] at hkeys
  exact ⟨w, placed hp docs placeholders hw, literal_keeps hvalues hint hkeys⟩

theorem keeps_integers : KeepsIntegers written p (p.spec docs placeholders).compile where
  layered := DeclaredType.exists_layer_items hread
  bounds _ hitems b _ hlast hn hextra :=
    bound_keeps hread hp docs placeholders hitems b hn hlast hextra
  listed _ hitems _ hlast hclass hextra :=
    listed_keeps hread hp docs placeholders hitems hlast hclass hextra
  literals _ hvalues hint := literal_placed hread hp docs placeholders hvalues hint

end

end Parameter

/-- Every parameter of a signature that is read keeps the integers of its written type: bounds and
listed values stay the same exactly if they fit 64 bits with a sign. -/
theorem Signature.integers_kept {v written : Json} {s : Signature} (h : Signature.ofJson? v = some s)
    (hs : s.wellKeyed = true) {i : Nat} (hwritten : v.annotation? i = some written) (o : Options) :
    ∃ p property, s.parameters[i]? = some p ∧ (s.compile o).properties[i]? = some property ∧
      Parameter.KeepsIntegers written p property := by
  obtain ⟨p, hp, hread⟩ := annotation_read h hwritten
  have hkeyed : p.wellKeyed = true := List.all_eq_true.mp hs p (List.mem_of_getElem? hp)
  exact ⟨p, _, hp, FunctionSpec.properties_of_parameter hp o,
    Parameter.keeps_integers hread hkeyed (s.docs o.style) o.placeholders⟩

/-- Codes in a list, with the least bound of 64 bits and the greatest one. -/
theorem Signature.wide_codes_kept :
    let bounds : Json := .obj [("minimum", .int (-9223372036854775808)), ("enum", .null),
      ("exclusive_maximum", .int 18446744073709551615)]
    let codes : Json := .obj [("kind", .str "literal"),
      ("of", .arr [.int 1, .null, .int 9223372036854775807])]
    let written : Json := .obj [("kind", .str "annotated"), ("of", .obj [
      ("inner", .obj [("kind", .str "array"), ("of", codes)]),
      ("metadata", .arr [.obj [("kind", .str "field"), ("value", bounds)]])])]
    let v : Json := .obj [("name", .str "f"), ("parameters", .arr [.obj [("name", .str "codes"),
      ("annotation", written)]])]
    ∃ s, Signature.ofJson? v = some s ∧ s.wellKeyed = true ∧ v.annotation? 0 = some written ∧
      ∃ p property, s.parameters[0]? = some p ∧
        (s.compile .standard).properties[0]? = some property ∧
        Parameter.KeepsIntegers written p property := by
  intro bounds codes written v
  have hread : Signature.ofJson? v = some _ := rfl
  have hwritten : v.annotation? 0 = some written := rfl
  exact ⟨_, hread, rfl, hwritten, integers_kept hread rfl hwritten .standard⟩

/-- The least integer that fits only without a sign, as a bound and as the only value. -/
theorem Signature.unsigned_integer_rounded :
    let n : Int := 9223372036854775808
    let bounds : Json := .obj [("minimum", .int n), ("enum", .arr [.int n])]
    let written : Json := .obj [("kind", .str "annotated"), ("of", .obj [
      ("inner", .obj [("kind", .str "primitive"), ("of", .str "integer")]),
      ("metadata", .arr [.obj [("kind", .str "field"), ("value", bounds)]])])]
    let v : Json := .obj [("name", .str "f"), ("parameters", .arr [.obj [("name", .str "n"),
      ("annotation", written)]])]
    Fits64 n ∧ ∃ s property, Signature.ofJson? v = some s ∧
      (s.compile .standard).properties = [property] ∧
      ¬ property.schema.get? "minimum" = some (.int n) ∧
      ¬ property.schema.get? "enum" = some (.arr [.int n]) := by
  intro n bounds written v
  have hfits : Fits64 n := ⟨by decide, by decide⟩
  have hbeyond : ¬ n ≤ Int64.maxValue.toInt := by decide
  have hitems : written.LayerItems ([] ++ [.obj [("kind", .str "field"), ("value", bounds)]]) :=
    .layer rfl rfl rfl rfl (.leaf (by decide))
  have hread : DeclaredType.ofJson? written = some _ := rfl
  have hkeeps := Parameter.keeps_integers (p := ⟨"n", _, none⟩) hread rfl .empty false
  refine ⟨hfits, _, _, rfl, rfl, ?_, ?_⟩
  · obtain ⟨w, hw, hleft⟩ := hkeeps.bounds _ hitems .minimum n rfl hfits rfl
    intro hminimum
    exact hbeyond (hleft.eq_int_iff.mp (Option.some.inj (hw.symm.trans hminimum)))
  · obtain ⟨ws, hws, hlisted⟩ := hkeeps.listed _ hitems [.int n] rfl
      (fun m hm => by rw [List.mem_singleton.mp hm]; rfl) rfl
    intro henum
    obtain rfl := Json.arr.inj (Option.some.inj (hws.symm.trans henum))
    cases hlisted with
    | cons hkept _ => exact hbeyond ((hkept n rfl hfits).eq_int_iff.mp rfl)

end ToolSpec
