import ToolSpec.Codec.Signature
import ToolSpec.Proofs.DeclaredType.Meaning

/-!
# Reading back what was written

A float that is not finite is written as null, so that a literal reads back as a null and a bound as
none at all. Every other part of a signature keeps its form, and a record that is written as an
object is read key by key.
-/

set_option autoImplicit false

namespace ToolSpec

def Bound.isFinite : Bound → Bool
  | .int _ => true
  | .float x => x.finite?.isSome

def Keywords.isFinite (k : Keywords) : Bool :=
  k.enum.all (·.all Scalar.isFinite) && k.minimum.all Bound.isFinite &&
    k.maximum.all Bound.isFinite && k.exclusiveMinimum.all Bound.isFinite &&
    k.exclusiveMaximum.all Bound.isFinite

def MetadataItem.isFinite : MetadataItem → Bool
  | .field keywords => keywords.isFinite
  | _ => true

namespace DeclaredType

mutual

def isFinite : DeclaredType → Bool
  | .array a | .objectMap a => isFinite a
  | .tuple as | .union as => eachFinite as
  | .literal values => values.all Scalar.isFinite
  | .annotated a items => isFinite a && items.all MetadataItem.isFinite
  | _ => true

def eachFinite : List DeclaredType → Bool
  | [] => true
  | a::rest => isFinite a && eachFinite rest

end

theorem each_finite_iff (as : List DeclaredType) :
    eachFinite as = true ↔ ∀ a ∈ as, a.isFinite = true := by
  induction as with
  | nil => simp [eachFinite]
  | cons a rest ih => simp [eachFinite, ih]

end DeclaredType

def Signature.isFinite (s : Signature) : Bool := s.parameters.all (·.type.isFinite)

namespace Codec

variable {α : Type} {write : α → Json} {read : Json → Option α} {key : String} {fs : Fields Json}

theorem list_written (xs : List α) :
    list read (.arr (xs.map write)) = some xs ↔ ∀ x ∈ xs, read (write x) = some x := by
  rw [list]
  induction xs with
  | nil => simp
  | cons x rest ih =>
    rw [List.forall_mem_cons, ← ih, List.map_cons, List.mapM_cons]
    simp [Option.bind_eq_some_iff, -List.mapM_map]

theorem strings_written (names : List String) : strings (.strs names) = some names := by
  rw [strings, Json.strs, list_written]
  exact fun _ _ => rfl

theorem lookup_entry (key k : String) (write : α → Json) (value : Option α) :
    (entry key write value).lookup k = if k = key then value.map write else none := by
  cases value with
  | none => simp [entry]
  | some v => simp [entry, Fields.lookup_cons_ite]

theorem needed_of_lookup {v : Json} (h : fs.lookup key = some v) : needed key read fs = read v := by
  rw [needed, h, Option.bind_some]

theorem with_default_of_lookup {v : Json} (h : fs.lookup key = some v) (standard : α) :
    withDefault key standard read fs = read v := by
  rw [withDefault, h]

/-- A reader that refuses null tells a value that is left out from every other one. -/
theorem optional_written (hnull : read .null = none) {value : Option α}
    (h : fs.lookup key = value.map write) :
    optional key read fs = some value ↔ ∀ v ∈ value, read (write v) = some v := by
  rw [optional, h]
  cases value with
  | none => simp
  | some v =>
    cases hv : write v with
    | null => simp [hv, hnull]
    | _ => simp [hv]

end Codec

open Codec

theorem Number.int64_to_int (n : Int64) : Number.int64? (.int n.toInt) = some n := by
  have hrange : Int64.minValue.toInt ≤ n.toInt ∧ n.toInt ≤ Int64.maxValue.toInt :=
    ⟨n.minValue_le_toInt, n.toInt_le⟩
  rw [int64?, if_pos hrange, Int64.ofInt_toInt]

theorem Json.uint64_to_nat (n : UInt64) : Json.uint64? (.int n.toNat) = some n := by
  have hrange : (0 : Int) ≤ n.toNat ∧ (n.toNat : Int) < UInt64.size := by
    have := n.toNat_lt_size
    omega
  rw [Json.int, uint64?, if_pos hrange, Int.toNat_natCast, UInt64.ofNat_toNat]

theorem Primitive.of_json_type_name (kind : Primitive) :
    Primitive.ofJson? (.str kind.typeName) = some kind := by
  cases kind <;> rfl

theorem Scalar.of_json_to_json (s : Scalar) :
    Scalar.ofJson? s.toJson = some s ↔ s.isFinite = true := by
  cases s with
  | integer n => simp [toJson, Json.int, ofJson?, ofNumber, Number.int64_to_int, isFinite]
  | number x => cases x <;> simp [toJson, Json.ofDouble, Json.float, ofJson?, ofNumber,
      Number.int64?, Number.toDouble, isFinite, Double.finite?]
  | _ => simp [toJson, ofJson?, isFinite]

theorem Bound.of_json_to_json (b : Bound) :
    Bound.ofJson? b.toJson = some b ↔ b.isFinite = true := by
  cases b with
  | int n => simp [toJson, keyword?, Json.ofOption, Json.int, ofJson?, ofNumber,
      Number.int64_to_int, isFinite]
  | float x => cases x <;> simp [toJson, keyword?, Json.ofOption, Json.float, ofJson?, ofNumber,
      Number.int64?, Number.toDouble, isFinite, Double.finite?]

namespace Keywords

theorem of_json_eq_some {fs : Fields Json} {k : Keywords} :
    ofJson? (.obj fs) = some k ↔
      optional "type" TypeName.ofJson? fs = some k.type ∧
        optional "description" Json.str? fs = some k.description ∧
        optional "enum" (list Scalar.ofJson?) fs = some k.enum ∧
        optional "required" Json.bool? fs = some k.required ∧
        optional "minimum" Bound.ofJson? fs = some k.minimum ∧
        optional "maximum" Bound.ofJson? fs = some k.maximum ∧
        optional "exclusive_minimum" Bound.ofJson? fs = some k.exclusiveMinimum ∧
        optional "exclusive_maximum" Bound.ofJson? fs = some k.exclusiveMaximum ∧
        optional "min_length" Json.uint64? fs = some k.minLength ∧
        optional "max_length" Json.uint64? fs = some k.maxLength ∧
        optional "pattern" Json.str? fs = some k.pattern := by
  cases k
  simp [ofJson?, Option.bind_eq_some_iff]

theorem lookup_to_json {k : Keywords} {fs : Fields Json} (h : k.toJson = .obj fs) :
    fs.lookup "type" = k.type.map (fun t => .str t.text) ∧
      fs.lookup "description" = k.description.map .str ∧
      fs.lookup "enum" = k.enum.map (fun vs => .arr (vs.map Scalar.toJson)) ∧
      fs.lookup "required" = k.required.map .bool ∧
      fs.lookup "minimum" = k.minimum.map Bound.toJson ∧
      fs.lookup "maximum" = k.maximum.map Bound.toJson ∧
      fs.lookup "exclusive_minimum" = k.exclusiveMinimum.map Bound.toJson ∧
      fs.lookup "exclusive_maximum" = k.exclusiveMaximum.map Bound.toJson ∧
      fs.lookup "min_length" = k.minLength.map (fun n => .int n.toNat) ∧
      fs.lookup "max_length" = k.maxLength.map (fun n => .int n.toNat) ∧
      fs.lookup "pattern" = k.pattern.map .str := by
  obtain rfl := Json.obj.inj h
  simp [List.lookup_append, lookup_entry]

theorem of_json_to_json (k : Keywords) : ofJson? k.toJson = some k ↔ k.isFinite = true := by
  obtain ⟨fs, hfs⟩ : ∃ fs, k.toJson = .obj fs := ⟨_, rfl⟩
  obtain ⟨htype, hdescription, henum, hrequired, hminimum, hmaximum, hexclusiveMinimum,
    hexclusiveMaximum, hminLength, hmaxLength, hpattern⟩ := lookup_to_json hfs
  have hname (t : TypeName) : TypeName.ofJson? (.str t.text) = some t := TypeName.of_text_text t
  rw [hfs, of_json_eq_some, optional_written rfl htype, optional_written rfl hdescription,
    optional_written rfl henum, optional_written rfl hrequired, optional_written rfl hminimum,
    optional_written rfl hmaximum, optional_written rfl hexclusiveMinimum,
    optional_written rfl hexclusiveMaximum, optional_written rfl hminLength,
    optional_written rfl hmaxLength, optional_written rfl hpattern]
  simp [hname, Json.str?, Json.bool?, Json.uint64_to_nat, list_written, Scalar.of_json_to_json,
    Bound.of_json_to_json, isFinite, and_assoc, Option.all_eq_true]

end Keywords

theorem MetadataItem.of_json_to_json (i : MetadataItem) :
    MetadataItem.ofJson? i.toJson = some i ↔ i.isFinite = true := by
  have hkind (kind : String) (content : Fields Json) :
      MetadataItem.ofJson? (tagged kind content) = read? kind (("kind", .str kind)::content) := by
    simp [tagged, ofJson?, needed, Json.str?]
  have hvalue {α : Type} (read : Json → Option α) (kind : String) (v : Json) :
      needed "value" read [("kind", .str kind), ("value", v)] = read v :=
    needed_of_lookup (by simp [Fields.lookup_cons_ite])
  cases i with
  | field keywords => simp [toJson, hkind, read?, hvalue, keywords.of_json_to_json, isFinite]
  | other => simp [toJson, hkind, read?, Fields.lookup_cons_ite, isFinite]
  | _ => simp [toJson, hkind, read?, hvalue, Json.str?, Json.fields?, strings_written, isFinite]

namespace DeclaredType

theorem needed_tagged {α : Type} (read : Json → Option α) (kind content : Json) :
    needed "kind" read [("kind", kind), ("of", content)] = read kind ∧
      needed "of" read [("kind", kind), ("of", content)] = read content :=
  ⟨needed_of_lookup (by simp), needed_of_lookup (by simp [Fields.lookup_cons_ite])⟩

theorem of_json_list {kind : String} {make : List DeclaredType → DeclaredType}
    (hmake : ∀ v, ofJson? (tagged kind v) = (v.items?.bind (·.mapM ofJson?)).map make)
    (hinjective : ∀ as bs, make as = make bs → as = bs) (as : List DeclaredType) :
    ofJson? (tagged kind (.arr (as.map toJson))) = some (make as) ↔
      ∀ a ∈ as, ofJson? a.toJson = some a := by
  have hlist : list ofJson? (.arr (as.map toJson)) = (as.map toJson).mapM ofJson? := rfl
  rw [hmake, Json.items?, Option.bind_some, ← hlist, ← list_written, Option.map_eq_some_iff]
  constructor
  · rintro ⟨bs, hbs, hsame⟩
    rw [hbs, hinjective bs as hsame]
  · exact fun h => ⟨as, h, rfl⟩

theorem of_list_field_tagged (kind content : Json) :
    ofListField? [("kind", kind), ("of", content)] = content.items?.bind (·.mapM ofJson?) := by
  cases content <;> simp [ofListField?, Json.items?, of_each_eq_mapm]

theorem of_json_to_json (a : DeclaredType) :
    DeclaredType.ofJson? a.toJson = some a ↔ a.isFinite = true := by
  induction a using induct with
  | primitive kind =>
    simp [toJson, tagged, ofJson?, needed_tagged, Json.str?, Primitive.of_json_type_name, isFinite]
  | array a ih =>
    simp [toJson, tagged, ofJson?, needed_tagged, Json.str?, ofField?, ih, isFinite]
  | objectMap a ih =>
    simp [toJson, tagged, ofJson?, needed_tagged, Json.str?, ofField?, ih, isFinite]
  | tuple as ih =>
    have hread (v : Json) :
        ofJson? (tagged "tuple" v) = (v.items?.bind (·.mapM ofJson?)).map .tuple := by
      simp [tagged, ofJson?, needed_tagged, Json.str?, of_list_field_tagged]
    rw [toJson, to_json_each_eq_map, of_json_list hread fun _ _ => tuple.inj, isFinite,
      each_finite_iff]
    exact forall₂_congr ih
  | union as ih =>
    have hread (v : Json) :
        ofJson? (tagged "union" v) = (v.items?.bind (·.mapM ofJson?)).map .union := by
      simp [tagged, ofJson?, needed_tagged, Json.str?, of_list_field_tagged]
    rw [toJson, to_json_each_eq_map, of_json_list hread fun _ _ => union.inj, isFinite,
      each_finite_iff]
    exact forall₂_congr ih
  | literal values =>
    simp [toJson, tagged, ofJson?, needed_tagged, Json.str?, list_written, Scalar.of_json_to_json,
      isFinite]
  | enumRef names =>
    simp [toJson, tagged, ofJson?, needed_tagged, Json.str?, strings_written, isFinite]
  | annotated a items ih =>
    simp [toJson, tagged, ofJson?, needed, Fields.lookup_cons_ite, Json.str?, ofField?, ofLayer?,
      Option.bind_eq_some_iff, list_written, ih, MetadataItem.of_json_to_json, isFinite]
  | schema value =>
    simp [toJson, tagged, ofJson?, needed_tagged, Json.str?, Fields.lookup_cons_ite, isFinite]
  | unknown => simp [toJson, ofJson?, needed, Json.str?, Fields.lookup_cons_ite, isFinite]

end DeclaredType

theorem Parameter.of_json_to_json (p : Parameter) :
    Parameter.ofJson? p.toJson = some p ↔ p.type.isFinite = true := by
  obtain ⟨name, type, default⟩ := p
  obtain ⟨fs, hfs⟩ : ∃ fs, Parameter.toJson ⟨name, type, default⟩ = .obj fs := ⟨_, rfl⟩
  have hlookup : fs.lookup "name" = some (.str name) ∧ fs.lookup "annotation" = some type.toJson ∧
      fs.lookup "default" = default := by
    obtain rfl := Json.obj.inj hfs
    simp [Fields.lookup_cons_ite, lookup_entry]
  obtain ⟨hname, htype, hdefault⟩ := hlookup
  rw [hfs, ofJson?, needed_of_lookup hname, with_default_of_lookup htype, hdefault,
    ← type.of_json_to_json]
  simp [Json.str?, Option.bind_eq_some_iff]

theorem Signature.of_json_to_json (s : Signature) :
    Signature.ofJson? s.toJson = some s ↔ s.isFinite = true := by
  obtain ⟨name, docstring, parameters⟩ := s
  obtain ⟨fs, hfs⟩ : ∃ fs, Signature.toJson ⟨name, docstring, parameters⟩ = .obj fs := ⟨_, rfl⟩
  have hlookup : fs.lookup "name" = some (.str name) ∧
      fs.lookup "docstring" = docstring.map .str ∧
      fs.lookup "parameters" = some (.arr (parameters.map Parameter.toJson)) := by
    obtain rfl := Json.obj.inj hfs
    simp [List.lookup_append, Fields.lookup_cons_ite, lookup_entry]
  obtain ⟨hname, hdocstring, hparameters⟩ := hlookup
  have htext : optional "docstring" Json.str? fs = some docstring :=
    (optional_written rfl hdocstring).mpr fun _ _ => rfl
  rw [hfs, ofJson?, needed_of_lookup hname, htext, with_default_of_lookup hparameters]
  simp [Json.str?, Option.bind_eq_some_iff, list_written, Parameter.of_json_to_json, isFinite]

theorem ObjectSchema.of_json_to_json (s : ObjectSchema) :
    ObjectSchema.ofJson? s.toJson = some s := by
  simp [toJson, ofJson?, needed, Fields.lookup_cons_ite, Json.str?, Json.fields?, strings_written]

theorem CompiledSchema.of_json_to_json (c : CompiledSchema) :
    CompiledSchema.ofJson? c.toJson = some c := by
  simp [toJson, ofJson?, needed, Fields.lookup_cons_ite, Json.str?, ObjectSchema.of_json_to_json]

/-- A signature reads back as it was exactly if all its floats are finite, and every compiled schema
does. -/
theorem Codec.written_reads_back :
    (∀ s : Signature, Signature.ofJson? s.toJson = some s ↔ s.isFinite = true) ∧
      ∀ c : CompiledSchema, CompiledSchema.ofJson? c.toJson = some c :=
  ⟨Signature.of_json_to_json, CompiledSchema.of_json_to_json⟩

end ToolSpec
