import ToolSpec.Proofs.DeclaredType.Keys
import ToolSpec.Proofs.Schema.EqualSchemas

/-!
# The values of a declared type

A type admits the values it is declared for, and its fragment accepts the same ones, null apart. At
the top null has left the fragment for the verdict; inside arrays and tuples there is no verdict,
so that nothing there may have lost a null.
-/

set_option autoImplicit false

namespace ToolSpec

def Primitive.admits : Primitive → Json → Bool
  | .string, .str _ => true
  | .integer, .num (.int _) => true
  | .number, .num _ => true
  | .boolean, .bool _ => true
  | .null, .null => true
  | _, _ => false

def Scalar.isFinite : Scalar → Bool
  | .number x => x.finite?.isSome
  | _ => true

namespace DeclaredType

mutual

def admits : DeclaredType → Json → Bool
  | .primitive kind => kind.admits
  | .array a => fun v => v.items?.any (·.all (admits a))
  | .objectMap _ => Json.isObject
  | .tuple as => fun v => v.items?.any (admitsInOrder as)
  | .union as => admitsSome as
  | .literal values => fun v => values.any (·.toJson.same v)
  | .enumRef names => fun v => names.any (v.str? = some ·)
  | .annotated a _ => admits a
  | .schema value => Reading.exact.accepts value
  | .unknown => fun _ => true

def admitsInOrder : List DeclaredType → List Json → Bool
  | a::as, v::vs => admits a v && admitsInOrder as vs
  | _, _ => true

def admitsSome : List DeclaredType → Json → Bool
  | [], _ => false
  | a::as, v => admits a v || admitsSome as v

end

/-- Alternatives of which none is lost inside an array or a tuple. -/
def keepsAll {α : Type} (nested : Bool) (isNull : α → Bool) (alternatives : List α) : Bool :=
  !nested || !alternatives.isEmpty && alternatives.all (!isNull ·)

mutual

/-- No schema is taken over, listed floats are finite, and inside arrays and tuples no union or
literal is empty or has null. The values of a map are not described and may be anything. -/
def describable (nested : Bool) : DeclaredType → Bool
  | .array a => describable true a
  | .tuple as => eachDescribable true as
  | .union as => eachDescribable nested as && keepsAll nested isNull as
  | .literal values => values.all Scalar.isFinite && keepsAll nested Scalar.isNull values
  | .annotated a _ => describable nested a
  | .schema _ => false
  | _ => true

def eachDescribable (nested : Bool) : List DeclaredType → Bool
  | [] => true
  | a::rest => describable nested a && eachDescribable nested rest

end

theorem each_describable_iff (nested : Bool) (as : List DeclaredType) :
    eachDescribable nested as = true ↔ ∀ a ∈ as, a.describable nested = true := by
  induction as with
  | nil => simp [eachDescribable]
  | cons a rest ih => simp [eachDescribable, ih]

theorem admits_some_eq_any (as : List DeclaredType) (v : Json) :
    admitsSome as v = as.any (·.admits v) := by
  induction as with
  | nil => rfl
  | cons a rest ih => simp [admitsSome, ih]

theorem describable_well_keyed {a : DeclaredType} {nested : Bool}
    (h : a.describable nested = true) : a.wellKeyed = true := by
  induction a using induct generalizing nested with
  | array a ih => exact ih (by simpa [describable] using h)
  | tuple as ih =>
    rw [describable, each_describable_iff] at h
    rw [wellKeyed, each_well_keyed_iff]
    exact fun a ha => ih a ha (h a ha)
  | union as ih =>
    rw [describable, Bool.and_eq_true, each_describable_iff] at h
    rw [wellKeyed, each_well_keyed_iff]
    exact fun a ha => ih a ha (h.1 a ha)
  | annotated a items ih => exact ih (by simpa [describable] using h)
  | schema value => simp [describable] at h
  | _ => rfl

end DeclaredType

namespace Meaning
open Reading DeclaredType

theorem accepts_type (t : String) (v : Json) :
    exact.accepts (.obj [("type", .str t)]) v = v.isOfType exact.integral t := by
  rw [accepts_cons _ (by decide), accepts_empty, Bool.and_true, meets_type]

theorem accepts_type_pair {key : String} (h : isForeign key = false) (t s v : Json) :
    exact.accepts (.obj [("type", t), (key, s)]) v =
      (exact.meets "type" t v && exact.meets key s v) := by
  rw [accepts_cons _ (by decide), accepts_cons _ h, accepts_empty, Bool.and_true]

theorem primitive_accepts (kind : Primitive) (v : Json) :
    kind.admits v = exact.accepts (.obj [("type", .str kind.typeName)]) v := by
  rw [accepts_type]
  cases kind <;> cases v <;> try rfl
  all_goals rename_i n; cases n <;> rfl

theorem union_accepts {fs : List Json} (hne : fs ≠ []) (hobj : ∀ f ∈ fs, f.isObject = true)
    (v : Json) :
    exact.accepts (.obj (Resolution.unionFragment fs)) v = fs.any (exact.accepts · v) := by
  match fs with
  | [f] =>
    have hf := hobj f (by simp)
    cases f <;> simp_all [Resolution.unionFragment, Json.isObject, Json.fieldsOrEmpty, Json.fields?]
  | f::g::rest =>
    have hmany : Resolution.unionFragment (f::g::rest) = [("anyOf", .arr (f::g::rest))] := rfl
    rw [hmany, accepts_cons _ (by decide), accepts_empty, Bool.and_true, meets_any_of]

theorem alternatives_accept {ms : List Resolution} (hne : ms ≠ [])
    (hm : ∀ m ∈ ms, m.schema.wellKeyed = true) (hasNull : Bool) (v : Json) :
    exact.accepts (Resolution.union hasNull ms).schema v =
      ms.any fun m => exact.accepts m.schema v := by
  have hany : (distinct Json.same (ms.map Resolution.schema)).any (exact.accepts · v) =
      (ms.map Resolution.schema).any (exact.accepts · v) := by
    apply any_distinct
    intro f hf g hg hfg
    obtain ⟨m, hmem, rfl⟩ := List.mem_map.mp hf
    obtain ⟨n, hnmem, rfl⟩ := List.mem_map.mp hg
    rw [(EqualSchemas.same_accepts (hm m hmem) (hm n hnmem) hfg).1]
  have hdistinct : distinct Json.same (ms.map Resolution.schema) ≠ [] := by
    obtain ⟨m, hmem⟩ := List.exists_mem_of_ne_nil ms hne
    obtain ⟨w, hw, -⟩ := exists_distinct (r := Json.same) (List.mem_map_of_mem hmem)
    exact List.ne_nil_of_mem hw
  rw [Resolution.schema, Resolution.union, union_accepts hdistinct, hany]
  · simp [Function.comp_def]
  · intro f hf
    obtain ⟨m, -, rfl⟩ := List.mem_map.mp (distinct_subset hf)
    rfl

theorem literal_types_mem {values : List Scalar} {s : Scalar} (hs : s ∈ values) {t : String}
    (ht : s.typeName? = some t) {v : Json} (hv : v.isOfType exact.integral t = true) :
    ∃ t' ∈ Resolution.literalTypes values, v.isOfType exact.integral t' = true := by
  have hwidened : ∀ f : String → String,
      (∀ name, f name = name ∨ name = "integer" ∧ f name = "number") →
      ∃ t' ∈ distinct (· = ·) ((values.filterMap Scalar.typeName?).map f),
        v.isOfType exact.integral t' = true := by
    intro f hf
    have hmem : f t ∈ (values.filterMap Scalar.typeName?).map f :=
      List.mem_map_of_mem (List.mem_filterMap.mpr ⟨s, hs, ht⟩)
    obtain ⟨w, hw, he⟩ := exists_distinct (r := fun a b => decide (a = b)) hmem
    obtain rfl : w = f t := by simpa using he
    refine ⟨_, hw, ?_⟩
    rcases hf t with h | ⟨rfl, h⟩
    · rwa [h]
    · rw [h]
      cases v <;> simp_all [Json.isOfType]
  unfold Resolution.literalTypes
  split
  · exact hwidened _ fun name => by by_cases h : name = "integer" <;> simp [h]
  · exact hwidened id fun name => .inl rfl

theorem same_is_of_type {s : Scalar} (hf : s.isFinite = true) (hn : s.isNull = false) {v : Json}
    (h : s.toJson.same v = true) :
    ∃ t, s.typeName? = some t ∧ v.isOfType exact.integral t = true := by
  cases s with
  | null => simp [Scalar.isNull] at hn
  | bool b =>
    cases v <;> simp_all [Scalar.toJson, Json.same, Scalar.typeName?, Json.isOfType]
  | integer n =>
    cases v <;> simp only [Scalar.toJson, Json.int, Json.same, reduceCtorEq] at h
    rename_i m
    cases m <;> simp_all [Number.same, Scalar.typeName?, Json.isOfType, exact]
  | number x =>
    cases x <;> simp only [Scalar.isFinite, Double.finite?, Option.isSome, reduceCtorEq] at hf
    cases v <;> simp_all [Scalar.toJson, Json.ofDouble, Json.float, Json.same, Scalar.typeName?,
      Json.isOfType]
  | string t =>
    cases v <;> simp_all [Scalar.toJson, Json.same, Scalar.typeName?, Json.isOfType]

theorem meets_literal_type (ts : List String) (v : Json) :
    exact.meets "type" (Resolution.literalType ts) v = ts.any (v.isOfType exact.integral ·) := by
  unfold Resolution.literalType
  split
  · simp [meets_type]
  · simp [meets, keyword, Json.strs, Json.str?, Function.comp_def]

/-- Where alternatives may be lost, the value judged is not null. -/
theorem null_apart {α : Type} {nested : Bool} {isNull : α → Bool} {alternatives : List α}
    (h : keepsAll nested isNull alternatives = true) {v : Json} (hv : nested = true ∨ v ≠ .null) :
    (∀ a ∈ alternatives, isNull a = true → v.isNull = false) ∧
      (alternatives.filter (!isNull ·) = [] → v.isNull = false) := by
  rcases hv with rfl | hv
  · simp only [keepsAll, Bool.not_true, Bool.false_or, Bool.and_eq_true, Bool.not_eq_true',
      List.isEmpty_eq_false_iff, List.all_eq_true] at h
    obtain ⟨hne, hall⟩ := h
    constructor
    · intro a ha hn
      rw [hall a ha] at hn
      contradiction
    · intro hempty
      rw [List.filter_eq_self.mpr fun a ha => by simp [hall a ha]] at hempty
      contradiction
  · exact ⟨fun _ _ _ => Json.is_null_eq_false hv, fun _ => Json.is_null_eq_false hv⟩

theorem any_present {α : Type} {isNull p : α → Bool} {alternatives : List α} {v : Json}
    (hp : ∀ a, isNull a = true → p a = v.isNull)
    (h : ∀ a ∈ alternatives, isNull a = true → v.isNull = false) :
    alternatives.any p = (alternatives.filter (!isNull ·)).any p := by
  rw [List.any_filter, Bool.eq_iff_iff, List.any_eq_true, List.any_eq_true]
  apply exists_congr
  intro a
  apply and_congr_right
  intro ha
  cases hn : isNull a with
  | true => simp [hp a hn, h a ha hn]
  | false => simp

theorem literal_accepts {nested : Bool} {values : List Scalar}
    (hfinite : ∀ s ∈ values, s.isFinite = true)
    (hkeeps : keepsAll nested Scalar.isNull values = true) {v : Json}
    (hv : nested = true ∨ v ≠ .null) :
    values.any (·.toJson.same v) = exact.accepts (Resolution.literal values).schema v := by
  obtain ⟨hapart, hempty⟩ := null_apart hkeeps hv
  have hnull : ∀ s : Scalar, s.isNull = true → s.toJson.same v = v.isNull := by
    intro s hs
    cases s <;> simp only [Scalar.isNull, reduceCtorEq] at hs
    exact exact.equal_null v
  rw [any_present hnull hapart, Resolution.literal]
  by_cases hnone : values.filter (!Scalar.isNull ·) = []
  · rw [if_pos hnone, hnone, Resolution.schema, accepts_type, is_of_type_null, hempty hnone]
    rfl
  · rw [if_neg hnone, Resolution.schema, accepts_type_pair (by decide), meets_literal_type,
      meets_enum]
    simp only [List.any_map, Function.comp_def]
    rw [show exact.equal = Json.same from rfl, eq_comm, Bool.and_eq_right_iff_imp]
    intro hsome
    obtain ⟨s, hs, hsame⟩ := List.any_eq_true.mp hsome
    obtain ⟨hmem, hpresent⟩ := List.mem_filter.mp hs
    obtain ⟨t, ht, htype⟩ := same_is_of_type (hfinite s hmem) (by simpa using hpresent) hsame
    rw [List.any_eq_true]
    exact literal_types_mem hs ht htype

theorem is_null_admits {a : DeclaredType} (h : a.isNull = true) (v : Json) :
    a.admits v = v.isNull := by
  induction a using DeclaredType.induct with
  | primitive kind =>
    cases kind <;> simp only [DeclaredType.isNull, reduceCtorEq] at h
    rw [admits]
    cases v <;> rfl
  | annotated a items ih =>
    rw [admits]
    exact ih (by rwa [is_null_annotated] at h)
  | _ => simp [DeclaredType.isNull] at h

theorem union_members_accept {nested : Bool} {as : List DeclaredType}
    (hkeyed : ∀ a ∈ as, a.wellKeyed = true)
    (hkeeps : keepsAll nested DeclaredType.isNull as = true) {v : Json}
    (hv : nested = true ∨ v ≠ .null)
    (h : ∀ a ∈ as, a.admits v = exact.accepts a.resolve.schema v) :
    as.any (·.admits v) = exact.accepts (DeclaredType.union as).resolve.schema v := by
  obtain ⟨hapart, hempty⟩ := null_apart hkeeps hv
  rw [any_present (fun a hn => is_null_admits hn v) hapart, resolve, resolve_members_eq_map]
  by_cases hnone : as.filter (!DeclaredType.isNull ·) = []
  · have hfragment : (Resolution.union (as.any DeclaredType.isNull) []).schema =
        .obj [("type", .str "null")] := rfl
    rw [hnone, List.map_nil, hfragment, accepts_type, is_of_type_null, hempty hnone]
    rfl
  · have hresolved : ∀ m ∈ (as.filter (!DeclaredType.isNull ·)).map resolve,
        m.schema.wellKeyed = true := by
      intro m hm
      obtain ⟨a, ha, rfl⟩ := List.mem_map.mp hm
      exact resolve_well_keyed (hkeyed a (List.mem_of_mem_filter ha))
    rw [alternatives_accept (by simpa using hnone) hresolved, List.any_map, Bool.eq_iff_iff,
      List.any_eq_true, List.any_eq_true]
    apply exists_congr
    intro a
    apply and_congr_right
    intro ha
    rw [h a (List.mem_of_mem_filter ha)]
    rfl

theorem array_accepts {a : DeclaredType}
    (h : ∀ v, a.admits v = exact.accepts a.resolve.schema v) (v : Json) :
    (DeclaredType.array a).admits v =
      exact.accepts (DeclaredType.array a).resolve.schema v := by
  have hitems : ∀ fs v, exact.meets "items" (.obj fs) v =
      v.items?.all (·.all (exact.accepts (.obj fs))) := by
    intro fs v
    simp [meets, keyword]
  have hadmits : a.admits = exact.accepts (.obj a.resolve.fragment) := funext h
  rw [admits, resolve, Resolution.schema, Resolution.plain, accepts_type_pair (by decide),
    meets_type, Resolution.schema, hitems, hadmits]
  cases v <;> simp [Json.items?, Json.isOfType]

theorem admits_in_order_eq {as : List DeclaredType}
    (h : ∀ a ∈ as, ∀ v, a.admits v = exact.accepts a.resolve.schema v) (vs : List Json) :
    admitsInOrder as vs = positional (as.map fun a => exact.accepts a.resolve.schema) vs := by
  induction as generalizing vs with
  | nil => rfl
  | cons a rest ih =>
    cases vs with
    | nil => rfl
    | cons v vs =>
      rw [admitsInOrder, List.map_cons, positional, h a List.mem_cons_self v,
        ih (fun b hb => h b (List.mem_cons_of_mem a hb)) vs]

theorem tuple_accepts {as : List DeclaredType}
    (h : ∀ a ∈ as, ∀ v, a.admits v = exact.accepts a.resolve.schema v) (v : Json) :
    (DeclaredType.tuple as).admits v =
      exact.accepts (DeclaredType.tuple as).resolve.schema v := by
  have hitems : ∀ ss v, exact.meets "items" (.arr ss) v =
      v.items?.all (positional (ss.map exact.accepts) ·) := by
    intro ss v
    simp [meets, keyword, Json.items?]
  rw [admits, resolve, Resolution.schema, Resolution.plain, accepts_type_pair (by decide),
    meets_type, hitems, resolve_each_eq_map, List.map_map, funext (admits_in_order_eq h)]
  cases v <;> simp [Json.items?, Json.isOfType, Function.comp_def]

theorem enum_ref_accepts (names : List String) (v : Json) :
    (DeclaredType.enumRef names).admits v =
      exact.accepts (DeclaredType.enumRef names).resolve.schema v := by
  rw [admits, resolve, Resolution.schema, Resolution.plain, accepts_type_pair (by decide),
    meets_type, Json.strs, meets_enum, List.any_map]
  cases v with
  | str s => simp [Json.str?, Json.isOfType, exact, Json.same, Function.comp_def, @eq_comm _ s]
  | _ => simp [Json.str?, Json.isOfType]

theorem admits_eq_accepts {a : DeclaredType} {nested : Bool} (h : a.describable nested = true)
    {v : Json} (hv : nested = true ∨ v ≠ .null) :
    a.admits v = exact.accepts a.resolve.schema v := by
  induction a using DeclaredType.induct generalizing nested v with
  | primitive kind =>
    rw [admits, resolve]
    exact primitive_accepts kind v
  | array a ih =>
    rw [describable] at h
    exact array_accepts (fun w => ih h (.inl rfl)) v
  | objectMap a _ =>
    rw [admits, resolve, Resolution.schema, Resolution.plain, accepts_type]
    cases v <;> simp [Json.isObject, Json.fields?, Json.isOfType]
  | tuple as ih =>
    rw [describable, each_describable_iff] at h
    exact tuple_accepts (fun a ha w => ih a ha (h a ha) (.inl rfl)) v
  | union as ih =>
    rw [describable, Bool.and_eq_true, each_describable_iff] at h
    obtain ⟨hall, hkeeps⟩ := h
    rw [admits, admits_some_eq_any]
    exact union_members_accept (fun a ha => describable_well_keyed (hall a ha)) hkeeps hv
      fun a ha => ih a ha (hall a ha) hv
  | literal values =>
    rw [describable, Bool.and_eq_true, List.all_eq_true] at h
    obtain ⟨hfinite, hkeeps⟩ := h
    rw [admits, resolve]
    exact literal_accepts hfinite hkeeps hv
  | enumRef names => exact enum_ref_accepts names v
  | annotated a items ih =>
    rw [admits, resolve_annotated]
    exact ih h hv
  | schema value => simp [describable] at h
  | unknown =>
    rw [admits, resolve]
    exact (accepts_empty exact v).symm

/-- A type and its fragment describe the same values, apart from null. -/
theorem resolve_preserves_meaning {a : DeclaredType} (h : a.describable false = true) {v : Json}
    (hv : v ≠ .null) :
    a.admits v = true ↔ exact.accepts a.resolve.schema v = true := by
  rw [admits_eq_accepts h (.inr hv)]

/-- A union of a list that mixes integers with a float, an array of pairs, and null. -/
theorem pairs_or_amount_or_null :
    let a : DeclaredType := .union [.literal [.integer 1, .number (.finite (.zero false)), .null],
      .array (.tuple [.primitive .integer, .annotated (.enumRef ["x"]) []]), .null]
    let v : Json := .arr [.arr [.int 3, .str "x"], .arr [.int 4]]
    a.describable false = true ∧ v ≠ .null ∧
      (a.admits v = true ↔ exact.accepts a.resolve.schema v = true) :=
  ⟨by decide, by simp, resolve_preserves_meaning (by decide) (by simp)⟩

end Meaning

end ToolSpec
