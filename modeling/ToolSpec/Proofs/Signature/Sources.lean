import ToolSpec.Proofs.DeclaredType.Bare
import ToolSpec.Proofs.Signature.Assembly

/-!
# Where the keywords of a property come from

A property is written by several sources, one after the other, and any of them may write any key.
What a key has in the end is from its highest source: the extra items, then what the declaration says
about that key, then the fragment of the type. Among the extra items and the keywords the last one
counts, among descriptions and classes of names the first one.
-/

set_option autoImplicit false

namespace ToolSpec

namespace Fields

variable {α : Type}

theorem lookup_insert_all (entries fs : Fields α) (key : String) :
    (insertAll entries fs).lookup key = (entries.reverse.lookup key).or (fs.lookup key) := by
  induction entries generalizing fs with
  | nil => rfl
  | cons e rest ih =>
    obtain ⟨k, v⟩ := e
    have hstep : insertAll ((k, v)::rest) fs = insertAll rest (insert k v fs) := rfl
    rw [hstep, ih, lookup_insert, List.reverse_cons, List.lookup_append, Option.or_assoc]
    congr 1
    by_cases h : key = k <;> simp [lookup_cons_ite, h]

theorem lookup_reverse {fs : Fields α} (hn : (keys fs).Nodup) (key : String) :
    fs.reverse.lookup key = fs.lookup key := by
  have hr : (keys fs.reverse).Nodup := by
    rw [keys, List.map_reverse]
    exact List.nodup_reverse.mpr hn
  apply Option.ext
  intro v
  rw [lookup_eq_some hr, List.mem_reverse, lookup_eq_some hn]

theorem lookup_entry (key k : String) (o : Option α) :
    (o.toList.map fun v => (key, v)).reverse.lookup k = if k = key then o else none := by
  cases o with
  | none => simp
  | some v => simp [lookup_cons_ite]

theorem lookup_entry_map {β : Type} (key k : String) (f : β → α) (o : Option β) :
    (o.toList.map fun v => (key, f v)).reverse.lookup k = if k = key then o.map f else none := by
  rw [← lookup_entry]
  cases o <;> rfl

end Fields

/-- Of ranked sources, what the highest one has that has anything. -/
def highest {α : Type} : List (Option α) → Option α
  | [] => none
  | source::rest => source.or (highest rest)

namespace Parameter

def last? {α : Type} (read : MetadataItem → Option α) (items : List MetadataItem) : Option α :=
  items.reverse.findSome? read

def lastSet? {α : Type} (keyword : Keywords → Option α) : List MetadataItem → Option α :=
  last? fun i => i.keywords?.bind keyword

def lastExtra? (key : String) : List MetadataItem → Option Json :=
  last? fun i => i.extra?.bind (·.lookup key)

def text (p : Parameter) (docs : Docstring) (placeholders : Bool) : String :=
  let items := p.type.metadata
  let found := highest [items.findSome? MetadataItem.docTag?, items.findSome? MetadataItem.plainText?,
    items.findSome? fun i => i.keywords?.bind Keywords.description, docs.param? p.name]
  let text := found.getD ""
  if text = "" ∧ placeholders then placeholder p.name else text

def constraint? (items : List MetadataItem) : String → Option Json
  | "minimum" => (lastSet? Keywords.minimum items).bind Bound.keyword?
  | "maximum" => (lastSet? Keywords.maximum items).bind Bound.keyword?
  | "exclusiveMinimum" => (lastSet? Keywords.exclusiveMinimum items).bind Bound.keyword?
  | "exclusiveMaximum" => (lastSet? Keywords.exclusiveMaximum items).bind Bound.keyword?
  | "minLength" => (lastSet? Keywords.minLength items).map fun n => .int n.toNat
  | "maxLength" => (lastSet? Keywords.maxLength items).map fun n => .int n.toNat
  | "pattern" => (lastSet? Keywords.pattern items).map .str
  | _ => none

def listed? (items : List MetadataItem) : Option Json :=
  highest [(items.findSome? MetadataItem.enumClass?).map Json.strs,
    (lastSet? Keywords.enum items).map fun vs => .arr ((vs.filter (!·.isNull)).map Scalar.toJson)]

/-- What the declaration says about a key, the extra items apart. -/
def declared? (p : Parameter) (docs : Docstring) (placeholders : Bool) : String → Option Json
  | "default" => p.default
  | "description" =>
    if p.text docs placeholders = "" then none else some (.str (p.text docs placeholders))
  | "enum" => listed? p.type.metadata
  | "type" => (lastSet? Keywords.type p.type.metadata).map fun t => .str t.text
  | key => constraint? p.type.metadata key

theorem last_concat {α : Type} (read : MetadataItem → Option α) (items : List MetadataItem)
    (i : MetadataItem) : last? read (items ++ [i]) = (read i).or (last? read items) := by
  rw [last?, List.reverse_append, List.reverse_singleton, List.singleton_append, List.findSome?_cons]
  cases read i <;> rfl

theorem keywords_last {α : Type} (keyword : Keywords → Option α)
    (hempty : keyword Keywords.empty = none)
    (hmerge : ∀ base later : Keywords,
      keyword (base.merge later) = (keyword later).or (keyword base))
    (items : List MetadataItem) : keyword (keywords items) = lastSet? keyword items := by
  rw [keywords, Keywords.mergeAll, Keywords.merge_last keyword hmerge, hempty, Option.or_none,
    List.filterMap_filterMap, List.getLast?_eq_head?_reverse, ← List.filterMap_reverse,
    List.head?_filterMap, lastSet?, last?]

theorem lookup_extras {items : List MetadataItem}
    (h : ∀ fields, .extra fields ∈ items → (Fields.keys fields).Nodup) (key : String) :
    (items.filterMap MetadataItem.extra?).flatten.reverse.lookup key = lastExtra? key items := by
  induction items using List.reverseRecOn with
  | nil => rfl
  | append_singleton items i ih =>
    have hrest := ih fun fields hmem => h fields (List.mem_append_left _ hmem)
    rw [lastExtra?, last_concat, ← lastExtra?, ← hrest, List.filterMap_append, List.flatten_append,
      List.reverse_append, List.lookup_append]
    congr 1
    cases i with
    | extra fields =>
      simpa [MetadataItem.extra?] using Fields.lookup_reverse (h fields (by simp)) key
    | _ => rfl

theorem lookup_constraints (items : List MetadataItem) (key : String) :
    (keywords items).constraints.reverse.lookup key = constraint? items key := by
  simp only [Keywords.constraints, List.reverse_append, List.lookup_append, Fields.lookup_entry,
    Fields.lookup_entry_map, keywords_last Keywords.minimum rfl fun _ _ => rfl,
    keywords_last Keywords.maximum rfl fun _ _ => rfl,
    keywords_last Keywords.exclusiveMinimum rfl fun _ _ => rfl,
    keywords_last Keywords.exclusiveMaximum rfl fun _ _ => rfl,
    keywords_last Keywords.minLength rfl fun _ _ => rfl,
    keywords_last Keywords.maxLength rfl fun _ _ => rfl,
    keywords_last Keywords.pattern rfl fun _ _ => rfl]
  -- Every key is that of one constraint at most.
  fun_cases constraint? items key <;> simp_all

theorem description_spec (p : Parameter) (docs : Docstring) (placeholders : Bool) :
    (p.spec docs placeholders).description = p.text docs placeholders := by
  simp only [spec, describe, description?, text, highest, Option.or_none]
  rfl

theorem allowed_or (a : DeclaredType) :
    ((allowed a).map .arr).or (a.resolve.fragment.lookup "enum") =
      (listed? a.metadata).or (a.resolve.fragment.lookup "enum") := by
  have hown : (((a.resolve.fragment.lookup "enum").bind Json.items?).map Json.arr).or
      (a.resolve.fragment.lookup "enum") = a.resolve.fragment.lookup "enum" := by
    cases a.resolve.fragment.lookup "enum" with
    | none => rfl
    | some v => cases v <;> rfl
  simp only [allowed, listed?, highest, keywords_last Keywords.enum rfl fun _ _ => rfl,
    Option.map_or, Option.map_map, Option.or_assoc, Option.or_none, hown]
  rfl

theorem lookup_overlay {p : Parameter}
    (h : ∀ fields, .extra fields ∈ p.type.metadata → (Fields.keys fields).Nodup)
    (docs : Docstring) (placeholders : Bool) (key : String) :
    (p.spec docs placeholders).overlay.reverse.lookup key =
      (lastExtra? key p.type.metadata).or
        (if key = "enum" then (allowed p.type).map .arr else p.declared? docs placeholders key) := by
  have htype : (p.spec docs placeholders).type = p.type := rfl
  have henum : (p.spec docs placeholders).enum = allowed p.type := rfl
  have hdefault : (p.spec docs placeholders).default = p.default := rfl
  have hdescription : ∀ text : String,
      (if text = "" then [] else [("description", Json.str text)] : Fields Json) =
        ((some text).filter (· ≠ "")).toList.map fun t => ("description", .str t) := by
    intro text
    by_cases ht : text = "" <;> simp [Option.filter, ht]
  simp only [ParameterSpec.overlay, ParameterSpec.keywords, htype, henum, hdefault,
    description_spec, hdescription, List.reverse_append, List.lookup_append, Fields.lookup_entry,
    Fields.lookup_entry_map, lookup_extras h, lookup_constraints,
    keywords_last Keywords.type rfl fun _ _ => rfl]
  congr 1
  fun_cases declared? p docs placeholders key <;> simp_all [constraint?]

theorem keywords_filter (items : List MetadataItem) :
    keywords (items.filter (·.extra?.isNone)) = keywords items := by
  rw [keywords, List.filterMap_filter, keywords]
  congr 2
  funext i
  cases i <;> rfl

theorem required_congr {p : Parameter} {b : DeclaredType} (hbare : b.bare = p.type.bare)
    (hitems : b.metadata.filter (·.extra?.isNone) = p.type.metadata.filter (·.extra?.isNone))
    (docs : Docstring) (placeholders : Bool) :
    ({ p with type := b }.spec docs placeholders).compile.required =
      (p.spec docs placeholders).compile.required := by
  have hkeywords : keywords b.metadata = keywords p.type.metadata := by
    rw [← keywords_filter, hitems, keywords_filter]
  have hresolve : b.resolve = p.type.resolve := DeclaredType.resolve_of_bare hbare
  show (keywords b.metadata).required.getD (!b.resolve.nullable && !p.default.isSome) = _
  rw [hkeywords, hresolve]
  rfl

theorem get_compile {p : Parameter}
    (h : ∀ fields, .extra fields ∈ p.type.metadata → (Fields.keys fields).Nodup)
    (docs : Docstring) (placeholders : Bool) (key : String) :
    (p.spec docs placeholders).compile.schema.get? key =
      ((lastExtra? key p.type.metadata).or (p.declared? docs placeholders key)).or
        (p.type.resolve.fragment.lookup key) := by
  have hvalue : (p.spec docs placeholders).compile.schema.get? key =
      ((p.spec docs placeholders).overlay.reverse.lookup key).or
        (p.type.resolve.fragment.lookup key) := by
    rw [← Fields.lookup_insert_all]
    rfl
  rw [hvalue, lookup_overlay h, Option.or_assoc, Option.or_assoc]
  congr 1
  split
  · rename_i hkey
    rw [hkey]
    exact allowed_or p.type
  · rfl

/-- The value of every key of a property is from its highest source: the last extra item that has
the key, what the declaration says about it, and the fragment of the type. Whether the property is
required is the same for every type that differs from the declared one in extra items and in the
layers below the top. -/
theorem value_sources {p : Parameter}
    (h : ∀ fields, .extra fields ∈ p.type.metadata → (Fields.keys fields).Nodup)
    (docs : Docstring) (placeholders : Bool) :
    (∀ key, (p.spec docs placeholders).compile.schema.get? key =
      highest [lastExtra? key p.type.metadata, p.declared? docs placeholders key,
        p.type.resolve.fragment.lookup key]) ∧
    ∀ b : DeclaredType, b.bare = p.type.bare →
      b.metadata.filter (·.extra?.isNone) = p.type.metadata.filter (·.extra?.isNone) →
      ({ p with type := b }.spec docs placeholders).compile.required =
        (p.spec docs placeholders).compile.required := by
  refine ⟨fun key => ?_, fun b hbare hitems => required_congr hbare hitems docs placeholders⟩
  rw [get_compile h, Option.or_assoc]
  simp only [highest, Option.or_none]

/-- A schema, keywords and extra items that all write the same keys; the last maximum is infinite. -/
theorem colliding_sources :
    let a : DeclaredType := .schema (.obj [("type", .str "integer"), ("description", .str "own"),
      ("enum", .arr [.int 1]), ("minimum", .int 0), ("maximum", .int 9)])
    let inner : List MetadataItem := [.field { Keywords.empty with
      minimum := some (.int 1), maximum := some (.int 8), description := some "field" },
      .extra [("minimum", .int 5), ("title", .str "inner")], .plainText "plain"]
    let outer : List MetadataItem := [.field { Keywords.empty with
      minimum := some (.int 2), maximum := some (.float (.infinite false)), type := some .number },
      .extra [("title", .str "outer")], .docTag "tag", .enumClass ["x"], .enumClass ["y"]]
    let p : Parameter := ⟨"p", .annotated (.annotated a inner) outer, some .null⟩
    let b : DeclaredType := .annotated a ((inner ++ outer).filter (·.extra?.isNone))
    let value := (p.spec .empty false).compile.schema.get?
    (∀ fields, .extra fields ∈ p.type.metadata → (Fields.keys fields).Nodup) ∧
      value "minimum" = some (.int 5) ∧ value "title" = some (.str "outer") ∧
      value "maximum" = some (.int 9) ∧ value "description" = some (.str "tag") ∧
      value "enum" = some (.strs ["x"]) ∧ value "type" = some (.str "number") ∧
      value "default" = some .null ∧ value "pattern" = none ∧ b.bare = p.type.bare ∧
      b.metadata.filter (·.extra?.isNone) = p.type.metadata.filter (·.extra?.isNone) ∧
      ({ p with type := b }.spec .empty false).compile.required =
        (p.spec .empty false).compile.required := by
  intro a inner outer p b value
  have hdistinct : ∀ fields, .extra fields ∈ p.type.metadata → (Fields.keys fields).Nodup := by
    intro fields h
    simp only [p, a, inner, outer, DeclaredType.metadata, List.mem_append, List.mem_cons,
      MetadataItem.extra.injEq, reduceCtorEq, List.not_mem_nil, or_false, false_or] at h
    rcases h with rfl | rfl <;> decide
  obtain ⟨hvalue, hrequired⟩ := value_sources hdistinct .empty false
  have hbare : b.bare = p.type.bare := rfl
  refine ⟨hdistinct, hvalue _, hvalue _, hvalue _, hvalue _, hvalue _, hvalue _, hvalue _, hvalue _,
    hbare, rfl, hrequired b hbare rfl⟩

end Parameter

end ToolSpec
