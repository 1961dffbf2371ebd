import Mathlib.Data.List.Forall2
import ToolSpec.Proofs.Codec.ReadBack
import ToolSpec.Proofs.DeclaredType.Parts
import ToolSpec.Proofs.Signature.Sources

/-!
# What a written type says

The items and the literals of a type, found in the JSON that it is read from: the items in the layers
around it from the inside out, the keywords that they hold, and the literals where a part of the type
is written. What is read has the same items, in the same order, and the same literals as parts.
-/

set_option autoImplicit false

namespace ToolSpec

namespace Codec

variable {α β : Type} {read : Json → Option α}

theorem mapm_eq_some_iff {f : α → Option β} {xs : List α} {ys : List β} :
    xs.mapM f = some ys ↔ List.Forall₂ (fun x y => f x = some y) xs ys := by
  induction xs generalizing ys with
  | nil => cases ys <;> simp
  | cons x xs ih =>
    rw [List.mapM_cons]
    cases ys with
    | nil => simp [Option.bind_eq_some_iff]
    | cons y ys => simp [Option.bind_eq_some_iff, ← ih]

def given? (key : String) (fs : Fields Json) : Option Json := (fs.lookup key).filter (!·.isNull)

theorem optional_eq_some {key : String} {fs : Fields Json} {x : Option α} :
    optional key read fs = some x ↔ (given? key fs).map read = x.map some := by
  rw [optional, given?]
  cases fs.lookup key with
  | none => cases x <;> simp
  | some v =>
    cases v with
    | null => cases x <;> simp [Json.isNull, Option.filter]
    | _ =>
      simp only [Json.isNull, Option.filter, Bool.not_false, if_true, Option.map_some]
      cases read _ <;> cases x <;> simp

end Codec

open Codec

namespace Json

def kind? (v : Json) : Option String := (v.get? "kind").bind str?

def givenKeyword? (key : String) (i : Json) : Option Json :=
  if i.kind? = some "field" then ((i.get? "value").bind fields?).bind (given? key) else none

def lastKeyword? (key : String) (items : List Json) : Option Json :=
  items.reverse.findSome? (givenKeyword? key)

theorem obj_of_kind {v : Json} {kind : String} (h : v.kind? = some kind) :
    ∃ fs, v = .obj fs ∧ needed "kind" str? fs = some kind := by
  cases v with
  | obj fs => exact ⟨fs, rfl, h⟩
  | _ => cases h

/-- The items in the layers around a written type, from the innermost layer outwards. -/
inductive LayerItems : Json → List Json → Prop
  | leaf {v : Json} : v.kind? ≠ some "annotated" → LayerItems v []
  | layer {v w u : Json} {own items : List Json} : v.kind? = some "annotated" →
      v.get? "of" = some w → w.get? "inner" = some u → w.get? "metadata" = some (.arr items) →
      LayerItems u own → LayerItems v (own ++ items)

/-- The values of a literal that a written type is, or that is written for its elements, one of its
members, or an alternative, at any depth. -/
inductive LiteralAt : Json → List Json → Prop
  | here {v : Json} {values : List Json} : v.kind? = some "literal" →
      v.get? "of" = some (.arr values) → LiteralAt v values
  | layer {v w u : Json} {values : List Json} : v.kind? = some "annotated" →
      v.get? "of" = some w → w.get? "inner" = some u → LiteralAt u values → LiteralAt v values
  | element {v u : Json} {values : List Json} : v.kind? = some "array" → v.get? "of" = some u →
      LiteralAt u values → LiteralAt v values
  | member {v u : Json} {us values : List Json} :
      v.kind? = some "tuple" ∨ v.kind? = some "union" → v.get? "of" = some (.arr us) → u ∈ us →
      LiteralAt u values → LiteralAt v values

def annotation? (v : Json) (i : Nat) : Option Json :=
  ((v.get? "parameters").bind items?).bind fun ps => ps[i]?.bind (·.get? "annotation")

end Json

theorem MetadataItem.of_json_keywords {i : Json} {m : MetadataItem} (h : ofJson? i = some m) :
    if i.kind? = some "field" then
      ∃ v k, i.get? "value" = some v ∧ Keywords.ofJson? v = some k ∧ m = .field k
    else m.keywords? = none := by
  cases i with
  | obj fs =>
    obtain ⟨kind, hkind, hread⟩ := Option.bind_eq_some_iff.mp h
    have hkind' : (Json.obj fs).kind? = some kind := hkind
    rw [hkind']
    unfold read? at hread
    split at hread
    case h_4 =>
      obtain ⟨k, hk, rfl⟩ := Option.map_eq_some_iff.mp hread
      obtain ⟨v, hv, hk⟩ := Option.bind_eq_some_iff.mp hk
      rw [if_pos rfl]
      exact ⟨v, k, hv, hk, rfl⟩
    case h_6 =>
      split at hread
      · obtain rfl := Option.some.inj hread
        rw [if_neg (by simp)]
        rfl
      · cases hread
    case h_7 => cases hread
    all_goals
      obtain ⟨_, -, rfl⟩ := Option.map_eq_some_iff.mp hread
      rw [if_neg (by simp)]
      rfl
  | _ => simp [ofJson?] at h

section

variable {α : Type} {key : String} {read : Json → Option α} {keyword : Keywords → Option α}
  (hread : ∀ fs k, Keywords.ofJson? (.obj fs) = some k → optional key read fs = some (keyword k))
include hread

theorem MetadataItem.read_keyword {i : Json} {m : MetadataItem} (h : ofJson? i = some m) :
    (i.givenKeyword? key).map read = (m.keywords?.bind keyword).map some := by
  have hitem := of_json_keywords h
  rw [Json.givenKeyword?]
  split at hitem
  · rename_i hfield
    obtain ⟨v, k, hv, hk, rfl⟩ := hitem
    cases v with
    | obj fs =>
      rw [if_pos hfield, hv]
      exact optional_eq_some.mp (hread fs k hk)
    | _ => simp [Keywords.ofJson?] at hk
  · rename_i hfield
    rw [if_neg hfield, hitem]
    rfl

theorem find_some_keyword {is : List Json} {ms : List MetadataItem}
    (h : List.Forall₂ (fun i m => MetadataItem.ofJson? i = some m) is ms) :
    (is.findSome? (Json.givenKeyword? key)).map read =
      (ms.findSome? fun m => m.keywords?.bind keyword).map some := by
  induction h with
  | nil => rfl
  | @cons i m is ms hitem _ ih =>
    have hkeyword := MetadataItem.read_keyword hread hitem
    rw [List.findSome?_cons, List.findSome?_cons]
    cases hi : i.givenKeyword? key <;> cases hm : m.keywords?.bind keyword <;> simp_all

theorem last_keyword_read {items : List Json} {ms : List MetadataItem}
    (h : List.Forall₂ (fun i m => MetadataItem.ofJson? i = some m) items ms) :
    (Json.lastKeyword? key items).map read = (Parameter.lastSet? keyword ms).map some :=
  find_some_keyword hread (List.rel_reverse h)

end

namespace DeclaredType

theorem of_layer_eq (fs : Fields Json) :
    ofLayer? fs = (fs.lookup "of").bind fun w => w.fields?.bind fun gs =>
      (needed "inner" ofJson? gs).bind fun inner =>
        (needed "metadata" (list MetadataItem.ofJson?) gs).map (.annotated inner) := by
  induction fs with
  | nil => rfl
  | cons e rest ih =>
    obtain ⟨k, v⟩ := e
    rw [Fields.lookup_cons_ite, ofLayer?.eq_def]
    dsimp only
    split
    · cases v with
      | obj gs =>
        simp only [of_field_eq_needed, Json.fields?, Option.bind_some]
        cases needed "inner" ofJson? gs <;>
          cases needed "metadata" (list MetadataItem.ofJson?) gs <;> rfl
      | _ => rfl
    · exact ih

theorem of_list_field_eq (fs : Fields Json) :
    ofListField? fs = ((fs.lookup "of").bind Json.items?).bind (·.mapM ofJson?) := by
  induction fs with
  | nil => rfl
  | cons e rest ih =>
    obtain ⟨k, v⟩ := e
    rw [Fields.lookup_cons_ite, ofListField?.eq_def]
    dsimp only
    split
    · cases v with
      | arr vs => exact of_each_eq_mapm vs
      | _ => rfl
    · exact ih

theorem of_json_layer {v : Json} {a : DeclaredType} (h : ofJson? v = some a)
    (hkind : v.kind? = some "annotated") :
    ∃ w u items inner ms, v.get? "of" = some w ∧ w.get? "inner" = some u ∧
      w.get? "metadata" = some (.arr items) ∧ ofJson? u = some inner ∧
      List.Forall₂ (fun i m => MetadataItem.ofJson? i = some m) items ms ∧
      a = .annotated inner ms := by
  obtain ⟨fs, rfl, hneeded⟩ := Json.obj_of_kind hkind
  rw [ofJson?, hneeded] at h
  change ofLayer? fs = some a at h
  rw [of_layer_eq] at h
  obtain ⟨w, hof, h⟩ := Option.bind_eq_some_iff.mp h
  obtain ⟨gs, hgs, h⟩ := Option.bind_eq_some_iff.mp h
  obtain ⟨inner, hinner, h⟩ := Option.bind_eq_some_iff.mp h
  obtain ⟨ms, hms, rfl⟩ := Option.map_eq_some_iff.mp h
  obtain ⟨u, hu, hread⟩ := Option.bind_eq_some_iff.mp hinner
  obtain ⟨list, hlist, hms⟩ := Option.bind_eq_some_iff.mp hms
  cases list with
  | arr items =>
    have hget (key : String) : w.get? key = gs.lookup key := by rw [Json.get?, hgs]; rfl
    exact ⟨w, u, items, inner, ms, hof, (hget _).trans hu, (hget _).trans hlist, hread,
      mapm_eq_some_iff.mp hms, rfl⟩
  | _ => cases hms

theorem of_json_literal {v : Json} {vs : List Json} {a : DeclaredType} (h : ofJson? v = some a)
    (hkind : v.kind? = some "literal") (hof : v.get? "of" = some (.arr vs)) :
    ∃ values, List.Forall₂ (fun v s => Scalar.ofJson? v = some s) vs values ∧
      a = .literal values := by
  obtain ⟨fs, rfl, hneeded⟩ := Json.obj_of_kind hkind
  rw [ofJson?, hneeded] at h
  change (needed "of" (list Scalar.ofJson?) fs).map .literal = some a at h
  rw [needed_of_lookup hof] at h
  obtain ⟨values, hvalues, rfl⟩ := Option.map_eq_some_iff.mp h
  exact ⟨values, mapm_eq_some_iff.mp hvalues, rfl⟩

theorem of_json_array {v u : Json} {a : DeclaredType} (h : ofJson? v = some a)
    (hkind : v.kind? = some "array") (hof : v.get? "of" = some u) :
    ∃ element, ofJson? u = some element ∧ a = .array element := by
  obtain ⟨fs, rfl, hneeded⟩ := Json.obj_of_kind hkind
  rw [ofJson?, hneeded] at h
  change (ofField? "of" fs).map .array = some a at h
  rw [of_field_eq_needed, needed_of_lookup hof] at h
  obtain ⟨element, helement, rfl⟩ := Option.map_eq_some_iff.mp h
  exact ⟨element, helement, rfl⟩

theorem of_json_members {v : Json} {us : List Json} {a : DeclaredType} (h : ofJson? v = some a)
    (hkind : v.kind? = some "tuple" ∨ v.kind? = some "union") (hof : v.get? "of" = some (.arr us)) :
    ∃ as, List.Forall₂ (fun u a => ofJson? u = some a) us as ∧ (a = .tuple as ∨ a = .union as) := by
  have hread : ∃ fs, v = .obj fs ∧ ∃ make : List DeclaredType → DeclaredType,
      (make = .tuple ∨ make = .union) ∧ (ofListField? fs).map make = some a := by
    rcases hkind with hkind | hkind
    · obtain ⟨fs, rfl, hneeded⟩ := Json.obj_of_kind hkind
      rw [ofJson?, hneeded] at h
      exact ⟨fs, rfl, .tuple, .inl rfl, h⟩
    · obtain ⟨fs, rfl, hneeded⟩ := Json.obj_of_kind hkind
      rw [ofJson?, hneeded] at h
      exact ⟨fs, rfl, .union, .inr rfl, h⟩
  obtain ⟨fs, rfl, make, hmake, h⟩ := hread
  have hlookup : fs.lookup "of" = some (.arr us) := hof
  rw [of_list_field_eq, hlookup] at h
  obtain ⟨as, has, rfl⟩ := Option.map_eq_some_iff.mp h
  exact ⟨as, mapm_eq_some_iff.mp has, hmake.imp (congrFun · as) (congrFun · as)⟩

theorem metadata_of_kind {v : Json} {a : DeclaredType} (h : ofJson? v = some a)
    (hkind : v.kind? ≠ some "annotated") : a.metadata = [] := by
  cases v with
  | obj fs =>
    have hkind' : needed "kind" Json.str? fs ≠ some "annotated" := hkind
    rw [ofJson?] at h
    split at h
    case h_8 =>
      rename_i hannotated
      exact absurd hannotated hkind'
    case h_10 =>
      split at h
      · obtain rfl := Option.some.inj h
        rfl
      · cases h
    case h_11 => cases h
    all_goals
      obtain ⟨_, -, rfl⟩ := Option.map_eq_some_iff.mp h
      rfl
  | _ => simp [ofJson?] at h

theorem exists_layer_items {v : Json} {a : DeclaredType} (h : ofJson? v = some a) :
    ∃ items, v.LayerItems items := by
  induction a using induct generalizing v with
  | annotated a ms ih =>
    by_cases hkind : v.kind? = some "annotated"
    · obtain ⟨w, u, items, inner, ms', hof, hinner, hmetadata, hread, -, heq⟩ :=
        of_json_layer h hkind
      obtain ⟨rfl, rfl⟩ := annotated.inj heq
      obtain ⟨own, hown⟩ := ih hread
      exact ⟨own ++ items, .layer hkind hof hinner hmetadata hown⟩
    · exact ⟨[], .leaf hkind⟩
  | _ =>
    refine ⟨[], .leaf fun hkind => ?_⟩
    obtain ⟨_, _, _, _, _, -, -, -, -, -, heq⟩ := of_json_layer h hkind
    cases heq

theorem layer_items_read {v : Json} {items : List Json} {a : DeclaredType}
    (hitems : v.LayerItems items) (h : ofJson? v = some a) :
    List.Forall₂ (fun i m => MetadataItem.ofJson? i = some m) items a.metadata := by
  induction hitems generalizing a with
  | leaf hkind =>
    rw [metadata_of_kind h hkind]
    exact .nil
  | layer hkind hof hinner hmetadata _ ih =>
    obtain ⟨w, u, items, inner, ms, hw, hu, hlist, hread, hms, rfl⟩ := of_json_layer h hkind
    obtain rfl := Option.some.inj (hof.symm.trans hw)
    obtain rfl := Option.some.inj (hinner.symm.trans hu)
    obtain rfl := Json.arr.inj (Option.some.inj (hmetadata.symm.trans hlist))
    exact List.rel_append (ih hread) hms

theorem Part.is_null {a b : DeclaredType} (h : a.Part b) (hb : b.isNull = false) :
    a.isNull = false := by
  induction h with
  | here => exact hb
  | layer _ _ ih => exact ih hb
  | _ => rfl

theorem literal_at_read {v : Json} {vs : List Json} {a : DeclaredType} (hvalues : v.LiteralAt vs)
    (h : ofJson? v = some a) :
    ∃ values, List.Forall₂ (fun v s => Scalar.ofJson? v = some s) vs values ∧
      a.Part (.literal values) := by
  induction hvalues generalizing a with
  | here hkind hof =>
    obtain ⟨values, hread, rfl⟩ := of_json_literal h hkind hof
    exact ⟨values, hread, .here _⟩
  | layer hkind hof hinner _ ih =>
    obtain ⟨w, u, items, inner, ms, hw, hu, -, hread, -, rfl⟩ := of_json_layer h hkind
    obtain rfl := Option.some.inj (hof.symm.trans hw)
    obtain rfl := Option.some.inj (hinner.symm.trans hu)
    obtain ⟨values, hvalues, hpart⟩ := ih hread
    exact ⟨values, hvalues, .layer ms hpart⟩
  | element hkind hof _ ih =>
    obtain ⟨element, hread, rfl⟩ := of_json_array h hkind hof
    obtain ⟨values, hvalues, hpart⟩ := ih hread
    exact ⟨values, hvalues, .element hpart⟩
  | member hkind hof hmem _ ih =>
    obtain ⟨as, hread, hmake⟩ := of_json_members h hkind hof
    obtain ⟨i, hi, rfl⟩ := List.getElem_of_mem hmem
    have hi' : i < as.length := hread.length_eq ▸ hi
    obtain ⟨values, hvalues, hpart⟩ := ih (hread.get hi hi')
    have hmember : as[i] ∈ as := List.getElem_mem hi'
    rcases hmake with rfl | rfl
    · exact ⟨values, hvalues, .member hmember hpart⟩
    · exact ⟨values, hvalues, .alternative hmember (hpart.is_null rfl) hpart⟩

end DeclaredType

theorem Parameter.of_json_type {q written : Json} {p : Parameter} (h : ofJson? q = some p)
    (hwritten : q.get? "annotation" = some written) :
    DeclaredType.ofJson? written = some p.type := by
  cases q with
  | obj fs =>
    rw [ofJson?, with_default_of_lookup hwritten] at h
    obtain ⟨name, -, h⟩ := Option.bind_eq_some_iff.mp h
    obtain ⟨type, htype, h⟩ := Option.bind_eq_some_iff.mp h
    obtain rfl := Option.some.inj h
    exact htype
  | _ => cases hwritten

theorem Signature.annotation_read {v written : Json} {s : Signature} {i : Nat}
    (h : ofJson? v = some s) (hwritten : v.annotation? i = some written) :
    ∃ p, s.parameters[i]? = some p ∧ DeclaredType.ofJson? written = some p.type := by
  obtain ⟨ps, hps, hi⟩ := Option.bind_eq_some_iff.mp hwritten
  obtain ⟨list, hlist, hps⟩ := Option.bind_eq_some_iff.mp hps
  obtain ⟨q, hq, htype⟩ := Option.bind_eq_some_iff.mp hi
  cases v with
  | obj fs =>
    cases list with
    | arr qs =>
      obtain rfl := Option.some.inj hps
      rw [ofJson?, with_default_of_lookup hlist] at h
      obtain ⟨name, -, h⟩ := Option.bind_eq_some_iff.mp h
      obtain ⟨docstring, -, h⟩ := Option.bind_eq_some_iff.mp h
      obtain ⟨parameters, hread, h⟩ := Option.bind_eq_some_iff.mp h
      obtain rfl := Option.some.inj h
      have hread := mapm_eq_some_iff.mp hread
      obtain ⟨hlt, rfl⟩ := List.getElem?_eq_some_iff.mp hq
      have hlt' : i < parameters.length := hread.length_eq ▸ hlt
      exact ⟨parameters[i], List.getElem?_eq_getElem hlt',
        Parameter.of_json_type (hread.get hlt hlt') htype⟩
    | _ => cases hps
  | _ => cases hlist

end ToolSpec
