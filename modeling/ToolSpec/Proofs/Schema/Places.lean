import ToolSpec.Proofs.Schema.DistinctWarnings

/-!
# Places as pointers

The segments of a place lead to the object that a warning is about. Its text has them as they are,
so as a pointer it leads there exactly if no segment has a slash or a tilde. Keywords and indices
have none, but the names of properties and definitions are free.
-/

set_option autoImplicit false

namespace ToolSpec

theorem Place.to_list_text (p : Place) : p.text.toList = '#'::Pointer.unescaped p := by
  simp [Place.text, Pointer.unescaped, List.flatMap_map]

namespace Strict

variable {s v : Json} {p : Place} {spot : List Nat}

theorem At.locate (h : At s p v) : ∃ spot, s.locate? p = some (spot, v) := by
  induction h with
  | here v => exact ⟨[], rfl⟩
  | item hi _ ih =>
    obtain ⟨spot, hspot⟩ := ih
    obtain ⟨i, hi⟩ := Json.locate_cons (Json.lookup_parts_arr hi) hspot
    exact ⟨_, hi⟩
  | named _ hvalues hname _ ih =>
    obtain ⟨spot, hspot⟩ := ih
    obtain ⟨i, hi⟩ := Json.locate_cons (v := .obj _) hname hspot
    obtain ⟨j, hj⟩ := Json.locate_cons (v := .obj _) hvalues hi
    exact ⟨_, hj⟩
  | under _ hv _ ih =>
    obtain ⟨spot, hspot⟩ := ih
    obtain ⟨i, hi⟩ := Json.locate_cons (v := .obj _) hv hspot
    exact ⟨_, hi⟩

theorem resolve_text_iff (h : s.locate? p = some (spot, v)) :
    s.resolve? p.text = some (spot, v) ↔ ∀ name ∈ p, '/' ∉ name.toList ∧ '~' ∉ name.toList := by
  rw [Json.resolve_iff h, Place.to_list_text, List.cons.injEq, eq_self, true_and,
    Pointer.unescaped_eq_write_iff]
  refine forall₂_congr fun name _ => ?_
  simp only [Pointer.isSpecial, Bool.or_eq_false_iff, decide_eq_false_iff_not, forall_and,
    List.forall_mem_ne']
  exact and_comm

theorem Reported.at_field {fs : Fields Json} {w : Warning} (h : Reported p fs w) :
    w.fields.lookup "at" = some (.str p.text) := by
  cases h <;> rfl

/-- Every warning about a schema is about one of its objects, which holds what is dropped and which
the segments of its place lead to. The text of the place, read as a pointer, leads to this very
object exactly if no segment has a slash or a tilde; with escapes it always would. -/
theorem text_leads_to_object_iff (hs : s.wellKeyed = true) {w : Warning} (hw : w ∈ warnings [] s) :
    ∃ place fs spot, At s place (.obj fs) ∧ Reported place fs w ∧
      s.locate? place = some (spot, .obj fs) ∧
      s.resolve? (String.ofList ('#'::Pointer.write place)) = some (spot, .obj fs) ∧
      ∃ text, w.fields.lookup "at" = some (.str text) ∧
        (s.resolve? text = some (spot, .obj fs) ↔
          ∀ name ∈ place, '/' ∉ name.toList ∧ '~' ∉ name.toList) := by
  obtain ⟨place, fs, hat, hr⟩ := (mem_warnings hs []).mp hw
  obtain ⟨spot, hspot⟩ := hat.locate
  refine ⟨place, fs, spot, hat, hr, hspot, ?_, place.text, hr.at_field, resolve_text_iff hspot⟩
  rw [Json.resolve_iff hspot, String.toList_ofList]

/-- An empty name and an index lead to the second branch of a union. -/
theorem second_branch_located :
    let branch : Json := .obj [("title", .null)]
    let s : Json := .obj [("$defs", .obj [("", .obj [("anyOf", .arr [.bool true, branch])])])]
    let w : Warning := .keywordDropped ["$defs", "", "anyOf", "1"] "title"
    s.wellKeyed = true ∧ w ∈ warnings [] s ∧ w.fields.lookup "at" = some (.str "#/$defs//anyOf/1") ∧
      s.resolve? "#/$defs//anyOf/1" = some ([0, 0, 0, 1], branch) := by
  intro branch s w
  have hs : s.wellKeyed = true := rfl
  have hitem : At (.arr [.bool true, branch]) ["1"] branch := @At.item _ 1 _ _ [] rfl (.here branch)
  have hat : At s ["$defs", "", "anyOf", "1"] branch :=
    .named (by decide) rfl rfl (.under (by decide) rfl hitem)
  have hw : w ∈ warnings [] s := (mem_warnings hs []).mpr ⟨_, _, hat, .keyword (by decide) rfl⟩
  have hfield : w.fields.lookup "at" = some (.str "#/$defs//anyOf/1") := rfl
  obtain ⟨place, fs, spot, -, hr, hspot, -, text, htext, hleads⟩ := text_leads_to_object_iff hs hw
  obtain rfl : text = "#/$defs//anyOf/1" := by simpa using htext.symm.trans hfield
  obtain rfl : ["$defs", "", "anyOf", "1"] = place := Option.some.inj hr.place_of
  rw [hleads.mpr (by decide), ← hspot]
  exact ⟨hs, hw, hfield, rfl⟩

/-- The text of the first place leads nowhere, and that of the second one leads to the first
object. -/
theorem slash_and_tilde_misread :
    let slashed : Json := .obj [("minimum", .int 1)]
    let tilded : Json := .obj [("minimum", .int 2)]
    let s : Json := .obj [("properties", .obj [("a/b", slashed), ("a~1b", tilded)])]
    let ws : List Warning := [.keywordDropped ["properties", "a/b"] "minimum",
      .keywordDropped ["properties", "a~1b"] "minimum"]
    s.wellKeyed = true ∧ warnings [] s = ws ∧
      ws.map (·.fields.lookup "at") =
        [some (.str "#/properties/a/b"), some (.str "#/properties/a~1b")] ∧
      s.locate? ["properties", "a/b"] = some ([0, 0], slashed) ∧
      s.resolve? "#/properties/a/b" = none ∧
      s.locate? ["properties", "a~1b"] = some ([0, 1], tilded) ∧
      s.resolve? "#/properties/a~1b" = some ([0, 0], slashed) := by
  exact ⟨rfl, rfl, rfl, rfl, rfl, rfl, rfl⟩

end Strict

end ToolSpec
