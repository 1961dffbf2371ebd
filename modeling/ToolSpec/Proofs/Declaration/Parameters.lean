import Mathlib.Data.List.Forall2
import ToolSpec.Declaration.Basic

/-!
# Parameters of a declaration

Each parameter of a declaration is read and built by itself, so that a signature has one parameter
for each declared one, in their order. Another declaration whose parameters meet the same faults has
the same faults.
-/

set_option autoImplicit false

namespace ToolSpec.Declaration

def parameter (c : Catalogue) (q : ParameterDecl) : Except DeclarationError Parameter :=
  (readParameter q).bind (buildParameter c)

theorem parameter_eq_ok {c : Catalogue} {q : ParameterDecl} {p : Parameter} :
    parameter c q = .ok p ↔ ∃ a, readParameter q = .ok a ∧ buildParameter c a = .ok p := by
  rw [parameter]
  cases readParameter q with
  | error e => simp [Except.bind]
  | ok a => simp [Except.bind]

section separate

variable {α β : Type}

/-- Both fail in the same way, or both have results that are related. -/
inductive Alike (r : α → β → Prop) :
    Except DeclarationError α → Except DeclarationError β → Prop
  | error (e : DeclarationError) : Alike r (.error e) (.error e)
  | ok {a : α} {b : β} : r a b → Alike r (.ok a) (.ok b)

theorem Alike.refl {r : α → α → Prop} (hr : ∀ a, r a a) : ∀ x, Alike r x x
  | .error e => .error e
  | .ok a => .ok (hr a)

theorem separate_alike {r : α → β → Prop} {xs : List (Except DeclarationError α)}
    {ys : List (Except DeclarationError β)} (h : List.Forall₂ (Alike r) xs ys) :
    (separate xs).2 = (separate ys).2 ∧ List.Forall₂ r (separate xs).1 (separate ys).1 := by
  induction h with
  | nil => exact ⟨rfl, .nil⟩
  | cons hhead _ ih =>
    cases hhead with
    | error e => exact ⟨congrArg (e::·) ih.1, ih.2⟩
    | ok hr => exact ⟨ih.1, .cons hr ih.2⟩

theorem separate_results {xs : List (Except DeclarationError α)} (h : (separate xs).2 = []) :
    List.Forall₂ (fun x a => x = .ok a) xs (separate xs).1 := by
  induction xs with
  | nil => exact .nil
  | cons x xs ih =>
    cases x with
    | error e => simp [separate] at h
    | ok a => exact .cons rfl (ih h)

end separate

theorem errors_congr {c : Catalogue} {d : Declaration} {qs : List ParameterDecl}
    {r : ParsedParameter → ParsedParameter → Prop}
    (hmethod : qs.any (·.pattern.isReceiver) = d.parameters.any (·.pattern.isReceiver))
    (hread : List.Forall₂ (fun q q' => Alike r (readParameter q) (readParameter q')) d.parameters qs)
    (hbuild : ∀ a b, r a b → Alike (fun _ _ => True) (buildParameter c a) (buildParameter c b)) :
    { d with parameters := qs }.errors c = d.errors c := by
  have hparsed := separate_alike
    (List.forall₂_map_left_iff.mpr (List.forall₂_map_right_iff.mpr hread))
  have hbuilt := separate_alike
    (List.forall₂_map_left_iff.mpr (List.forall₂_map_right_iff.mpr (hparsed.2.imp hbuild)))
  rw [errors, errors, isMethod, isMethod, parsed, parsed, built, built, parsed, parsed, hmethod,
    ← hparsed.1, ← hbuilt.1]

theorem signature_eq_ok {c : Catalogue} {d : Declaration} {s : Signature} :
    d.signature c = .ok s ↔ d.errors c = [] ∧ d.signatureOf (d.built c).1 = s := by
  rw [signature]
  cases d.errors c <;> simp

theorem parameter_of_read {c : Catalogue} {qs : List ParameterDecl} {as : List ParsedParameter}
    {ps : List Parameter} (hread : List.Forall₂ (fun q a => readParameter q = .ok a) qs as)
    (hbuild : List.Forall₂ (fun a p => buildParameter c a = .ok p) as ps) :
    List.Forall₂ (fun q p => parameter c q = .ok p) qs ps := by
  induction hread generalizing ps with
  | nil =>
    cases hbuild
    exact .nil
  | cons hq _ ih =>
    cases hbuild with
    | cons hp hps => exact .cons (parameter_eq_ok.mpr ⟨_, hq, hp⟩) (ih hps)

theorem parameters_of_signature {c : Catalogue} {d : Declaration} {s : Signature}
    (h : d.signature c = .ok s) :
    List.Forall₂ (fun q p => parameter c q = .ok p) d.parameters s.parameters := by
  obtain ⟨hnone, rfl⟩ := signature_eq_ok.mp h
  rw [errors] at hnone
  split at hnone
  · simp at hnone
  · obtain ⟨hparsed, hbuilt⟩ := List.append_eq_nil_iff.mp hnone
    exact parameter_of_read (List.forall₂_map_left_iff.mp (separate_results hparsed))
      (List.forall₂_map_left_iff.mp (separate_results hbuilt))

theorem parameter_of_signature {c : Catalogue} {d : Declaration} {s : Signature}
    (h : d.signature c = .ok s) {i : Nat} {q : ParameterDecl} (hq : d.parameters[i]? = some q) :
    ∃ p, s.parameters[i]? = some p ∧ parameter c q = .ok p := by
  have hall := parameters_of_signature h
  obtain ⟨hi, rfl⟩ := List.getElem?_eq_some_iff.mp hq
  have hi' : i < s.parameters.length := hall.length_eq ▸ hi
  exact ⟨s.parameters[i], List.getElem?_eq_getElem hi', hall.get hi hi'⟩

end ToolSpec.Declaration
