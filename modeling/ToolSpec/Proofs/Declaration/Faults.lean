import ToolSpec.Proofs.Declaration.Attributes

/-!
# Faults

A parameter has at most one fault to report: the first that reading it meets, or, if it can be read,
the first among its keyword arguments. A declaration reports the faults of all its parameters, those
of the first kind before those of the second, and gives nothing else as soon as there is one.
-/

set_option autoImplicit false

namespace ToolSpec

/-- An attribute that cannot be read, or whose arguments have a path for a key. -/
def Attribute.Unreadable : Attribute → Prop
  | .malformed _ => True
  | .field args => ∃ arg ∈ args, arg.isPath = true
  | _ => False

namespace FieldArg

/-- A key that is not known, or a type that is none. -/
def Unusable (arg : FieldArg) : Prop :=
  arg.key ∉ typeKeys ++ valueKeys ∨
    arg.key ∈ typeKeys ∧ ∀ s ∈ typeWords, arg.value ≠ .value (.str s)

theorem type_fault_is_some {v : Literal} :
    (typeFault? v).isSome ↔ ∀ s ∈ typeWords, v ≠ .value (.str s) := by
  unfold typeFault?
  split
  · rename_i s
    by_cases hs : s ∈ typeWords
    · simp [hs]
    · simp only [if_neg hs, Option.isSome_some, true_iff]
      rintro t ht ⟨⟩
      exact hs ht
  · rename_i hno
    simp only [Option.isSome_some, true_iff]
    rintro s - rfl
    exact hno s rfl

theorem fault_is_some {arg : FieldArg} : arg.fault?.isSome ↔ arg.Unusable := by
  rw [fault?, Unusable, List.mem_append, not_or]
  by_cases htype : arg.key ∈ typeKeys
  · rw [if_pos htype, type_fault_is_some]
    simp [htype]
  · by_cases hvalue : arg.key ∈ valueKeys <;> simp [htype, hvalue]

end FieldArg

theorem Attribute.fault_is_some {a : Attribute} : a.fault?.isSome ↔ a.Unreadable := by
  cases a with
  | field args => simp [Attribute.fault?, Attribute.Unreadable]
  | _ => simp [Attribute.fault?, Attribute.Unreadable]

namespace ParameterDecl

/-- A pattern that names nothing, an attribute that cannot be read, or an unusable argument. -/
def Faulty (q : ParameterDecl) : Prop :=
  (∀ id, q.pattern ≠ .binding id) ∨ (∃ a ∈ q.attributes, a.Unreadable) ∨
    ∃ arg ∈ q.arguments, arg.Unusable

def fault? (q : ParameterDecl) : Option DeclarationError := q.readingFault?.or q.keywordFault?

theorem reading_fault_is_some {q : ParameterDecl} :
    q.readingFault?.isSome ↔
      (∀ id, q.pattern ≠ .binding id) ∨ ∃ a ∈ q.attributes, a.Unreadable := by
  unfold readingFault?
  split
  · rename_i id hid
    simp [hid, ← Attribute.fault_is_some, List.findSome?_isSome_iff]
  · simp [*]
  · simp [*]

theorem fault_is_some {q : ParameterDecl} : q.fault?.isSome ↔ q.Faulty := by
  rw [fault?, Faulty, ← or_assoc, ← reading_fault_is_some, Option.isSome_or, Bool.or_eq_true]
  refine or_congr_right' fun hread => ?_
  rw [keywordFault?, if_pos (by simpa using hread), List.findSome?_isSome_iff]
  simp [FieldArg.fault_is_some]

end ParameterDecl

namespace Declaration

def faultOf {α : Type} : Except DeclarationError α → Option DeclarationError
  | .ok _ => none
  | .error e => some e

theorem fault_of_fault_or {α : Type} (fault? : Option DeclarationError) (a : α) :
    faultOf (faultOr fault? a) = fault? := by
  cases fault? <;> rfl

theorem separate_fst {α : Type} (xs : List (Except DeclarationError α)) :
    (separate xs).1 = xs.filterMap Except.toOption := by
  induction xs with
  | nil => rfl
  | cons x xs ih => cases x <;> simp [separate, ih, Except.toOption, List.filterMap_cons]

theorem separate_snd {α : Type} (xs : List (Except DeclarationError α)) :
    (separate xs).2 = xs.filterMap faultOf := by
  induction xs with
  | nil => rfl
  | cons x xs ih => cases x <;> simp [separate, ih, faultOf, List.filterMap_cons]

theorem fault_of_read_parameter (q : ParameterDecl) :
    faultOf (readParameter q) = q.readingFault? := by
  cases h : readParameter q with
  | ok a => exact (ParameterDecl.read_parameter_eq_ok.mp h).1.symm
  | error e => exact (ParameterDecl.read_parameter_eq_error.mp h).symm

theorem fault_of_build_parameter (c : Catalogue) (q : ParameterDecl) :
    ((readParameter q).toOption.bind fun a => faultOf (buildParameter c a)) = q.keywordFault? := by
  cases h : readParameter q with
  | ok a =>
    obtain ⟨hnone, id, -, rfl⟩ := ParameterDecl.read_parameter_eq_ok.mp h
    rw [ParameterDecl.keywordFault?, if_pos hnone, ← q.reading_arguments id]
    exact (congrArg faultOf (build_parameter_eq c _)).trans (fault_of_fault_or _ _)
  | error e =>
    have hread : q.readingFault? ≠ none := by simp [ParameterDecl.read_parameter_eq_error.mp h]
    rw [ParameterDecl.keywordFault?, if_neg hread]
    rfl

variable (c : Catalogue) {d : Declaration}

theorem parsed_faults (d : Declaration) :
    d.parsed.2 = d.parameters.filterMap ParameterDecl.readingFault? := by
  rw [parsed, separate_snd, List.filterMap_map]
  exact List.filterMap_congr fun q _ => fault_of_read_parameter q

theorem built_faults (c : Catalogue) (d : Declaration) :
    (d.built c).2 = d.parameters.filterMap ParameterDecl.keywordFault? := by
  rw [built, parsed, separate_snd, separate_fst, List.filterMap_map, List.filterMap_map,
    List.filterMap_filterMap]
  exact List.filterMap_congr fun q _ => fault_of_build_parameter c q

theorem errors_eq (h : d.isMethod = false) :
    d.errors c = d.parameters.filterMap ParameterDecl.readingFault? ++
      d.parameters.filterMap ParameterDecl.keywordFault? := by
  rw [errors, h, parsed_faults, built_faults]
  rfl

theorem companion_eq_error {es : List DeclarationError} :
    d.companion c = .error es ↔ d.errors c = es ∧ es ≠ [] := by
  rw [companion, signature]
  cases d.errors c with
  | nil =>
    simp only [Except.map, reduceCtorEq, false_iff, not_and, not_not]
    exact Eq.symm
  | cons e rest =>
    simp only [Except.map, Except.error.injEq, iff_self_and]
    rintro rfl
    exact List.cons_ne_nil e rest

def complete (c : Catalogue) (d : Declaration) : Companion where
  constructor := d.name.name ++ "_signature"
  visibility := d.visibility
  doc := "Returns the declared signature of [`" ++ d.name.spelling ++ "`]."
  keptAttributes := d.attributes.map Attribute.path
  keptParameterAttributes := d.parameters.map keptAttributes
  signature := d.signatureOf (d.built c).1
  warnings := d.parsed.1.flatMap (schemaWarnings c)

theorem companion_eq_ok {k : Companion} :
    d.companion c = .ok k ↔ d.errors c = [] ∧ k = d.complete c := by
  rw [companion, signature]
  cases d.errors c with
  | nil => simp [Except.map, complete, eq_comm]
  | cons e rest => simp [Except.map]

theorem exists_companion : (∃ k, d.companion c = .ok k) ↔ d.errors c = [] := by
  simp [companion_eq_ok]

theorem signature_of_companion {k : Companion} (h : d.companion c = .ok k) :
    d.signature c = .ok k.signature := by
  obtain ⟨hnone, rfl⟩ := (companion_eq_ok c).mp h
  exact signature_eq_ok.mpr ⟨hnone, rfl⟩

theorem errors_perm (qs : List ParameterDecl) :
    (qs.filterMap ParameterDecl.readingFault? ++ qs.filterMap ParameterDecl.keywordFault?).Perm
      (qs.filterMap ParameterDecl.fault?) := by
  induction qs with
  | nil => exact .nil
  | cons q qs ih =>
    cases hread : q.readingFault? with
    | some e =>
      have hkeyword : q.keywordFault? = none := by simp [ParameterDecl.keywordFault?, hread]
      simpa [List.filterMap_cons, ParameterDecl.fault?, hread, hkeyword] using ih
    | none =>
      cases hkeyword : q.keywordFault? with
      | some e =>
        have hmiddle := List.perm_middle.trans (ih.cons e)
        simpa [List.filterMap_cons, ParameterDecl.fault?, hread, hkeyword] using hmiddle
      | none => simpa [List.filterMap_cons, ParameterDecl.fault?, hread, hkeyword] using ih

theorem errors_eq_nil (h : d.isMethod = false) :
    d.errors c = [] ↔ ∀ q ∈ d.parameters, ¬ q.Faulty := by
  have hfault (q : ParameterDecl) : q.fault? = none ↔ ¬ q.Faulty := by
    rw [← ParameterDecl.fault_is_some, Bool.not_eq_true, Option.isSome_eq_false_iff,
      Option.isNone_iff_eq_none]
  have hperm := errors_perm d.parameters
  rw [← errors_eq c h] at hperm
  rw [← List.perm_nil, hperm.congr_left, List.perm_nil, List.filterMap_eq_nil_iff]
  simp [hfault]

theorem name_of_parameter {q : ParameterDecl} {p : Parameter} (h : parameter c q = .ok p) :
    ∃ id, q.pattern = .binding id ∧ p.name = id.name := by
  obtain ⟨a, hread, hbuild⟩ := parameter_eq_ok.mp h
  obtain ⟨-, id, hid, rfl⟩ := ParameterDecl.read_parameter_eq_ok.mp hread
  rw [build_parameter_eq, fault_or_eq_ok] at hbuild
  exact ⟨id, hid, hbuild.2 ▸ rfl⟩

/-- A declaration without a receiver is complete exactly if none of its parameters is faulty, and
then it has one parameter for each that is declared, in their order and by itself. Otherwise it
gives only the faults: one of each faulty parameter, those of reading before those of keywords, and
both kinds in the order of the parameters. -/
theorem faults_or_companion (h : d.isMethod = false) :
    ((∃ k, d.companion c = .ok k) ↔ ∀ q ∈ d.parameters, ¬ q.Faulty) ∧
      (∀ q ∈ d.parameters, q.Faulty ↔ ∃ e, q.fault? = some e) ∧
      (∀ es, d.companion c = .error es →
        es = d.parameters.filterMap ParameterDecl.readingFault? ++
          d.parameters.filterMap ParameterDecl.keywordFault? ∧
        es.Perm (d.parameters.filterMap ParameterDecl.fault?)) ∧
      ∀ k, d.companion c = .ok k →
        List.Forall₂
          (fun q p => parameter c q = .ok p ∧ ∃ id, q.pattern = .binding id ∧ p.name = id.name)
          d.parameters k.signature.parameters := by
  refine ⟨(exists_companion c).trans (errors_eq_nil c h), fun q _ => ?_, fun es hes => ?_,
    fun k hk => ?_⟩
  · rw [← ParameterDecl.fault_is_some, Option.isSome_iff_exists]
  · obtain ⟨rfl, -⟩ := (companion_eq_error c).mp hes
    rw [errors_eq c h]
    exact ⟨rfl, errors_perm d.parameters⟩
  · have hparameters := parameters_of_signature (signature_of_companion c hk)
    exact hparameters.imp fun q p hp => ⟨hp, name_of_parameter c hp⟩

/-- Four of six parameters are faulty, two of them in more than one way. -/
theorem mixed_faults_reported :
    let one : Literal := .value (.int 1)
    let fine : ParameterDecl := ⟨.binding (.plain "a"), .other, [.doc " A.", .field [⟨"ge", one⟩]]⟩
    let keyword : ParameterDecl :=
      ⟨.binding (.plain "b"), .other, [.field [⟨"size", one⟩], .field [⟨"type", one⟩]]⟩
    let unnamed : ParameterDecl := ⟨.other, .other, [.malformed "default"]⟩
    let path : ParameterDecl :=
      ⟨.binding (.plain "c"), .other, [.field [⟨"size", one⟩, ⟨"a::b", one⟩], .malformed "members"]⟩
    let type : ParameterDecl :=
      ⟨.binding (.plain "d"), .other, [.field [⟨"type", .value (.str "text")⟩]]⟩
    let d : Declaration := ⟨.plain "f", "", false, [], [fine, keyword, unnamed, path, type, fine]⟩
    let c : Catalogue := ⟨fun _ => ⟨.null, []⟩, .empty⟩
    d.isMethod = false ∧ ¬ fine.Faulty ∧
      (keyword.Faulty ∧ unnamed.Faulty ∧ path.Faulty ∧ type.Faulty) ∧
      (¬ ∃ k, d.companion c = .ok k) ∧
      d.companion c = .error [.pattern, .keywordPath, .unknownKeyword, .unknownType] := by
  intro one fine keyword unnamed path type d c
  have hmethod : d.isMethod = false := rfl
  obtain ⟨hok, hfaulty, -, -⟩ := faults_or_companion c hmethod
  have hfine : ¬ fine.Faulty := by
    have hnone : fine.fault? = none := by decide
    simp [hfaulty fine (by simp [d]), hnone]
  have hkeyword : keyword.Faulty := (hfaulty keyword (by simp [d])).mpr ⟨.unknownKeyword, by decide⟩
  have hunnamed : unnamed.Faulty := (hfaulty unnamed (by simp [d])).mpr ⟨.pattern, by decide⟩
  have hpath : path.Faulty := (hfaulty path (by simp [d])).mpr ⟨.keywordPath, by decide⟩
  have htype : type.Faulty := (hfaulty type (by simp [d])).mpr ⟨.unknownType, by decide⟩
  refine ⟨hmethod, hfine, ⟨hkeyword, hunnamed, hpath, htype⟩, ?_, ?_⟩
  · exact fun h => hok.mp h keyword (by simp [d]) hkeyword
  · exact (companion_eq_error c).mpr ⟨by decide, List.cons_ne_nil _ _⟩

end Declaration

end ToolSpec
