import ToolSpec.Proofs.Declaration.Faults
import ToolSpec.Tool

/-!
# Raw names

The mark of a raw identifier is no part of a name: not of a parameter, nor of a value in a list of
names, however these are written. Only the name of the function itself is given with its mark, and
so it stands in the signature and in every tool.
-/

set_option autoImplicit false

namespace ToolSpec

namespace Identifier

def unmarked (id : Identifier) : Identifier := .plain id.name

/-- The identifier as it can be written without a mark. A reserved word needs it. -/
def withoutMark (id : Identifier) : Identifier :=
  if id.unmarked.isReserved then id else id.unmarked

@[simp] theorem unmarked_without_mark (id : Identifier) :
    id.withoutMark.unmarked = id.unmarked := by
  rw [withoutMark]
  split <;> rfl

theorem without_mark_eq_plain {word : String} (hword : word ∈ reservedWords) (id : Identifier) :
    id.withoutMark = .plain word ↔ id = .plain word := by
  rw [withoutMark]
  split
  case isTrue => rfl
  case isFalse hfree =>
    have hname : id.name ≠ word := by
      rintro rfl
      exact hfree (decide_eq_true hword)
    constructor
    · intro h
      exact absurd (congrArg name h) hname
    · rintro rfl
      exact absurd rfl hname

@[simp] theorem is_reserved_without_mark (id : Identifier) :
    id.withoutMark.isReserved = id.isReserved := by
  rw [withoutMark]
  split
  case isTrue => rfl
  case isFalse hfree =>
    have hname : id.name ∉ reservedWords := fun h => hfree (decide_eq_true h)
    simp [isReserved, unmarked, plain, hname]

theorem spelling_eq_name_iff (id : Identifier) : id.spelling = id.name ↔ id.raw = false := by
  cases hraw : id.raw with
  | false => simp [spelling, hraw]
  | true =>
    have hlength : ("r#" ++ id.name).length ≠ id.name.length := by
      rw [String.length_append]
      simp
    simp only [spelling, hraw, if_true, reduceCtorEq, iff_false]
    exact mt (congrArg String.length) hlength

end Identifier

def Member.unmarked : Member → Member
  | .word id => .word id.unmarked
  | .quoted text => .quoted text

def Attribute.unmarked : Attribute → Attribute
  | .members names => .members (names.map Member.unmarked)
  | a => a

def Pattern.unmarked : Pattern → Pattern
  | .binding id => .binding id.unmarked
  | p => p

def ParameterDecl.unmarked (q : ParameterDecl) : ParameterDecl :=
  { q with pattern := q.pattern.unmarked, attributes := q.attributes.map Attribute.unmarked }

def Declaration.unmarked (d : Declaration) : Declaration :=
  { d with name := d.name.unmarked, parameters := d.parameters.map ParameterDecl.unmarked }

def Token.unmarked : Token → Token
  | .word id => .word id.withoutMark
  | t => t

namespace Token

theorem unmarked_eq_mark {t : Token} {c : Char} : t.unmarked = .mark c ↔ t = .mark c := by
  cases t <;> simp [unmarked]

theorem unmarked_eq_plain {word : String} (hword : word ∈ Identifier.reservedWords) (t : Token) :
    t.unmarked = .word (.plain word) ↔ t = .word (.plain word) := by
  cases t <;> simp [unmarked, Identifier.without_mark_eq_plain hword]

theorem exists_parts (ts : List Token) : ∃ p ps, parts ts = p::ps := by
  fun_induction parts ts <;> simp

theorem parts_cons {t : Token} (ht : t ≠ .mark ',') (rest : List Token) :
    parts (t::rest) = (parts rest).modifyHead (t::·) := by
  obtain ⟨p, ps, hp⟩ := exists_parts rest
  rw [parts, hp]
  · rfl
  · exact ht

theorem parts_unmarked (ts : List Token) :
    parts (ts.map unmarked) = (parts ts).map (·.map unmarked) := by
  induction ts with
  | nil => rfl
  | cons t rest ih =>
    rw [List.map_cons]
    -- A comma stays one, and nothing else becomes one.
    by_cases ht : t = .mark ','
    · rw [ht, show unmarked (.mark ',') = .mark ',' from rfl, parts, parts, ih, List.map_cons,
        List.map_nil]
    · obtain ⟨p, ps, hp⟩ := exists_parts rest
      rw [parts_cons (mt unmarked_eq_mark.mp ht), parts_cons ht, ih, hp]
      rfl

theorem arguments_unmarked (ts : List Token) :
    arguments (ts.map unmarked) = (arguments ts).map (·.map unmarked) := by
  simp only [arguments, parts_unmarked, List.getLast?_map]
  rcases (parts ts).getLast? with _ | _ | ⟨t, rest⟩
  · rfl
  · exact List.map_dropLast.symm
  · rfl

end Token

namespace Pattern

theorem drop_mode_unmarked {mode : String} (hmode : mode ∈ Identifier.reservedWords)
    (ts : List Token) :
    dropMode mode (ts.map Token.unmarked) = (dropMode mode ts).map Token.unmarked := by
  rcases ts with _ | ⟨t, rest⟩
  · rfl
  cases t with
  | word id =>
    simp only [List.map_cons, Token.unmarked, dropMode, Identifier.without_mark_eq_plain hmode]
    split <;> rfl
  | _ => rfl

theorem can_bind_without_mark (id : Identifier) : canBind id.withoutMark = canBind id := by
  have hself : "self" ∈ Identifier.reservedWords := by decide
  simp [canBind, Identifier.without_mark_eq_plain hself]

def bound : List Token → Pattern
  | [.word id] => if canBind id then .binding id else .other
  | .word id::.mark '@'::_ => if canBind id then .binding id else .other
  | _ => .other

def IsReceiver (ts : List Token) : Prop :=
  ts = [.word (.plain "self")] ∨ ts = [.word (.plain "mut"), .word (.plain "self")]

theorem of_tokens_receiver {ts : List Token} (h : IsReceiver ts) : ofTokens ts = .receiver := by
  rcases h with rfl | rfl <;> rfl

theorem of_tokens_bound {ts : List Token} (h : ¬IsReceiver ts) :
    ofTokens ts = bound (dropMode "mut" (dropMode "ref" ts)) := by
  rw [ofTokens]
  · rfl
  · exact fun hself => h (.inl hself)
  · exact fun hmut => h (.inr hmut)

theorem is_receiver_unmarked (ts : List Token) :
    IsReceiver (ts.map Token.unmarked) ↔ IsReceiver ts := by
  have hmut : "mut" ∈ Identifier.reservedWords := by decide
  have hself : "self" ∈ Identifier.reservedWords := by decide
  simp [IsReceiver, List.map_eq_cons_iff, Token.unmarked_eq_plain hmut,
    Token.unmarked_eq_plain hself]

theorem bound_unmarked (ts : List Token) :
    (bound (ts.map Token.unmarked)).unmarked = (bound ts).unmarked := by
  have hbinding (id : Identifier) :
      (if canBind id.withoutMark then binding id.withoutMark else .other).unmarked =
        (if canBind id then binding id else .other).unmarked := by
    rw [can_bind_without_mark]
    split
    · simp only [unmarked, Identifier.unmarked_without_mark]
    · rfl
  match ts with
  | [] => rfl
  | [.word id] => exact hbinding id
  | .word id::t::rest =>
    by_cases ht : t = .mark '@'
    · rw [ht]
      exact hbinding id
    · have hother (id : Identifier) {t : Token} (ht : t ≠ .mark '@') (rest : List Token) :
          bound (.word id::t::rest) = .other := by simp [bound, ht]
      rw [hother id ht]
      exact congrArg unmarked (hother id.withoutMark (mt Token.unmarked_eq_mark.mp ht) _)
  | .text _::_ | .character _::_ | .bytes _ _::_ | .number _::_ | .colons::_ | .mark _::_
  | .group _ _::_ => rfl

theorem of_tokens_unmarked (ts : List Token) :
    (ofTokens (ts.map Token.unmarked)).unmarked = (ofTokens ts).unmarked := by
  -- The words with a meaning here are reserved, so a name cannot turn into one of them.
  by_cases h : IsReceiver ts
  · rw [of_tokens_receiver h, of_tokens_receiver ((is_receiver_unmarked ts).mpr h)]
  · rw [of_tokens_bound h, of_tokens_bound (mt (is_receiver_unmarked ts).mp h),
      drop_mode_unmarked (by decide), drop_mode_unmarked (by decide), bound_unmarked]

end Pattern

theorem map_mapm {α β γ : Type} (f : α → Option β) (g : β → γ) (l : List α) :
    (l.mapM f).map (·.map g) = l.mapM fun a => (f a).map g := by
  induction l with
  | nil => rfl
  | cons a rest ih =>
    rw [List.mapM_cons, List.mapM_cons, ← ih]
    cases f a <;> cases rest.mapM f <;> rfl

namespace Attribute

theorem member_unmarked (ts : List Token) :
    (member? (ts.map Token.unmarked)).map Member.unmarked = (member? ts).map Member.unmarked := by
  match ts with
  | [] => rfl
  | [t] =>
    cases t with
    | word id => exact congrArg (some ∘ Member.word) id.unmarked_without_mark
    | _ => rfl
  | _::_::_ => simp [member?]

theorem members_unmarked (parts : List (List Token)) :
    ((parts.map (·.map Token.unmarked)).mapM member?).map (·.map Member.unmarked) =
      (parts.mapM member?).map (·.map Member.unmarked) := by
  rw [map_mapm, map_mapm, List.mapM_map]
  simp only [Function.comp_def, member_unmarked]

/-- The attribute with a list of names, by the tokens between its delimiters. -/
def ofNames (opening : Char) (ts : List Token) : Attribute :=
  ofTokens [.word (.plain "members"), .group opening ts]

theorem of_names_eq (opening : Char) (ts : List Token) :
    ofNames opening ts =
      ((Token.arguments ts).mapM member?).elim (.malformed "members") .members := by
  have hpath : Token.spelling (.word (.plain "members")) = "members" := rfl
  simp only [ofNames, ofTokens, Token.splitPath, Token.moreSegments, Token.spellingAll, hpath, own?]
  cases (Token.arguments ts).mapM member? <;> rfl

theorem of_names_unmarked (opening : Char) (ts : List Token) :
    (ofNames opening (ts.map Token.unmarked)).unmarked = (ofNames opening ts).unmarked := by
  have helim (names : Option (List Member)) :
      (names.elim (malformed "members") members).unmarked =
        (names.map (·.map Member.unmarked)).elim (malformed "members") members := by
    cases names <;> rfl
  rw [of_names_eq, of_names_eq, helim, helim, Token.arguments_unmarked, members_unmarked]

end Attribute

theorem Member.name_unmarked (m : Member) : m.unmarked.name = m.name := by
  cases m <;> rfl

theorem Attribute.doc_unmarked (a : Attribute) : a.unmarked.doc? = a.doc? := by
  cases a <;> rfl

namespace Declaration

theorem after_unmarked (p : ParsedParameter) (as : List Attribute) :
    p.after (as.map Attribute.unmarked) = p.after as := by
  have hdefault : Attribute.default? ∘ Attribute.unmarked = Attribute.default? := by
    funext a
    cases a <;> rfl
  have hmembers : Attribute.members? ∘ Attribute.unmarked = Attribute.members? := by
    funext a
    cases a with
    | members names =>
      simp [Attribute.unmarked, Attribute.members?, Function.comp_def, Member.name_unmarked]
    | _ => rfl
  have harguments : Attribute.arguments? ∘ Attribute.unmarked = Attribute.arguments? := by
    funext a
    cases a <;> rfl
  have hschema : Attribute.isSchema ∘ Attribute.unmarked = Attribute.isSchema := by
    funext a
    cases a <;> rfl
  simp only [ParsedParameter.after, Attribute.argumentsOf, List.filterMap_map, List.any_map,
    hdefault, hmembers, harguments, hschema]

theorem read_attributes_unmarked (p : ParsedParameter) (as : List Attribute) :
    readAttributes p (as.map Attribute.unmarked) = readAttributes p as := by
  have hfault : Attribute.fault? ∘ Attribute.unmarked = Attribute.fault? := by
    funext a
    cases a <;> rfl
  rw [read_attributes_eq, read_attributes_eq, List.findSome?_map, hfault, after_unmarked]

theorem documentation_unmarked (as : List Attribute) :
    documentation (as.map Attribute.unmarked) = documentation as := by
  have hdocs : Attribute.doc? ∘ Attribute.unmarked = Attribute.doc? :=
    funext Attribute.doc_unmarked
  rw [documentation, List.filterMap_map, hdocs, documentation]

theorem read_parameter_unmarked (q : ParameterDecl) :
    readParameter q.unmarked = readParameter q := by
  rw [readParameter, readParameter, ParameterDecl.unmarked]
  dsimp only
  rw [documentation_unmarked]
  cases q.pattern with
  | binding id => exact read_attributes_unmarked _ q.attributes
  | _ => rfl

variable (c : Catalogue) (d : Declaration)

theorem parsed_unmarked : d.unmarked.parsed = d.parsed := by
  have hread : readParameter ∘ ParameterDecl.unmarked = readParameter :=
    funext read_parameter_unmarked
  rw [parsed, unmarked, List.map_map, hread, parsed]

theorem built_unmarked : d.unmarked.built c = d.built c := by
  rw [built, parsed_unmarked, built]

theorem errors_unmarked : d.unmarked.errors c = d.errors c := by
  have hreceiver (p : Pattern) : p.unmarked.isReceiver = p.isReceiver := by cases p <;> rfl
  have hmethod : d.unmarked.isMethod = d.isMethod := by
    simp [isMethod, unmarked, ParameterDecl.unmarked, Function.comp_def, hreceiver]
  rw [errors, errors, hmethod, parsed_unmarked, built_unmarked]

theorem signature_unmarked :
    d.unmarked.signature c = (d.signature c).map fun s => { s with name := d.name.name } := by
  rw [signature, signature, errors_unmarked, built_unmarked]
  cases d.errors c <;> rfl

theorem name_of_signature {s : Signature} (h : d.signature c = .ok s) :
    s.name = d.name.spelling := by
  obtain ⟨-, rfl⟩ := signature_eq_ok.mp h
  rfl

end Declaration

theorem Tool.to_json_named_eq_iff (t : Tool) (name : String) :
    t.toJson = { t with name := name }.toJson ↔ t.name = name := by
  simp [toJson]

namespace Signature

theorem tool_named (s : Signature) (name : String) (o : Options) :
    tool { s with name := name } o = { s.tool o with name := name } := by
  unfold tool
  cases o.strict <;> rfl

theorem name_tool (s : Signature) (o : Options) : (s.tool o).name = s.name := by
  unfold tool
  cases o.strict <;> rfl

theorem eq_named_iff (s : Signature) (name : String) :
    s = { s with name := name } ↔ s.name = name := by
  constructor
  · exact congrArg Signature.name
  · rintro rfl
    rfl

theorem to_json_tool_eq_iff (s : Signature) (name : String) (o : Options) :
    (s.tool o).toJson = (tool { s with name := name } o).toJson ↔ s.name = name := by
  rw [tool_named s name o, Tool.to_json_named_eq_iff, name_tool]

end Signature

namespace Declaration

/-- A declaration has the same faults without its marks, and the same signature but for the mark of
its own name. So the signature and every tool are the same exactly if that name is written without a
mark. Whether names have marks where they are written does not matter to the reading of patterns and
of lists of names. -/
theorem raw_marks_only_in_name (c : Catalogue) (d : Declaration) :
    d.unmarked.errors c = d.errors c ∧
      (∀ s, d.signature c = .ok s → ∃ s', d.unmarked.signature c = .ok s' ∧
        s' = { s with name := d.name.name } ∧ (s = s' ↔ d.name.raw = false) ∧
        ∀ o, ((s.tool o).toJson = (s'.tool o).toJson ↔ d.name.raw = false)) ∧
      (∀ ts, (Pattern.ofTokens (ts.map Token.unmarked)).unmarked =
        (Pattern.ofTokens ts).unmarked) ∧
      ∀ opening ts, (Attribute.ofNames opening (ts.map Token.unmarked)).unmarked =
        (Attribute.ofNames opening ts).unmarked := by
  refine ⟨errors_unmarked c d, fun s hs => ?_, Pattern.of_tokens_unmarked,
    Attribute.of_names_unmarked⟩
  have hname : s.name = d.name.name ↔ d.name.raw = false := by
    rw [name_of_signature c d hs, Identifier.spelling_eq_name_iff]
  refine ⟨{ s with name := d.name.name }, ?_, rfl, ?_, fun o => ?_⟩
  · rw [signature_unmarked, hs]
    rfl
  · exact (s.eq_named_iff _).trans hname
  · exact (s.to_json_tool_eq_iff _ o).trans hname

/-- The marks of a parameter and of the names it may take are not seen in its signature. -/
theorem raw_parameter_unmarked :
    let ts : List Token := [.word (.plain "mut"), .word ⟨true, "unit"⟩]
    let names : Attribute := .ofNames '(' [.word ⟨true, "km"⟩, .mark ',', .text "mile"]
    let d : Declaration :=
      ⟨.plain "go", "", false, [], [⟨.ofTokens ts, .named "String", [names]⟩]⟩
    let c : Catalogue := ⟨fun _ => ⟨.null, []⟩, .empty⟩
    names = .members [.word ⟨true, "km"⟩, .quoted "mile"] ∧
      (Pattern.ofTokens (ts.map Token.unmarked)).unmarked = .binding (.plain "unit") ∧
      ∃ s, d.signature c = .ok s ∧ d.unmarked.signature c = .ok s ∧
        s.parameters.map (·.name) = ["unit"] := by
  intro ts names d c
  obtain ⟨-, hall, hpattern, -⟩ := raw_marks_only_in_name c d
  have hs : d.signature c = .ok _ := rfl
  obtain ⟨s', hs', -, hsame, -⟩ := hall _ hs
  obtain rfl := hsame.mpr rfl
  exact ⟨rfl, hpattern ts, _, hs, hs', rfl⟩

/-- The mark of the name of a function stands in its tool. -/
theorem raw_name_kept :
    let q : ParameterDecl := ⟨.binding (.plain "n"), .named "u8", []⟩
    let d : Declaration := ⟨⟨true, "go"⟩, "", false, [], [q]⟩
    let c : Catalogue := ⟨fun _ => ⟨.null, []⟩, .empty⟩
    ∃ s s', d.signature c = .ok s ∧ d.unmarked.signature c = .ok s' ∧ s ≠ s' ∧
      (s.tool .standard).name = "r#go" ∧ (s'.tool .standard).name = "go" ∧
      (s.tool .standard).toJson ≠ (s'.tool .standard).toJson := by
  intro q d c
  refine ⟨_, _, rfl, rfl, fun h => ?_, rfl, rfl, ?_⟩
  · exact absurd (congrArg Signature.name h) (by decide)
  · exact mt (Signature.to_json_tool_eq_iff _ "go" .standard).mp (by decide)

end Declaration

end ToolSpec
