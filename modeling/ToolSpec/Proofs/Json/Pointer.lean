import ToolSpec.Proofs.Json.Keys

/-!
# Pointers

A JSON pointer is a text of tokens, each behind a slash. In a token `~0` stands for a tilde and `~1`
for a slash. Reading accepts exactly what writing produces. A token selects one part of a value, and
so the tokens of a pointer lead to one place at most, and no other tokens lead there.
-/

set_option autoImplicit false

namespace ToolSpec

namespace Pointer

def isSpecial (c : Char) : Bool := c = '~' || c = '/'

def escapeChar (c : Char) : List Char :=
  if c = '~' then ['~', '0'] else if c = '/' then ['~', '1'] else [c]

def escape (token : List Char) : List Char := token.flatMap escapeChar

/-- A written token has no slash, and a digit behind each tilde. -/
def unescape? : List Char → Option (List Char)
  | [] => some []
  | '~' :: '0'::rest => (unescape? rest).map ('~'::·)
  | '~' :: '1'::rest => (unescape? rest).map ('/'::·)
  | c::rest => if isSpecial c then none else (unescape? rest).map (c::·)

def write (tokens : List String) : List Char := tokens.flatMap fun t => '/'::escape t.toList

def readToken? (t : List Char) : Option String := (unescape? t).map String.ofList

def read? : List Char → Option (List String)
  | [] => some []
  | '/'::rest => (rest.splitOn '/').mapM readToken?
  | _ => none

theorem is_special_iff {c : Char} : isSpecial c = true ↔ c = '~' ∨ c = '/' := by
  simp [isSpecial]

theorem escape_cons (c : Char) (t : List Char) : escape (c::t) = escapeChar c ++ escape t := rfl

theorem escape_char_plain {c : Char} (h : isSpecial c = false) : escapeChar c = [c] := by
  obtain ⟨htilde, hslash⟩ : c ≠ '~' ∧ c ≠ '/' := by simpa [isSpecial] using h
  rw [escapeChar, if_neg htilde, if_neg hslash]

theorem unescape_plain {c : Char} (h : isSpecial c = false) (t : List Char) :
    unescape? (c::t) = (unescape? t).map (c::·) := by
  have htilde : c ≠ '~' := by
    rintro rfl
    contradiction
  rw [unescape?.eq_4 c t (fun _ hc _ => htilde hc) (fun _ hc _ => htilde hc), if_neg (by simp [h])]

theorem unescape_escape (t : List Char) : unescape? (escape t) = some t := by
  induction t with
  | nil => rfl
  | cons c t ih =>
    rw [escape_cons]
    cases hc : isSpecial c with
    | false =>
      rw [escape_char_plain hc, List.singleton_append, unescape_plain hc, ih]
      rfl
    | true =>
      obtain rfl | rfl := is_special_iff.mp hc
      · exact congrArg (Option.map ('~'::·)) ih
      · exact congrArg (Option.map ('/'::·)) ih

theorem escape_of_unescape {t u : List Char} (h : unescape? t = some u) : escape u = t := by
  fun_induction unescape? t generalizing u with
  | case1 =>
    obtain rfl := Option.some.inj h
    rfl
  | case2 rest ih =>
    obtain ⟨u, hu, rfl⟩ := Option.map_eq_some_iff.mp h
    exact congrArg ('~' :: '0'::·) (ih hu)
  | case3 rest ih =>
    obtain ⟨u, hu, rfl⟩ := Option.map_eq_some_iff.mp h
    exact congrArg ('~' :: '1'::·) (ih hu)
  | case4 => contradiction
  | case5 c rest _ _ hc ih =>
    obtain ⟨u, hu, rfl⟩ := Option.map_eq_some_iff.mp h
    rw [escape_cons, escape_char_plain (by simpa using hc), ih hu, List.singleton_append]

theorem slash_not_mem_escape (t : List Char) : '/' ∉ escape t := by
  intro h
  obtain ⟨c, -, hc⟩ := List.mem_flatMap.mp h
  rw [escapeChar] at hc
  split at hc
  · simp at hc
  · split at hc
    · simp at hc
    · exact absurd (List.mem_singleton.mp hc).symm ‹_›

theorem write_cons (t : String) (ts : List String) :
    write (t::ts) = '/'::List.intercalate ['/'] ((t::ts).map fun t => escape t.toList) := by
  induction ts generalizing t with
  | nil => simp [write]
  | cons u ts ih =>
    have hrest : write (t::u::ts) = '/'::(escape t.toList ++ write (u::ts)) := rfl
    rw [hrest, ih, List.map_cons, List.map_cons, List.map_cons, List.intercalate_cons_cons,
      List.append_assoc]
    rfl

theorem read_token_eq_some_iff {t : List Char} {token : String} :
    readToken? t = some token ↔ t = escape token.toList := by
  rw [readToken?, Option.map_eq_some_iff]
  constructor
  · rintro ⟨u, hu, rfl⟩
    rw [String.toList_ofList, escape_of_unescape hu]
  · rintro rfl
    exact ⟨token.toList, unescape_escape _, String.ofList_toList⟩

theorem mapm_read_token_iff {written : List (List Char)} {tokens : List String} :
    written.mapM readToken? = some tokens ↔ written = tokens.map fun t => escape t.toList := by
  induction written generalizing tokens with
  | nil => cases tokens <;> simp
  | cons t written ih =>
    cases tokens with
    | nil => simp [List.mapM_cons, Option.bind_eq_some_iff]
    | cons token tokens =>
      simp [List.mapM_cons, Option.bind_eq_some_iff, read_token_eq_some_iff, ih]

theorem read_eq_some_iff {text : List Char} {tokens : List String} :
    read? text = some tokens ↔ text = write tokens := by
  unfold read?
  split
  · cases tokens <;> simp [write]
  · rename_i rest
    rw [mapm_read_token_iff]
    cases tokens with
    | nil => simp [write, List.splitOn_ne_nil]
    | cons t ts =>
      rw [write_cons, List.cons.injEq, eq_self, true_and]
      constructor
      · intro h
        rw [← h, List.intercalate_splitOn]
      · rintro rfl
        apply List.splitOn_intercalate
        · intro l hl
          obtain ⟨t, -, rfl⟩ := List.mem_map.mp hl
          exact slash_not_mem_escape t.toList
        · simp
  · rename_i hempty hslash
    cases tokens with
    | nil => simpa [write] using hempty
    | cons t ts => simpa [write] using hslash _

theorem length_escape (t : List Char) : (escape t).length = t.length + t.countP isSpecial := by
  induction t with
  | nil => rfl
  | cons c t ih =>
    rw [escape_cons, List.length_append, ih, List.length_cons]
    cases hc : isSpecial c with
    | false =>
      rw [escape_char_plain hc, List.countP_cons_of_neg (by simp [hc]), List.length_singleton]
      omega
    | true =>
      have htwo : (escapeChar c).length = 2 := by
        obtain rfl | rfl := is_special_iff.mp hc
        · rfl
        · rfl
      rw [htwo, List.countP_cons_of_pos hc]
      omega

theorem escape_plain {t : List Char} (h : ∀ c ∈ t, isSpecial c = false) : escape t = t := by
  induction t with
  | nil => rfl
  | cons c t ih =>
    obtain ⟨hc, ht⟩ := List.forall_mem_cons.mp h
    rw [escape_cons, escape_char_plain hc, ih ht, List.singleton_append]

def unescaped (tokens : List String) : List Char := tokens.flatMap fun t => '/'::t.toList

theorem length_write (tokens : List String) :
    (write tokens).length =
      (unescaped tokens).length + (tokens.flatMap String.toList).countP isSpecial := by
  induction tokens with
  | nil => rfl
  | cons t ts ih =>
    have hwrite : write (t::ts) = '/'::(escape t.toList ++ write ts) := rfl
    have hraw : unescaped (t::ts) = '/'::(t.toList ++ unescaped ts) := rfl
    rw [hwrite, hraw, List.flatMap_cons, List.countP_append, List.length_cons, List.length_cons,
      List.length_append, List.length_append, length_escape, ih]
    omega

theorem unescaped_eq_write_iff {tokens : List String} :
    unescaped tokens = write tokens ↔ ∀ t ∈ tokens, ∀ c ∈ t.toList, isSpecial c = false := by
  constructor
  · intro h
    have hlength := length_write tokens
    rw [← h, Nat.left_eq_add, List.countP_eq_zero] at hlength
    intro t ht c hc
    simpa using hlength c (List.mem_flatMap.mpr ⟨t, ht, hc⟩)
  · intro h
    apply List.flatMap_congr
    intro t ht
    rw [escape_plain (h t ht)]

end Pointer

namespace Json

def parts : Json → Fields Json
  | .arr items => items.zipIdx.map fun (v, i) => (toString i, v)
  | .obj fields => fields
  | _ => []

/-- The value that tokens lead to, behind the numbers of the parts that are entered on the way.
The numbers tell this value from equal ones elsewhere. -/
def locate? : Json → List String → Option (List Nat × Json)
  | v, [] => some ([], v)
  | v, token::rest =>
    (v.parts.findIdx? (·.1 = token)).bind fun i =>
      v.parts[i]?.bind fun (_, u) => (u.locate? rest).map fun (spot, w) => (i::spot, w)

theorem index_injective {i j : Nat} (h : toString i = toString j) : i = j := by
  rw [Nat.toString_eq_ofList_toDigits, Nat.toString_eq_ofList_toDigits, String.ofList_inj] at h
  calc
    i = Nat.ofDigitChars 10 (Nat.toDigits 10 i) 0 :=
      (Nat.ofDigitChars_toDigits (by decide) (by decide)).symm
    _ = Nat.ofDigitChars 10 (Nat.toDigits 10 j) 0 := by rw [h]
    _ = j := Nat.ofDigitChars_toDigits (by decide) (by decide)

theorem nodup_indices (items : List Json) : (items.zipIdx.map fun e => toString e.2).Nodup := by
  have hindices : (items.zipIdx.map Prod.snd).Nodup := by
    rw [List.zipIdx_map_snd]
    exact List.nodup_range' 1
  rw [← Function.comp_def toString Prod.snd, ← List.map_map]
  exact hindices.map fun i j => index_injective

theorem lookup_parts_arr {items : List Json} {i : Nat} {v : Json} (h : items[i]? = some v) :
    (Json.arr items).parts.lookup (toString i) = some v := by
  apply Fields.lookup_of_mem
  · rw [Fields.keys, parts, List.map_map]
    exact nodup_indices items
  · exact List.mem_map.mpr ⟨(v, i), List.mem_zipIdx_iff_getElem?.mpr h, rfl⟩

variable {v u w w' : Json} {token : String} {p q : List String} {spot : List Nat}

theorem locate_cons_iff {found : List Nat × Json} :
    v.locate? (token::p) = some found ↔
      ∃ i u spot w, v.parts.findIdx? (·.1 = token) = some i ∧ v.parts[i]? = some (token, u) ∧
        u.locate? p = some (spot, w) ∧ found = (i::spot, w) := by
  rw [locate?]
  simp only [Option.bind_eq_some_iff, Option.map_eq_some_iff, Prod.exists]
  constructor
  · rintro ⟨i, hi, key, u, hpart, spot, w, hw, rfl⟩
    obtain ⟨hlt, hkey, -⟩ := List.findIdx?_eq_some_iff_getElem.mp hi
    obtain ⟨_, hentry⟩ := List.getElem?_eq_some_iff.mp hpart
    obtain rfl : key = token := by simpa [hentry] using hkey
    exact ⟨i, u, spot, w, hi, hpart, hw, rfl⟩
  · rintro ⟨i, u, spot, w, hi, hpart, hw, rfl⟩
    exact ⟨i, hi, token, u, hpart, spot, w, hw, rfl⟩

theorem locate_cons (hu : v.parts.lookup token = some u) (hw : u.locate? p = some (spot, w)) :
    ∃ i, v.locate? (token::p) = some (i::spot, w) := by
  obtain ⟨before, after, hparts, hbefore⟩ := List.lookup_eq_some_iff.mp hu
  have hnone : before.findIdx? (·.1 = token) = none := by
    rw [List.findIdx?_eq_none_iff]
    intro e he
    simpa using Ne.symm (by simpa using hbefore e he)
  refine ⟨before.length, locate_cons_iff.mpr ⟨_, u, spot, w, ?_, ?_, hw, rfl⟩⟩
  · simp [hparts, List.findIdx?_append, hnone, List.findIdx?_cons]
  · simp [hparts]

theorem locate_injective (hp : v.locate? p = some (spot, w))
    (hq : v.locate? q = some (spot, w')) : p = q := by
  induction p generalizing v q spot with
  | nil =>
    obtain ⟨rfl, -⟩ := Prod.mk.inj (Option.some.inj hp)
    cases q with
    | nil => rfl
    | cons token q =>
      obtain ⟨i, u, spot, x, -, -, -, hfound⟩ := locate_cons_iff.mp hq
      simp at hfound
  | cons token p ih =>
    obtain ⟨i, u, spot, x, -, hpart, hu, hfound⟩ := locate_cons_iff.mp hp
    obtain ⟨rfl, rfl⟩ := Prod.mk.inj hfound
    cases q with
    | nil => simp [locate?] at hq
    | cons token' q =>
      obtain ⟨j, u', spot', x', -, hpart', hu', hfound'⟩ := locate_cons_iff.mp hq
      obtain ⟨hspot, rfl⟩ := Prod.mk.inj hfound'
      obtain ⟨rfl, rfl⟩ := List.cons.inj hspot
      obtain ⟨rfl, rfl⟩ := Prod.mk.inj (Option.some.inj (hpart.symm.trans hpart'))
      rw [ih hu hu']

def resolve? (v : Json) (text : String) : Option (List Nat × Json) :=
  match text.toList with
  | '#'::pointer => (Pointer.read? pointer).bind v.locate?
  | _ => none

theorem resolve_iff (hp : v.locate? p = some (spot, w)) {text : String} :
    v.resolve? text = some (spot, w) ↔ text.toList = '#'::Pointer.write p := by
  unfold resolve?
  split
  · rename_i pointer htext
    rw [htext, List.cons.injEq, eq_self, true_and, ← Pointer.read_eq_some_iff,
      Option.bind_eq_some_iff]
    constructor
    · rintro ⟨q, hread, hq⟩
      rw [hread, locate_injective hp hq]
    · intro hread
      exact ⟨p, hread, hp⟩
  · rename_i hplain
    simpa using hplain _

end Json

end ToolSpec
