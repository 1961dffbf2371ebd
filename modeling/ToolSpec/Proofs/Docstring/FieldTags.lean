import ToolSpec.Proofs.Docstring.Scanning

/-!
# Field tags read back

Each tag stands at an indentation of its own and is continued by deeper lines. Before a colon the
last word is the name, whatever the type before it looks like.
-/

set_option autoImplicit false

namespace ToolSpec.Docstring.FieldTags
open ToolSpec.Text

/-- A tag with a colon may give a type before the name, a tag with an `@` none. -/
inductive Form
  | colon (type : Option Line)
  | atSign

def Form.type? : Form → Option Line
  | .colon type => type
  | .atSign => none

/-- A parameter as a tag documents it. Its continuation lines do not end it. -/
structure Tag extends Documented where
  form : Form
  hasFirst : first ≠ []
  isType : ∀ t ∈ form.type?, ':' ∉ t
  unmarked : ∀ t ∈ more, isMark t = false

def typeText : Option Line → Line
  | none => []
  | some t => ' '::t

def Tag.head (t : Tag) : Line :=
  match t.form with
  | .colon type => ':'::("param".toList ++ (typeText type ++ ' '::t.name) ++ ':' :: ' '::t.first)
  | .atSign => '@'::("param".toList ++ ' '::(t.name ++ ':' :: ' '::t.first))

structure Documents (t : Tag) (l : Line) (more : List Line) : Prop where
  head : trim l = t.head
  texts : more.map trim = t.more
  deeper : ∀ c ∈ more, indent l < indent c

variable {n s : Line}

theorem last_word_append (s : Line) (hn : IsName n) : lastWord (s ++ ' '::n) = n := by
  have hsolid : ∀ c ∈ n, isBlank c = false := fun c hc => word_not_blank (hn.word c hc)
  have hend : trimEnd (s ++ ' '::n) = s ++ ' '::n := by
    have hsplit : s ++ ' '::n = (s ++ [' ']) ++ n := by simp
    rw [hsplit, trim_end_append _ (by rw [trim_end_of_solid hsolid]; exact hn.ne_nil),
      trim_end_of_solid hsolid]
  have hword : (n.reverse ++ ' '::s.reverse).takeWhile (!isBlank ·) = n.reverse := by
    rw [List.takeWhile_append_of_pos (by simpa using hsolid)]
    simp [is_blank_space]
  rw [lastWord, hend]
  simp [hword]

theorem whole_name_of_name (hn : IsName n) : wholeName? n = some n := by
  have hstars : dropStars (n ++ []) = n ++ [] := drop_stars_name hn []
  have hsplit : splitName? (n ++ []) = some (n, []) := split_name_append hn (by simp)
  rw [List.append_nil] at hstars hsplit
  rw [wholeName?, hstars, hsplit]

theorem after_word_append {words : List Line} {word : Line} (hword : word ∈ words)
    (hletters : word.all Char.isAlpha = true) (rest : Line) :
    afterWord? words (word ++ ' '::rest) = some (' '::rest) := by
  have halpha : ∀ c ∈ word, c.isAlpha = true := List.all_eq_true.mp hletters
  have htake : (word ++ ' '::rest).takeWhile Char.isAlpha = word := by
    rw [List.takeWhile_append_of_pos halpha]
    simp
  have hdrop : (word ++ ' '::rest).dropWhile Char.isAlpha = ' '::rest := by
    rw [List.dropWhile_append_of_pos halpha]
    simp
  simp [afterWord?, htake, hdrop, isOneOf, hword, is_blank_space]

theorem colon_tag_head (t : Tag) {type : Option Line} (ht : ∀ s ∈ type, ':' ∉ s) :
    colonTag? (':'::("param".toList ++ (typeText type ++ ' '::t.name) ++ ':' :: ' '::t.first)) =
      some (described t.name [t.first]) := by
  have hname : ':' ∉ t.name := t.isName.not_mem (by decide)
  have hplain : ':' ∉ typeText type ++ ' '::t.name := by
    cases type with
    | none => simp [typeText, hname]
    | some s => simp [typeText, hname, ht s rfl]
  have hbody : afterWord? colonWords ("param".toList ++ (typeText type ++ ' '::t.name) ++
      ':' :: ' '::t.first) = some ((typeText type ++ ' '::t.name) ++ ':' :: ' '::t.first) := by
    rw [List.append_assoc]
    cases type with
    | none => exact after_word_append (by decide) (by decide) _
    | some s => exact after_word_append (by decide) (by decide) _
  have hafter : afterColon? (' '::t.first) = some (String.ofList t.first) := by
    rw [afterColon?, if_pos is_blank_space]
    exact sentence_trimmed t.isSentence.1 t.isSentence.2
  rw [colonTag?, hbody]
  simp only [Option.bind_eq_bind, Option.bind_some]
  rw [List.takeWhile_append_of_pos (ne_of_not_mem hplain),
    List.dropWhile_append_of_pos (ne_of_not_mem hplain)]
  simp [last_word_append, t.isName, whole_name_of_name, hafter, described_single]

theorem at_tag_head (t : Tag) :
    atTag? ('@'::("param".toList ++ ' '::(t.name ++ ':' :: ' '::t.first))) =
      some (described t.name [t.first]) := by
  have hskip : skipBlanks (' '::(t.name ++ ':' :: ' '::t.first)) =
      t.name ++ ':' :: ' '::t.first := skip_blanks_name t.isName _
  have hsplit : splitName? (t.name ++ ':' :: ' '::t.first) =
      some (t.name, ':' :: ' '::t.first) := split_name_cons t.isName (by decide) _
  have htext : atText? (':' :: ' '::t.first) = some (String.ofList t.first) :=
    sentence_space t.isSentence.1 t.isSentence.2
  rw [atTag?, after_word_append (by decide) (by decide)]
  simp [hskip, drop_stars_name t.isName, hsplit, htext, described_single]

theorem tag_head (t : Tag) : tag? t.head = some (described t.name [t.first]) := by
  rw [tag?, Tag.head]
  cases hform : t.form with
  | colon type =>
    have ht : ∀ s ∈ type, ':' ∉ s := by simpa [hform, Form.type?] using t.isType
    simp only [colon_tag_head t ht, Option.some_or]
  | atSign =>
    simp only [at_tag_head]
    rfl

theorem tag_unmarked (h : isMark s = false) : tag? s = none := by
  cases s with
  | nil => rfl
  | cons c s =>
    have hc : c ≠ ':' ∧ c ≠ '@' := by simpa [isMark] using h
    simp [tag?, colonTag?, atTag?, hc.1, hc.2]

theorem run_blank (s : State) {l : Line} (hl : trim l = []) :
    scanner.run s [l] = scanner.finish s := by
  have htag : tag? [] = none := rfl
  simp [Scanner.run, scanner, step, hl, htag, isMark]

theorem step_untagged {k : Nat} {l : Line} (htag : tag? (trim l) = none) :
    scanner.step ⟨none, k⟩ l = (⟨none, k⟩, []) := by
  by_cases h : (isMark (trim l) || indent l ≤ k) = true <;> simp [scanner, step, htag, h]

/-- The indentation of a tag counts only as long as its entry is open. -/
theorem run_closed (k k' : Nat) (ls : List Line) :
    scanner.run ⟨none, k⟩ ls = scanner.run ⟨none, k'⟩ ls := by
  induction ls with
  | nil => rfl
  | cons l ls ih =>
    cases htag : tag? (trim l) with
    | some e => simp [Scanner.run, scanner, step, htag]
    | none => rw [Scanner.run, Scanner.run, step_untagged htag, step_untagged htag, ih]

def State.shift (k : Nat) (s : State) : State := ⟨s.current, s.tagIndent+k⟩

theorem step_shifted (s : State) {k : Nat} {l l' : Line} (h : Shifted k l l') :
    step (s.shift k) l' = ((step s l).1.shift k, (step s l).2) := by
  show step ⟨s.current, s.tagIndent+k⟩ l' = _
  cases htag : tag? (trim l) with
  | some e =>
    have hne : trim l ≠ [] := by
      intro hl
      rw [hl] at htag
      contradiction
    simp [step, State.shift, h.1, htag, h.2 hne]
  | none =>
    -- A blank line ends the entry by its text, and its indentation is free.
    have hends : isMark (trim l) = true ∨ indent l' ≤ s.tagIndent + k ↔
        isMark (trim l) = true ∨ indent l ≤ s.tagIndent := by
      by_cases hl : trim l = []
      · simp [hl, isMark]
      · rw [h.2 hl, Nat.add_le_add_iff_right]
    simp only [step, h.1, htag, Bool.or_eq_true, decide_eq_true_eq, hends, continued_congr h.1]
    split <;> rfl

theorem shifts : scanner.Shifts State.shift where
  zero := fun _ => rfl
  step := fun s _ _ _ h => step_shifted s h
  finish := fun _ _ => rfl
  start := fun k ls => run_closed (0+k) 0 ls

theorem sees_text : scanner.SeesText where
  alike := fun s _ _ h => shifts.alike s h
  empty := fun s => run_blank s rfl

variable {s : State} {l : Line}

theorem step_tag (s : State) {t : Tag} (hl : trim l = t.head) :
    scanner.step s l = (⟨some (described t.name [t.first]), indent l⟩, scanner.finish s) := by
  have htag : tag? (trim l) = some (described t.name [t.first]) := by
    rw [hl, tag_head]
  simp only [scanner, step, htag]

theorem step_continued {k : Nat} (hl : isMark (trim l) = false) (hdeeper : k < indent l)
    (x : Entry) :
    scanner.step ⟨some x, k⟩ l = (⟨some (if trim l = [] then x else x.continued l), k⟩, []) := by
  have hne : trim l ≠ [] := by
    intro h
    rw [h] at hl
    contradiction
  have hbelow : ¬ indent l ≤ k := by omega
  simp [scanner, step, tag_unmarked hl, hl, hbelow, hne]

theorem step_ended (htag : tag? (trim l) = none)
    (hl : isMark (trim l) = true ∨ indent l ≤ s.tagIndent) :
    scanner.step s l = (⟨none, s.tagIndent⟩, scanner.finish s) := by
  simp [scanner, step, htag, hl]

theorem run_tail {tail : List Line} (htail : ∀ l ∈ tail, tag? (trim l) = none)
    (hend : ∀ l ∈ tail.head?, isMark (trim l) = true) (s : State) :
    scanner.run s tail = scanner.finish s := by
  cases tail with
  | nil => rfl
  | cons l rest =>
    obtain ⟨hl, hrest⟩ := List.forall_mem_cons.mp htail
    have hquiet : scanner.run ⟨none, s.tagIndent⟩ rest = [] :=
      Scanner.run_quiet fun c hc => step_untagged (hrest c hc)
    rw [Scanner.run, step_ended hl (.inl (hend l rfl)), hquiet]
    exact List.append_nil _

theorem run_block {tags : List Tag} {block tail : List Line} (h : Laid Documents tags block)
    (htail : ∀ l ∈ tail, tag? (trim l) = none)
    (hend : ∀ l ∈ tail.head?, isMark (trim l) = true) :
    scanner.run s (block++tail) = scanner.finish s ++ tags.map fun t => t.entry := by
  have hitem : ∀ s (t : Tag) l more, Documents t l more →
      scanner.run s (l::more) = scanner.finish s ++ [t.entry] := by
    intro s t l more ht
    have hunmarked : ∀ c ∈ more, isMark (trim c) = false :=
      fun c hc => t.unmarked _ (t.trim_mem ht.texts c hc)
    have hrun := scanner.run_item (fun x => ⟨some x, indent l⟩) (fun _ => rfl) (step_tag s ht.head)
      (fun x c hc => step_continued (hunmarked c hc) (ht.deeper c hc) x) (t.texts_filter ht.texts)
    exact hrun.2
  exact Scanner.run_laid (fun _ => True) (fun s l _ hl => ⟨trivial, run_blank s hl⟩)
    (fun s t l more _ ht => ⟨trivial, hitem s t l more ht⟩) (fun s _ => run_tail htail hend s) h
    trivial

/-- Tags read back as their parameters in their order and as nothing else, wherever each of them
stands, and whatever the types look like. -/
theorem parse_tags {tags : List Tag} (hnames : (tags.map fun t => t.name).Nodup)
    {pre block tail : List Line} (hpre : ∀ l ∈ pre, tag? (trim l) = none)
    (hblock : Laid Documents tags block) (htail : ∀ l ∈ tail, tag? (trim l) = none)
    (hend : ∀ l ∈ tail.head?, isMark (trim l) = true)
    (hlines : ∀ l ∈ pre ++ (block++tail), '\n' ∉ l) :
    (parse .sphinx (String.ofList (joinLines (pre ++ (block++tail))))).params =
      tags.map fun t => t.param := by
  have hskip : ∀ l ∈ pre, scanner.step ⟨none, 0⟩ l = (⟨none, 0⟩, []) :=
    fun l hl => step_untagged (hpre l hl)
  have hfound : scanner.entries (pre ++ (block++tail)) =
      (tags.map Tag.toDocumented).map Documented.entry := by
    have hstart : scanner.start = ⟨none, 0⟩ := rfl
    rw [Scanner.entries, hstart, Scanner.run_skip hskip, run_block hblock htail hend,
      List.map_map]
    rfl
  rw [params_written rfl rfl sees_text hlines (by rwa [List.map_map]) hfound, List.map_map]
  rfl

/-- A type that ends in names, a continuation line that lacks only the mark of a tag, and a tag at a
lower indentation after a blank line. -/
theorem typed_and_at_tags :
    let key : Tag := ⟨⟨"key".toList, "x: y".toList, ["param b: none".toList], by decide, by decide,
      by decide⟩, .colon (some "List[str] or *None a".toList), by decide, by decide, by decide⟩
    let b : Tag := ⟨⟨"b\u00E9".toList, "@b :c".toList, [], by decide, by decide, by decide⟩,
      .atSign, by decide, by decide, by decide⟩
    let tag := "\u00A0 :param List[str] or *None a key: x: y".toList
    let more := ["\t\t\t\tparam b: none ".toList]
    let next := "@param b\u00E9: @b :c".toList
    let pre := [":parameters: two".toList, "  of them".toList]
    let block := tag::(more ++ "  ".toList::next::([] ++ []))
    let tail := ["  :returns: both".toList, "   at once".toList]
    ([key, b].map fun t => t.name).Nodup ∧ (∀ l ∈ pre, tag? (trim l) = none) ∧
      Laid Documents [key, b] block ∧ (∀ l ∈ tail, tag? (trim l) = none) ∧
      (∀ l ∈ tail.head?, isMark (trim l) = true) ∧ (∀ l ∈ pre ++ (block++tail), '\n' ∉ l) ∧
      (parse .sphinx (String.ofList (joinLines (pre ++ (block++tail))))).params =
        [("key", "x: y param b: none"), ("b\u00E9", "@b :c")] := by
  intro key b tag more next pre block tail
  have hnames : ([key, b].map fun t => t.name).Nodup := by decide
  have hpre : ∀ l ∈ pre, tag? (trim l) = none := by decide
  have hkey : Documents key tag more := ⟨by decide, by decide, by decide⟩
  have hb : Documents b next [] := ⟨by decide, by decide, by decide⟩
  have hblock : Laid Documents [key, b] block := .item hkey (.blank (by decide) (.item hb .nil))
  have htail : ∀ l ∈ tail, tag? (trim l) = none := by decide
  have hend : ∀ l ∈ tail.head?, isMark (trim l) = true := by decide
  have hlines : ∀ l ∈ pre ++ (block++tail), '\n' ∉ l := by decide
  exact ⟨hnames, hpre, hblock, htail, hend, hlines,
    parse_tags hnames hpre hblock htail hend hlines⟩

end ToolSpec.Docstring.FieldTags
