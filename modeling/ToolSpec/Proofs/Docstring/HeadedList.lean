import ToolSpec.Proofs.Docstring.Scanning

/-!
# Lists under a heading read back

Below its heading a list gives each parameter as an item, with or without ticks around the name. The
text of an item is split off once: what looks like a second separator belongs to the description.
-/

set_option autoImplicit false

namespace ToolSpec.Docstring.HeadedList
open ToolSpec.Text

/-- An item with a star separates by a dash, an item with a dash by a colon. -/
inductive Form
  | star
  | dash

def isMarked : Line → Bool
  | [] => false
  | c::_ => c = '#' || c = '*' || c = '-'

/-- A parameter as an item documents it. Its continuation lines are no items and no headings. -/
structure Item extends Documented where
  form : Form
  ticked : Bool
  hasFirst : first ≠ []
  unmarked : ∀ t ∈ more, isMarked t = false

namespace Item

def nameText (i : Item) : Line := if i.ticked then '\x60'::(i.name ++ ['\x60']) else i.name

def head (i : Item) : Line :=
  match i.form with
  | .star => '*' :: ' '::(i.nameText ++ ' ' :: '-' :: ' '::i.first)
  | .dash => '-' :: ' '::(i.nameText ++ ':' :: ' '::i.first)

end Item

structure Documents (i : Item) (l : Line) (more : List Line) : Prop where
  head : trim l = i.head
  texts : more.map trim = i.more

def headingText (depth : Nat) (word : Line) : Line :=
  List.replicate (depth+1) '#' ++ ' '::word

theorem is_heading_text (depth : Nat) {word : Line} (h : word ∈ headings) :
    isHeading (headingText depth word) = true := by
  have hdrop : (headingText depth word).dropWhile (· = '#') = ' '::word := by
    rw [headingText, List.dropWhile_append_of_pos (by simp)]
    simp
  have hskip : skipBlanks (' '::word) = word := by
    have hwords : ∀ w ∈ headings, skipBlanks (' '::w) = w := by decide
    exact hwords word h
  have hhashed : isHashed (headingText depth word) = true := by
    simp [headingText, List.replicate_succ, isHashed]
  rw [isHeading, hhashed, hdrop, hskip]
  simpa [isOneOf] using h

theorem skip_tick_cons {c : Char} (hc : c ≠ '\x60') (s : Line) : skipTick (c::s) = c::s := by
  simp [skipTick, hc]

theorem skip_tick_name {n : Line} (hn : IsName n) (rest : Line) : skipTick (n++rest) = n++rest := by
  obtain ⟨c, s, rfl, hc⟩ := hn.exists_cons
  exact skip_tick_cons (word_ne hc (by decide)) _

/-- The name is read off with its ticks, so that the separator comes next. -/
theorem split_name_text (i : Item) {c : Char} (hc : isWordChar c = false ∧ c ≠ '\x60')
    (rest : Line) :
    ∃ after, splitName? (skipTick (skipBlanks (i.nameText ++ c::rest))) = some (i.name, after) ∧
      skipTick after = c::rest := by
  rw [Item.nameText]
  cases i.ticked with
  | true =>
    refine ⟨'\x60'::c::rest, ?_, rfl⟩
    have hskip : skipBlanks ('\x60'::(i.name ++ ['\x60']) ++ c::rest) =
        '\x60'::(i.name ++ '\x60'::c::rest) := by
      simp [skipBlanks, isBlank]
    rw [if_pos rfl, hskip, skipTick]
    exact split_name_cons i.isName (by decide) _
  | false =>
    refine ⟨c::rest, ?_, skip_tick_cons hc.2 rest⟩
    rw [if_neg Bool.false_ne_true, skip_blanks_name i.isName, skip_tick_name i.isName]
    exact split_name_cons i.isName hc.1 rest

theorem item_name_text (i : Item) {mark c : Char} (hmark : mark = '*' ∨ mark = '-')
    (hc : isWordChar c = false ∧ c ≠ '\x60') {rest : Line} {text : String}
    (htext : itemText? (c::rest) = some text) :
    item? (mark :: ' '::(i.nameText ++ c::rest)) = some ⟨String.ofList i.name, text⟩ := by
  obtain ⟨after, hsplit, hafter⟩ := split_name_text i hc rest
  rw [item?, if_pos ⟨hmark, is_blank_space⟩, hsplit]
  simp [hafter, htext]

theorem item_head (i : Item) : item? i.head = some (described i.name [i.first]) := by
  have htext : sentence? (' '::i.first) = some (String.ofList i.first) :=
    sentence_space i.isSentence.1 i.isSentence.2
  rw [described_single, Item.head]
  cases i.form with
  | star => exact item_name_text i (by decide) (by decide) htext
  | dash => exact item_name_text i (by decide) (by decide) htext

variable {s : Line}

theorem of_unmarked (h : isMarked s = false) : isHashed s = false ∧ item? s = none := by
  match s with
  | [] => exact ⟨rfl, rfl⟩
  | mark::rest =>
    obtain ⟨hhash, hstar, hdash⟩ : mark ≠ '#' ∧ mark ≠ '*' ∧ mark ≠ '-' := by
      simpa [isMarked, and_assoc] using h
    cases rest <;> simp [isHashed, item?, hhash, hstar, hdash]

theorem run_blank (s : State) {l : Line} (hl : trim l = []) :
    scanner.run s [l] = scanner.finish s := by
  have hitem : item? [] = none := rfl
  cases s <;> simp [Scanner.run, scanner, step, pending, hl, isHashed, hitem]

theorem shifts : scanner.Shifts fun _ s => s where
  zero := fun _ => rfl
  step := by
    rintro s k l l' ⟨htrim, _⟩
    show step s l' = step s l
    simp [step, htrim, continued_congr htrim]
  finish := fun _ _ => rfl
  start := fun _ _ => rfl

theorem sees_text : scanner.SeesText where
  alike := fun s _ _ h => shifts.alike s h
  empty := fun s => run_blank s rfl

variable {l : Line}

theorem step_outside (hl : isHeading (trim l) = false) :
    scanner.step .outside l = (.outside, []) := by
  by_cases hhashed : isHashed (trim l) = true <;> simp [scanner, step, pending, hhashed, hl]

theorem step_hashed (hhashed : isHashed (trim l) = true) (s : State) :
    scanner.step s l =
      (if isHeading (trim l) then .inside none else .outside, scanner.finish s) := by
  simp [scanner, step, hhashed]

theorem step_heading {depth : Nat} {word : Line} (hl : trim l = headingText depth word)
    (hword : word ∈ headings) : scanner.step .outside l = (.inside none, []) := by
  have hheading : isHeading (trim l) = true := by
    rw [hl, is_heading_text depth hword]
  have hhashed : isHashed (trim l) = true := (Bool.and_eq_true _ _ ▸ hheading).1
  rw [step_hashed hhashed, if_pos hheading]
  rfl

theorem step_other (hhashed : isHashed (trim l) = true) (hl : isHeading (trim l) = false)
    (s : State) : scanner.step s l = (.outside, scanner.finish s) := by
  simp [step_hashed hhashed, hl]

theorem step_item {i : Item} (hl : trim l = i.head) (current : Option Entry) :
    scanner.step (.inside current) l =
      (.inside (some (described i.name [i.first])), scanner.finish (.inside current)) := by
  have hhashed : isHashed i.head = false := by
    rw [Item.head]
    cases i.form <;> rfl
  simp [scanner, step, pending, hl, hhashed, item_head]

theorem step_blank (hl : trim l = []) (current : Option Entry) :
    scanner.step (.inside current) l = (.inside none, scanner.finish (.inside current)) := by
  have hitem : item? [] = none := rfl
  simp [scanner, step, pending, hl, isHashed, hitem]

theorem step_continued (hne : trim l ≠ []) (hl : isMarked (trim l) = false) (x : Entry) :
    scanner.step (.inside (some x)) l =
      (.inside (some (if trim l = [] then x else x.continued l)), []) := by
  obtain ⟨hhashed, hitem⟩ := of_unmarked hl
  simp [scanner, step, hhashed, hitem, hne]

theorem run_tail {tail : List Line} (htail : ∀ l ∈ tail, isHeading (trim l) = false)
    (hend : ∀ l ∈ tail.head?, isHashed (trim l) = true) (s : State) :
    scanner.run s tail = scanner.finish s := by
  cases tail with
  | nil => rfl
  | cons l rest =>
    obtain ⟨hl, hrest⟩ := List.forall_mem_cons.mp htail
    have hquiet : scanner.run .outside rest = [] :=
      Scanner.run_quiet fun c hc => step_outside (hrest c hc)
    rw [Scanner.run, step_other (hend l rfl) hl, hquiet]
    exact List.append_nil _

def Inside (s : State) : Prop := ∃ current, s = .inside current

theorem run_section {items : List Item} {block tail : List Line} (h : Laid Documents items block)
    (htail : ∀ l ∈ tail, isHeading (trim l) = false)
    (hend : ∀ l ∈ tail.head?, isHashed (trim l) = true) :
    scanner.run (.inside none) (block++tail) = items.map fun i => i.entry := by
  have hblank : ∀ s l, Inside s → trim l = [] →
      Inside (scanner.step s l).1 ∧ scanner.run s [l] = scanner.finish s := by
    rintro s l ⟨current, rfl⟩ hl
    rw [step_blank hl]
    exact ⟨⟨none, rfl⟩, run_blank _ hl⟩
  have hitem : ∀ s (i : Item) l more, Inside s → Documents i l more →
      Inside (scanner.through s (l::more)).1 ∧
        scanner.run s (l::more) = scanner.finish s ++ [i.entry] := by
    rintro s i l more ⟨current, rfl⟩ hi
    have htext : ∀ c ∈ more, trim c ∈ i.more := i.trim_mem hi.texts
    have hrun := scanner.run_item (fun x => .inside (some x)) (fun _ => rfl)
      (step_item hi.head current)
      (fun x c hc => step_continued (i.isText _ (htext c hc)).2.2 (i.unmarked _ (htext c hc)) x)
      (i.texts_filter hi.texts)
    rw [hrun.1]
    exact ⟨⟨some i.entry, rfl⟩, hrun.2⟩
  exact Scanner.run_laid Inside hblank hitem (fun s _ => run_tail htail hend s) h ⟨none, rfl⟩

/-- A list reads back as its parameters in their order, and neither the lines before its heading nor
the later sections add any. -/
theorem parse_section {items : List Item} (hnames : (items.map fun i => i.name).Nodup)
    {pre block tail : List Line} {heading word : Line} {depth : Nat}
    (hpre : ∀ l ∈ pre, isHeading (trim l) = false) (hword : word ∈ headings)
    (hheading : trim heading = headingText depth word) (hblock : Laid Documents items block)
    (htail : ∀ l ∈ tail, isHeading (trim l) = false)
    (hend : ∀ l ∈ tail.head?, isHashed (trim l) = true)
    (hlines : ∀ l ∈ pre ++ heading::(block++tail), '\n' ∉ l) :
    (parse .rustdoc (String.ofList (joinLines (pre ++ heading::(block++tail))))).params =
      items.map fun i => i.param := by
  have hskip : ∀ l ∈ pre, scanner.step .outside l = (.outside, []) :=
    fun l hl => step_outside (hpre l hl)
  have hfound : scanner.entries (pre ++ heading::(block++tail)) =
      (items.map Item.toDocumented).map Documented.entry := by
    have hstart : scanner.start = .outside := rfl
    rw [Scanner.entries, hstart, Scanner.run_skip hskip, Scanner.run,
      step_heading hheading hword, run_section hblock htail hend, List.map_map]
    rfl
  rw [params_written rfl rfl sees_text hlines (by rwa [List.map_map]) hfound, List.map_map]
  rfl

/-- Descriptions that start with a separator, and items outside the section. -/
theorem separators_in_descriptions :
    let dest : Item := ⟨⟨"to".toList, "- : whom".toList, [": or what".toList], by decide, by decide,
      by decide⟩, .star, true, by decide, by decide⟩
    let count : Item := ⟨⟨"n_1".toList, ":- how many".toList, [], by decide, by decide, by decide⟩,
      .dash, false, by decide, by decide⟩
    let item := " * \x60to\x60 - - : whom".toList
    let more := [": or what\t".toList]
    let next := "- n_1: :- how many".toList
    let pre := ["Sends.".toList, "* \x60early\x60 - none".toList]
    let heading := "  ### Params".toList
    let block := []::item::(more ++ "\t".toList::next::([] ++ []))
    let tail := ["#Argument".toList, "* late - none".toList]
    ([dest, count].map fun i => i.name).Nodup ∧ (∀ l ∈ pre, isHeading (trim l) = false) ∧
      "Params".toList ∈ headings ∧ trim heading = headingText 2 "Params".toList ∧
      Laid Documents [dest, count] block ∧ (∀ l ∈ tail, isHeading (trim l) = false) ∧
      (∀ l ∈ tail.head?, isHashed (trim l) = true) ∧
      (∀ l ∈ pre ++ heading::(block++tail), '\n' ∉ l) ∧
      (parse .rustdoc (String.ofList (joinLines (pre ++ heading::(block++tail))))).params =
        [("to", "- : whom : or what"), ("n_1", ":- how many")] := by
  intro dest count item more next pre heading block tail
  have hnames : ([dest, count].map fun i => i.name).Nodup := by decide
  have hpre : ∀ l ∈ pre, isHeading (trim l) = false := by decide
  have hword : "Params".toList ∈ headings := by decide
  have hheading : trim heading = headingText 2 "Params".toList := by decide
  have hdest : Documents dest item more := ⟨by decide, by decide⟩
  have hcount : Documents count next [] := ⟨by decide, by decide⟩
  have hblock : Laid Documents [dest, count] block :=
    .blank (by decide) (.item hdest (.blank (by decide) (.item hcount .nil)))
  have htail : ∀ l ∈ tail, isHeading (trim l) = false := by decide
  have hend : ∀ l ∈ tail.head?, isHashed (trim l) = true := by decide
  have hlines : ∀ l ∈ pre ++ heading::(block++tail), '\n' ∉ l := by decide
  exact ⟨hnames, hpre, hword, hheading, hblock, htail, hend, hlines,
    parse_section hnames hpre hword hheading hblock htail hend hlines⟩

end ToolSpec.Docstring.HeadedList
