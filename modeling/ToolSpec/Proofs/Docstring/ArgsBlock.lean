import ToolSpec.Proofs.Docstring.Scanning

/-!
# Argument blocks read back

Below its header a block lists parameters at one level and continues each of them deeper. Reading it
gives the parameters in their order. A continuation line may look like an entry itself: its
indentation alone tells it from one.
-/

set_option autoImplicit false

namespace ToolSpec.Docstring.ArgsBlock
open ToolSpec.Text

/-- A parameter as a block writes it, with up to two stars and with a type in parentheses. -/
structure Item extends Documented where
  stars : Nat
  type : Option Line
  atMostTwo : stars ≤ 2
  isType : ∀ t ∈ type, ')' ∉ t

def typeText : Option Line → Line
  | none => []
  | some t => ' ' :: '(' :: (t ++ [')'])

namespace Item

def afterName (i : Item) : Line :=
  typeText i.type ++ ':'::(if i.first = [] then [] else ' '::i.first)

def head (i : Item) : Line := List.replicate i.stars '*' ++ i.name ++ i.afterName

end Item

/-- The line has the level `e` and its continuation lines are deeper; blank ones may stand between
them. -/
structure Documents (e : Nat) (i : Item) (l : Line) (more : List Line) : Prop where
  head : trim l = i.head
  level : indent l = e
  texts : (more.map trim).filter (· ≠ []) = i.more
  deeper : ∀ c ∈ more, trim c ≠ [] → e < indent c

theorem drop_stars_replicate {n : Line} (hn : IsName n) (rest : Line) {k : Nat} (hk : k ≤ 2) :
    dropStars (List.replicate k '*' ++ n ++ rest) = n ++ rest := by
  rw [List.append_assoc]
  match k with
  | 0 => exact drop_stars_name hn rest
  | 1 => exact drop_stars_star_name hn rest
  | 2 => rfl

theorem skip_type_text {type : Option Line} (h : ∀ t ∈ type, ')' ∉ t) (rest : Line) :
    skipType? (skipBlanks (typeText type ++ ':'::rest)) = some (':'::rest) := by
  cases type with
  | none => rfl
  | some t =>
    have hskip : skipBlanks (typeText (some t) ++ ':'::rest) =
        '(' :: (t ++ ')' :: ':' :: rest) := by
      simp [typeText, skipBlanks, isBlank]
    rw [hskip, skipType?, List.dropWhile_append_of_pos (ne_of_not_mem (h t rfl))]
    rfl

theorem split_name_item (i : Item) :
    splitName? (i.name ++ i.afterName) = some (i.name, i.afterName) := by
  rw [Item.afterName]
  cases i.type with
  | none => exact split_name_cons i.isName (by decide) _
  | some t => exact split_name_cons i.isName (by decide) _

theorem after_colon_item (i : Item) :
    afterColon? (if i.first = [] then [] else ' '::i.first) = some (String.ofList i.first) := by
  by_cases h : i.first = []
  · rw [if_pos h, h]
    rfl
  · rw [if_neg h, afterColon?, if_pos is_blank_space]
    exact sentence_trimmed i.isSentence.1 i.isSentence.2

theorem entry_head (i : Item) : entry? i.head = some (described i.name [i.first]) := by
  have hcolon (rest : Line) : skipBlanks (':'::rest) = ':'::rest := rfl
  rw [Item.head, entry?, drop_stars_replicate i.isName _ i.atMostTwo, split_name_item]
  simp [Item.afterName, skip_type_text i.isType, hcolon, after_colon_item, described_single]

theorem run_blank (s : State) {l : Line} (hl : trim l = []) :
    scanner.run s [l] = scanner.finish s := by
  cases s <;> simp [Scanner.run, scanner, step, enter, finish, hl, isHeader, isOneOf, headers]

def State.shift (k : Nat) : State → State
  | .outside => .outside
  | .inside header level current => .inside (header+k) (level.map (·+k)) current

theorem enter_shifted {k : Nat} {l l' : Line} (h : Shifted k l l') :
    enter l' = (enter l).shift k := by
  by_cases hheader : isHeader (trim l) = true
  · have hne : trim l ≠ [] := by
      intro hl
      rw [hl] at hheader
      contradiction
    simp [enter, h.1, hheader, h.2 hne, State.shift]
  · simp [enter, h.1, hheader, State.shift]

theorem step_shifted (s : State) {k : Nat} {l l' : Line} (h : Shifted k l l') :
    step (s.shift k) l' = ((step s l).1.shift k, (step s l).2) := by
  cases s with
  | outside => simp only [State.shift, step, enter_shifted h]
  | inside header level current =>
    by_cases hl : trim l = []
    · simp [State.shift, step, h.1, hl]
    · have hfirst : (level.map (·+k)).getD (indent l + k) = level.getD (indent l) + k := by
        cases level <;> rfl
      -- Both sides of every comparison are larger by `k`.
      show step (.inside (header+k) (level.map (·+k)) current) l' = _
      simp only [step, h.1, hl, if_false, h.2 hl, hfirst, Nat.add_le_add_iff_right,
        continued_congr h.1, enter_shifted h]
      by_cases hclosed : indent l ≤ header
      · rw [if_pos hclosed, if_pos hclosed]
      · rw [if_neg hclosed, if_neg hclosed]
        split <;> rfl

theorem shifts : scanner.Shifts State.shift where
  zero := by
    rintro (_ | ⟨header, _ | level, current⟩) <;> rfl
  step := fun s _ _ _ h => step_shifted s h
  finish := by
    rintro k (_ | _) <;> rfl
  start := fun _ _ => rfl

theorem sees_text : scanner.SeesText where
  alike := fun s _ _ h => shifts.alike s h
  empty := fun s => run_blank s rfl

variable {header e : Nat} {l : Line}

theorem step_item {i : Item} (hl : trim l = i.head) (hlevel : indent l = e) (hdeeper : header < e)
    {level : Option Nat} (hopen : ∀ n ∈ level, n = e) (current : Option Entry) :
    scanner.step (.inside header level current) l =
      (.inside header (some e) (some (described i.name [i.first])),
        scanner.finish (.inside header level current)) := by
  have hne : trim l ≠ [] := by
    simp [hl, Item.head, i.isName.ne_nil]
  have hfirst : level.getD e = e := by
    cases level with
    | none => rfl
    | some n => exact hopen n rfl
  have hinside : ¬ e ≤ header := by omega
  have hentry : entry? (trim l) = some (described i.name [i.first]) := by
    rw [hl, entry_head]
  simp only [scanner, step, hlevel, if_neg hne, if_neg hinside, hfirst, le_refl, if_true, hentry]
  rfl

theorem step_continued (hdeeper : header < e) (h : trim l ≠ [] → e < indent l) (x : Entry) :
    scanner.step (.inside header (some e) (some x)) l =
      (.inside header (some e) (some (if trim l = [] then x else x.continued l)), []) := by
  by_cases hl : trim l = []
  · simp [scanner, step, hl]
  · have hindent := h hl
    have hinside : ¬ indent l ≤ header := by omega
    have hbelow : ¬ indent l ≤ e := by omega
    simp [scanner, step, hl, hinside, hbelow]

def Within (header e : Nat) (s : State) : Prop :=
  ∃ level current, s = .inside header level current ∧ ∀ n ∈ level, n = e

theorem run_block (hdeeper : header < e) {items : List Item} {block : List Line}
    (h : Laid (Documents e) items block) :
    scanner.run (.inside header none none) block = items.map fun i => i.entry := by
  have hblank : ∀ s l, Within header e s → trim l = [] →
      Within header e (scanner.step s l).1 ∧ scanner.run s [l] = scanner.finish s := by
    rintro s l ⟨level, current, rfl, hopen⟩ hl
    have hstep : scanner.step (.inside header level current) l =
        (.inside header level current, []) := by
      simp [scanner, step, hl]
    rw [hstep]
    exact ⟨⟨level, current, rfl, hopen⟩, run_blank _ hl⟩
  have hitem : ∀ s (i : Item) l more, Within header e s → Documents e i l more →
      Within header e (scanner.through s (l::more)).1 ∧
        scanner.run s (l::more) = scanner.finish s ++ [i.entry] := by
    rintro s i l more ⟨level, current, rfl, hopen⟩ hi
    have hrun := scanner.run_item (fun x => .inside header (some e) (some x)) (fun _ => rfl)
      (step_item hi.head hi.level hdeeper hopen current)
      (fun x c hc => step_continued hdeeper (hi.deeper c hc) x) hi.texts
    rw [hrun.1]
    exact ⟨⟨some e, some i.entry, rfl, by simp⟩, hrun.2⟩
  have hclose : ∀ s, Within header e s → scanner.run s [] = scanner.finish s := fun _ _ => rfl
  have hrun := Scanner.run_laid (Within header e) hblank hitem hclose h ⟨none, none, rfl, by simp⟩
  rwa [List.append_nil] at hrun

/-- A block reads back as its parameters in their order and as nothing else, whatever the
continuation lines look like. -/
theorem parse_block {items : List Item} (hnames : (items.map fun i => i.name).Nodup)
    {pre block : List Line} {header : Line} {e : Nat} (hpre : ∀ l ∈ pre, trim l ∉ headers)
    (hheader : trim header ∈ headers) (hdeeper : indent header < e)
    (hblock : Laid (Documents e) items block)
    (hlines : ∀ l ∈ pre ++ header::block, '\n' ∉ l) :
    (parse .google (String.ofList (joinLines (pre ++ header::block)))).params =
      items.map fun i => i.param := by
  have hskip : ∀ l ∈ pre, scanner.step .outside l = (.outside, []) := by
    intro l hl
    simp [scanner, step, enter, isHeader, isOneOf, hpre l hl]
  have henter : scanner.step .outside header = (.inside (indent header) none none, []) := by
    simp [scanner, step, enter, isHeader, isOneOf, hheader]
  have hfound : scanner.entries (pre ++ header::block) =
      (items.map Item.toDocumented).map Documented.entry := by
    have hstart : scanner.start = .outside := rfl
    rw [Scanner.entries, hstart, Scanner.run_skip hskip, Scanner.run, henter,
      run_block hdeeper hblock, List.map_map]
    rfl
  rw [params_written rfl rfl sees_text hlines (by rwa [List.map_map]) hfound, List.map_map]
  rfl

/-- Two continuation lines that look like entries, below the byte indentation of their entry. -/
theorem entry_like_continuations :
    let args : Item := ⟨⟨"to".toList, [], ["cc: copies".toList, "- b".toList], by decide, by decide,
      by decide⟩, 2, some "str: (x".toList, by decide, by decide⟩
    let count : Item := ⟨⟨"_n1".toList, "count (a): b".toList, [], by decide, by decide,
      by decide⟩, 0, none, by decide, by decide⟩
    let entry := "   **to (str: (x):".toList
    let more := ["     cc: copies".toList, "\t".toList, "\u3000\u3000- b".toList]
    let next := "\u3000_n1: count (a): b\r".toList
    let pre := ["Sends. Args:".toList]
    let header := " Keyword Args:".toList
    let block := []::entry::(more ++ next::([] ++ []))
    ([args, count].map fun i => i.name).Nodup ∧ (∀ l ∈ pre, trim l ∉ headers) ∧
      trim header ∈ headers ∧ indent header < 3 ∧ Laid (Documents 3) [args, count] block ∧
      (∀ l ∈ pre ++ header::block, '\n' ∉ l) ∧
      (parse .google (String.ofList (joinLines (pre ++ header::block)))).params =
        [("to", "cc: copies - b"), ("_n1", "count (a): b")] := by
  intro args count entry more next pre header block
  have hnames : ([args, count].map fun i => i.name).Nodup := by decide
  have hpre : ∀ l ∈ pre, trim l ∉ headers := by decide
  have hheader : trim header ∈ headers := by decide
  have hdeeper : indent header < 3 := by decide
  have hargs : Documents 3 args entry more := ⟨by decide, by decide, by decide, by decide⟩
  have hcount : Documents 3 count next [] := ⟨by decide, by decide, by decide, by decide⟩
  have hblock : Laid (Documents 3) [args, count] block :=
    .blank (by decide) (.item hargs (.item hcount .nil))
  have hlines : ∀ l ∈ pre ++ header::block, '\n' ∉ l := by decide
  exact ⟨hnames, hpre, hheader, hdeeper, hblock, hlines,
    parse_block hnames hpre hheader hdeeper hblock hlines⟩

end ToolSpec.Docstring.ArgsBlock
