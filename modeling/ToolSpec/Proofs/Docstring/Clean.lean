import ToolSpec.Proofs.Docstring.FieldTags
import ToolSpec.Proofs.Docstring.HeadedList
import ToolSpec.Proofs.Json.Keys

/-!
# Clean entries

Whatever a text looks like, its docstring has clean parts. Names are names, and the summary and the
descriptions are on one line, without blanks at their ends. A scanner reads an entry from one line
and continues it by others, and both keep it clean.
-/

set_option autoImplicit false

namespace ToolSpec

namespace Text

variable {s t : Line}

/-- On one line, without blanks at its ends. -/
structure Clean (s : Line) : Prop where
  oneLine : '\n' ∉ s
  head : ∀ c ∈ s.head?, isBlank c = false
  last : ∀ c ∈ s.getLast?, isBlank c = false

theorem clean_nil : Clean [] := ⟨by simp, by simp, by simp⟩

theorem head_skip_blanks (s : Line) : ∀ c ∈ (skipBlanks s).head?, isBlank c = false := by
  intro c hc
  have hstop := List.head?_dropWhile_not isBlank s
  rw [Option.mem_def, skipBlanks] at hc
  rwa [hc] at hstop

theorem last_trim_end (s : Line) : ∀ c ∈ (trimEnd s).getLast?, isBlank c = false := by
  induction s with
  | nil => simp [trimEnd]
  | cons c s ih =>
    rw [trimEnd]
    split
    · split
      · simp
      · rename_i hc
        simpa using hc
    · rename_i hkept
      rw [List.getLast?_cons_of_ne_nil hkept]
      exact ih

theorem clean_trim (h : '\n' ∉ skipBlanks s) : Clean (trim s) where
  oneLine := not_mem_trim_end h
  head := by
    intro c hc
    obtain ⟨b, -, hs⟩ := exists_trim_end (skipBlanks s)
    apply head_skip_blanks s
    rw [← hs]
    exact List.mem_head?_append_of_mem_head? hc
  last := last_trim_end (skipBlanks s)

theorem newline_not_mem_skip_blanks (h : '\n' ∉ s) : '\n' ∉ skipBlanks s :=
  fun hmem => h ((List.dropWhile_suffix isBlank).mem hmem)

theorem Clean.join (hs : Clean s) (ht : Clean t) (hne : s ≠ []) (hne' : t ≠ []) :
    Clean (s ++ ' '::t) where
  oneLine := by simp [hs.oneLine, ht.oneLine]
  head := by
    rw [List.head?_append_of_ne_nil _ hne]
    exact hs.head
  last := by
    rw [List.getLast?_append_of_ne_nil _ (by simp), List.getLast?_cons_of_ne_nil hne']
    exact ht.last

theorem trim_eq_nil_iff : trim s = [] ↔ ∀ c ∈ s, isBlank c = true := by
  constructor
  · intro h
    have hblanks := blanks_of_trim_end h
    have hhead := head_skip_blanks s
    cases hs : skipBlanks s with
    | nil => exact List.dropWhile_eq_nil_iff.mp hs
    | cons c rest =>
      rw [hs] at hblanks hhead
      have hc := hhead c rfl
      rw [hblanks c List.mem_cons_self] at hc
      contradiction
  · intro h
    rw [trim, skip_blanks_of_blanks h, trimEnd]

end Text

namespace Docstring
open ToolSpec.Text

structure Entry.Clean (e : Entry) : Prop where
  name : IsName e.name.toList
  description : Text.Clean e.description.toList

variable {s n rest : Line} {d : String} {e : Entry}

theorem is_name_split_name (h : splitName? s = some (n, rest)) : IsName n := by
  cases s with
  | nil => contradiction
  | cons c s =>
    rw [splitName?] at h
    split at h
    · rename_i hc
      obtain ⟨rfl, -⟩ := Prod.mk.inj (Option.some.inj h)
      exact ⟨hc, fun d hd => List.mem_takeWhile_imp hd⟩
    · contradiction

theorem is_name_whole_name (h : FieldTags.wholeName? s = some n) : IsName n := by
  rw [FieldTags.wholeName?] at h
  split at h
  · rename_i name hname
    obtain rfl := Option.some.inj h
    exact is_name_split_name hname
  · contradiction

theorem clean_sentence (h : sentence? s = some d) : Text.Clean d.toList := by
  rw [sentence?] at h
  split at h
  · contradiction
  · rename_i hline
    obtain rfl := Option.some.inj h
    rw [String.toList_ofList]
    exact clean_trim hline

theorem clean_after_colon (h : afterColon? s = some d) : Text.Clean d.toList := by
  cases s with
  | nil =>
    obtain rfl := Option.some.inj h
    exact clean_nil
  | cons c s =>
    rw [afterColon?] at h
    split at h
    · exact clean_sentence h
    · contradiction

theorem clean_at_text (h : FieldTags.atText? s = some d) : Text.Clean d.toList := by
  unfold FieldTags.atText? at h
  split at h
  · obtain rfl := Option.some.inj h
    exact clean_nil
  · split at h
    · obtain rfl := Option.some.inj h
      exact clean_nil
    · split at h
      · exact clean_sentence h
      · split at h
        · contradiction
        · exact clean_sentence h
  · split at h
    · contradiction
    · exact clean_sentence h

theorem clean_item_text (h : HeadedList.itemText? s = some d) : Text.Clean d.toList := by
  unfold HeadedList.itemText? at h
  split at h
  · obtain rfl := Option.some.inj h
    exact clean_nil
  · split at h
    · exact clean_sentence h
    · contradiction

theorem clean_made (hn : IsName n) (hd : Text.Clean d.toList) :
    Entry.Clean ⟨String.ofList n, d⟩ := ⟨by rwa [String.toList_ofList], hd⟩

theorem clean_entry (h : ArgsBlock.entry? s = some e) : e.Clean := by
  simp only [ArgsBlock.entry?, Option.bind_eq_bind, Option.bind_eq_some_iff, Prod.exists] at h
  obtain ⟨name, rest, hname, after, -, h⟩ := h
  split at h
  · obtain ⟨d, hd, h⟩ := Option.bind_eq_some_iff.mp h
    obtain rfl := Option.some.inj h
    exact clean_made (is_name_split_name hname) (clean_after_colon hd)
  · contradiction

theorem clean_colon_tag (h : FieldTags.colonTag? s = some e) : e.Clean := by
  unfold FieldTags.colonTag? at h
  split at h
  · simp only [Option.bind_eq_bind, Option.bind_eq_some_iff] at h
    obtain ⟨body, -, name, hname, h⟩ := h
    split at h
    · obtain ⟨d, hd, h⟩ := Option.bind_eq_some_iff.mp h
      obtain rfl := Option.some.inj h
      exact clean_made (is_name_whole_name hname) (clean_after_colon hd)
    · contradiction
  · contradiction

theorem clean_at_tag (h : FieldTags.atTag? s = some e) : e.Clean := by
  unfold FieldTags.atTag? at h
  split at h
  · simp only [Option.bind_eq_bind, Option.bind_eq_some_iff, Prod.exists] at h
    obtain ⟨body, -, name, rest, hname, d, hd, h⟩ := h
    obtain rfl := Option.some.inj h
    exact clean_made (is_name_split_name hname) (clean_at_text hd)
  · contradiction

theorem clean_tag (h : FieldTags.tag? s = some e) : e.Clean := by
  rcases Option.or_eq_some_iff.mp h with hcolon | ⟨-, hat⟩
  · exact clean_colon_tag hcolon
  · exact clean_at_tag hat

theorem clean_item (h : HeadedList.item? s = some e) : e.Clean := by
  unfold HeadedList.item? at h
  split at h
  · split at h
    · simp only [Option.bind_eq_bind, Option.bind_eq_some_iff, Prod.exists] at h
      obtain ⟨name, rest, hname, d, hd, h⟩ := h
      obtain rfl := Option.some.inj h
      exact clean_made (is_name_split_name hname) (clean_item_text hd)
    · contradiction
  · contradiction

theorem Entry.Clean.continued (he : e.Clean) {l : Line} (hl : '\n' ∉ l) (hne : trim l ≠ []) :
    (e.continued l).Clean where
  name := he.name
  description := by
    have htrim := clean_trim (newline_not_mem_skip_blanks hl)
    rw [Entry.continued]
    by_cases hempty : e.description = ""
    · simpa [hempty] using htrim
    · have hsome : e.description.toList ≠ [] := by simpa using hempty
      simpa [hempty] using he.description.join htrim hsome hne

namespace Scanner

variable {σ : Type} {r : Scanner σ} {read? : Line → Option Entry}

/-- What a line may do to the entries that are held before it: what is emitted, and what is held
afterwards. A scanner holds one entry at most. -/
inductive Effect (read? : Line → Option Entry) (l : Line) (held : List Entry) :
    List Entry → List Entry → Prop
  | kept : Effect read? l held [] held
  | ended : Effect read? l held held []
  | begun {e : Entry} : read? (trim l) = some e → Effect read? l held held [e]
  | continued : trim l ≠ [] → Effect read? l held [] (held.map (Entry.continued l))

/-- A scanner whose entries are read from lines in this way and do nothing but begin, continue and
end. -/
structure Reads (r : Scanner σ) (read? : Line → Option Entry) : Prop where
  start : r.finish r.start = []
  step : ∀ s l, Effect read? l (r.finish s) (r.step s l).2 (r.finish (r.step s l).1)

variable {P : Entry → Prop} {ls : List Line}

theorem Effect.keeps {l : Line} {held emitted after : List Entry}
    (h : Effect read? l held emitted after) (hread : ∀ e, read? (trim l) = some e → P e)
    (hcontinued : trim l ≠ [] → ∀ e, P e → P (e.continued l)) (hheld : ∀ e ∈ held, P e) :
    (∀ e ∈ emitted, P e) ∧ ∀ e ∈ after, P e := by
  cases h with
  | kept => exact ⟨by simp, hheld⟩
  | ended => exact ⟨hheld, by simp⟩
  | begun he => exact ⟨hheld, by simpa using hread _ he⟩
  | continued hne =>
    refine ⟨by simp, List.forall_mem_map.mpr fun e he => ?_⟩
    exact hcontinued hne e (hheld e he)

theorem forall_run (hr : r.Reads read?) (hread : ∀ l ∈ ls, ∀ e, read? (trim l) = some e → P e)
    (hcontinued : ∀ l ∈ ls, trim l ≠ [] → ∀ e, P e → P (e.continued l)) (s : σ)
    (hs : ∀ e ∈ r.finish s, P e) : ∀ e ∈ r.run s ls, P e := by
  induction ls generalizing s with
  | nil => exact hs
  | cons l ls ih =>
    obtain ⟨hl, hls⟩ := List.forall_mem_cons.mp hread
    obtain ⟨hl', hls'⟩ := List.forall_mem_cons.mp hcontinued
    obtain ⟨hemitted, hafter⟩ := (hr.step s l).keeps hl hl' hs
    exact List.forall_mem_append.mpr ⟨hemitted, ih hls hls' _ hafter⟩

theorem clean_entries (hr : r.Reads read?) (hread : ∀ t e, read? t = some e → e.Clean)
    (hls : ∀ l ∈ ls, '\n' ∉ l) : ∀ e ∈ r.entries ls, e.Clean := by
  refine forall_run hr ?_ ?_ r.start ?_
  · exact fun l _ e he => hread (trim l) e he
  · exact fun l hl hne e he => he.continued (hls l hl) hne
  · simp [hr.start]

end Scanner

theorem ArgsBlock.finish_enter (l : Line) : finish (enter l) = [] := by
  rw [enter]
  split <;> rfl

theorem ArgsBlock.reads : ArgsBlock.scanner.Reads entry? where
  start := rfl
  step := by
    rintro (_ | ⟨header, level, current⟩) l
    · show Scanner.Effect _ _ [] [] (finish (enter l))
      rw [finish_enter]
      exact .kept
    · by_cases hblank : trim l = []
      · simpa [scanner, step, hblank] using .kept
      · by_cases hclosed : indent l ≤ header
        · simpa [scanner, step, hblank, hclosed, finish_enter] using .ended
        · simp only [scanner, step, hblank, hclosed, if_false]
          split
          · rename_i e he
            split at he
            · exact .begun he
            · contradiction
          · have hmap : finish (.inside header (some (level.getD (indent l)))
                (current.map (Entry.continued l))) =
                (finish (.inside header level current)).map (Entry.continued l) := by
              cases current <;> rfl
            rw [hmap]
            exact .continued hblank

theorem FieldTags.reads : FieldTags.scanner.Reads tag? where
  start := rfl
  step := by
    rintro ⟨current, tagIndent⟩ l
    cases htag : tag? (trim l) with
    | some e => simpa [scanner, step, htag] using .begun htag
    | none =>
      by_cases hended : isMark (trim l) = true ∨ indent l ≤ tagIndent
      · rw [step_ended htag hended]
        exact .ended
      · have hne : trim l ≠ [] := by
          intro h
          rw [h] at hended
          exact hended (.inl rfl)
        cases current with
        | none => simpa [scanner, step, htag, hended] using .kept
        | some e => simpa [scanner, step, htag, hended] using .continued hne

theorem HeadedList.reads : HeadedList.scanner.Reads item? where
  start := rfl
  step := by
    intro s l
    by_cases hhashed : isHashed (trim l) = true
    · have hnew : pending (if isHeading (trim l) then .inside none else .outside) = [] := by
        split <;> rfl
      rw [step_hashed hhashed]
      show Scanner.Effect _ _ _ _ (pending _)
      rw [hnew]
      exact .ended
    · cases s with
      | outside => simpa [scanner, step, hhashed] using .kept
      | inside current =>
        cases hitem : item? (trim l) with
        | some e => simpa [scanner, step, hhashed, hitem, pending] using .begun hitem
        | none =>
          by_cases hblank : trim l = []
          · rw [step_blank hblank]
            exact .ended
          · cases current with
            | none => simpa [scanner, step, hhashed, hitem, hblank, pending] using .kept
            | some e =>
              simpa [scanner, step, hhashed, hitem, hblank, pending] using .continued hblank

theorem Layout.clean_entries (layout : Layout) {ls : List Line} (h : ∀ l ∈ ls, '\n' ∉ l) :
    ∀ e ∈ layout.entries ls, e.Clean := by
  cases layout with
  | argsBlock => exact Scanner.clean_entries ArgsBlock.reads (fun _ _ => clean_entry) h
  | fieldTags => exact Scanner.clean_entries FieldTags.reads (fun _ _ => clean_tag) h
  | headedList => exact Scanner.clean_entries HeadedList.reads (fun _ _ => clean_item) h

theorem mem_first_wins {es : List Entry} {name description : String}
    (h : (name, description) ∈ firstWins es) : ⟨name, description⟩ ∈ es := by
  induction es with
  | nil => simp [firstWins] at h
  | cons e es ih =>
    rcases List.mem_cons.mp h with heq | hmem
    · obtain ⟨rfl, rfl⟩ := Prod.mk.inj heq
      exact List.mem_cons_self
    · exact List.mem_cons_of_mem _ (ih (List.mem_of_mem_filter hmem))

theorem nodup_first_wins (es : List Entry) : (Fields.keys (firstWins es)).Nodup := by
  induction es with
  | nil => exact .nil
  | cons e es ih =>
    rw [firstWins, Fields.keys, List.map_cons, List.nodup_cons]
    refine ⟨?_, Fields.nodup_keys_filter _ ih⟩
    simp

theorem summary_of_cons (l : Line) (ls : List Line) :
    summaryOf (l::ls) = if trim l = [] then summaryOf ls else String.ofList (trim l) := by
  by_cases hl : trim l = [] <;> simp [summaryOf, hl]

theorem clean_summary_of {ls : List Line} (h : ∀ l ∈ ls, '\n' ∉ l) :
    Text.Clean (summaryOf ls).toList := by
  induction ls with
  | nil => exact clean_nil
  | cons l ls ih =>
    obtain ⟨hl, hls⟩ := List.forall_mem_cons.mp h
    rw [summary_of_cons]
    split
    · exact ih hls
    · rw [String.toList_ofList]
      exact clean_trim (newline_not_mem_skip_blanks hl)

theorem summary_of_eq_empty_iff {ls : List Line} :
    summaryOf ls = "" ↔ ∀ l ∈ ls, ∀ c ∈ l, isBlank c = true := by
  induction ls with
  | nil => simp [summaryOf]
  | cons l ls ih =>
    rw [summary_of_cons, List.forall_mem_cons, ← ih, ← trim_eq_nil_iff]
    by_cases hl : trim l = [] <;> simp [hl]

/-- Every docstring is clean. Its summary and its descriptions are on one line, without blanks at
their ends, and the summary is empty exactly if all lines are blank. Its parameters have names, with
none of the signs that stand around them in the text, and no name occurs twice. -/
theorem parse_clean (style : DocstringStyle) (text : String) :
    let d := parse style text
    Text.Clean d.summary.toList ∧
      (d.summary = "" ↔ ∀ l ∈ lines text.toList, ∀ c ∈ l, isBlank c = true) ∧
      (∀ name description, (name, description) ∈ d.params →
        IsName name.toList ∧ (∀ c ∈ ['*', '\x60', ' '], c ∉ name.toList) ∧
          Text.Clean description.toList) ∧
      (Fields.keys d.params).Nodup := by
  intro d
  have hlines : ∀ l ∈ lines text.toList, '\n' ∉ l := fun _ => newline_not_mem_lines
  have hd : d = ⟨summaryOf (lines text.toList),
      firstWins (entriesOf style (lines text.toList))⟩ := parse_eq style text
  rw [hd]
  refine ⟨clean_summary_of hlines, summary_of_eq_empty_iff, ?_, nodup_first_wins _⟩
  intro name description h
  obtain ⟨layout, -, he⟩ := List.mem_flatMap.mp (mem_first_wins h)
  obtain ⟨hname, hdescription⟩ := layout.clean_entries hlines _ he
  refine ⟨hname, fun c hc => hname.not_mem ?_, hdescription⟩
  simp only [List.mem_cons, List.not_mem_nil, or_false] at hc
  rcases hc with rfl | rfl | rfl <;> decide

end Docstring

end ToolSpec
