import Mathlib.Data.List.Nodup
import ToolSpec.Docstring.Basic
import ToolSpec.Proofs.Docstring.Documented

/-!
# Scanning laid out parameters

A scanner sees of a line its text and the indentation of that text, so that it finds in a text what
it finds in the lines that were joined to it. If it reads what documents one parameter from a state
that is ready for it, and is ready again afterwards, it reads any number of them, one by one.
-/

set_option autoImplicit false

namespace ToolSpec.Docstring
open ToolSpec.Text

/-- Lines that document one parameter after another, with blank lines before each and at the end.
What documents one is its line and those that continue it. -/
inductive Laid {α : Type} (Documents : α → Line → List Line → Prop) : List α → List Line → Prop
  | nil : Laid Documents [] []
  | blank {ps : List α} {l : Line} {ls : List Line} :
      trim l = [] → Laid Documents ps ls → Laid Documents ps (l::ls)
  | item {p : α} {ps : List α} {l : Line} {more ls : List Line} :
      Documents p l more → Laid Documents ps ls → Laid Documents (p::ps) (l::(more++ls))

namespace Scanner

variable {σ : Type} {r : Scanner σ} {s : σ} {ls : List Line}

structure SeesText (r : Scanner σ) : Prop where
  alike : ∀ s {l l'}, Alike l l' → r.step s l = r.step s l'
  empty : ∀ s, r.run s [[]] = r.finish s

/-- A text that stands deeper is read in step with the text itself, from states that hold deeper
indentations. At the start none of them counts. -/
structure Shifts (r : Scanner σ) (shift : Nat → σ → σ) : Prop where
  zero : ∀ s, shift 0 s = s
  step : ∀ s {k l l'}, Shifted k l l' →
    r.step (shift k s) l' = (shift k (r.step s l).1, (r.step s l).2)
  finish : ∀ k s, r.finish (shift k s) = r.finish s
  start : ∀ k ls, r.run (shift k r.start) ls = r.run r.start ls

theorem Shifts.alike {shift : Nat → σ → σ} (hr : r.Shifts shift) (s : σ) {l l' : Line}
    (h : Alike l l') : r.step s l = r.step s l' := by
  have hstep := hr.step s h.shifted
  rw [hr.zero, hr.zero] at hstep
  exact hstep.symm

theorem run_alike (hr : r.SeesText) (s : σ) {ls' : List Line} (h : List.Forall₂ Alike ls ls') :
    r.run s ls = r.run s ls' := by
  induction h generalizing s with
  | nil => rfl
  | cons hl _ ih => rw [run, run, hr.alike s hl, ih]

theorem run_concat_empty (hr : r.SeesText) (s : σ) (ls : List Line) :
    r.run s (ls ++ [[]]) = r.run s ls := by
  rw [run_append, hr.empty, run_eq_through]

theorem entries_lines (hr : r.SeesText) (h : ∀ l ∈ ls, '\n' ∉ l) :
    r.entries (lines (joinLines ls)) = r.entries ls := by
  obtain ⟨ls', halike, hsplit⟩ := lines_join_lines h
  rw [entries, entries, run_alike hr _ halike]
  rcases hsplit with rfl | rfl
  · rfl
  · rw [run_concat_empty hr]

theorem run_skip {pre : List Line} (h : ∀ l ∈ pre, r.step s l = (s, [])) (ls : List Line) :
    r.run s (pre++ls) = r.run s ls := by
  induction pre with
  | nil => rfl
  | cons l pre ih =>
    obtain ⟨hl, hpre⟩ := List.forall_mem_cons.mp h
    rw [List.cons_append, run, hl]
    exact ih hpre

theorem run_quiet (h : ∀ l ∈ ls, r.step s l = (s, [])) : r.run s ls = r.finish s := by
  rw [← List.append_nil ls, run_skip h]
  rfl

theorem through_continued (hold : Entry → σ) {more : List Line}
    (h : ∀ e, ∀ l ∈ more, r.step (hold e) l = (hold (if trim l = [] then e else e.continued l), []))
    (name : Line) (texts : List Line) :
    r.through (hold (described name texts)) more =
      (hold (described name (texts ++ more.map trim)), []) := by
  induction more generalizing texts with
  | nil => simp [through]
  | cons l more ih =>
    have hl := h (described name texts) l List.mem_cons_self
    have hmore := ih (fun e l' hl' => h e l' (List.mem_cons_of_mem l hl')) (texts ++ [trim l])
    rw [described_line] at hl
    rw [through, hl, hmore]
    simp

theorem run_item (r : Scanner σ) (hold : Entry → σ) {d : Documented} {l : Line} {more : List Line}
    (hfinish : ∀ e, r.finish (hold e) = [e])
    (hfirst : r.step s l = (hold (described d.name [d.first]), r.finish s))
    (hmore : ∀ e, ∀ c ∈ more,
      r.step (hold e) c = (hold (if trim c = [] then e else e.continued c), []))
    (htexts : (more.map trim).filter (· ≠ []) = d.more) :
    (r.through s (l::more)).1 = hold d.entry ∧ r.run s (l::more) = r.finish s ++ [d.entry] := by
  have hentry : described d.name ([d.first] ++ more.map trim) = d.entry := by
    rw [Documented.entry, ← htexts]
    simp [described, spoken, List.filter_cons]
  have hthrough : r.through s (l::more) = (hold d.entry, r.finish s) := by
    rw [through, hfirst, through_continued hold hmore, hentry]
    simp
  rw [run_eq_through, hthrough, hfinish]
  exact ⟨rfl, rfl⟩

variable {α : Type} {Documents : α → Line → List Line → Prop}

theorem run_laid (Ready : σ → Prop) {entry : α → Entry} {tail : List Line}
    (hblank : ∀ s l, Ready s → trim l = [] → Ready (r.step s l).1 ∧ r.run s [l] = r.finish s)
    (hitem : ∀ s p l more, Ready s → Documents p l more →
      Ready (r.through s (l::more)).1 ∧ r.run s (l::more) = r.finish s ++ [entry p])
    (htail : ∀ s, Ready s → r.run s tail = r.finish s) {ps : List α} (h : Laid Documents ps ls)
    (hs : Ready s) : r.run s (ls++tail) = r.finish s ++ ps.map entry := by
  induction h generalizing s with
  | nil => simp [htail s hs]
  | @blank ps l ls hl _ ih =>
    obtain ⟨hready, hrun⟩ := hblank s l hs hl
    rw [← hrun, List.cons_append, run, ih hready, run_eq_through]
    simp [through]
  | @item p ps l more ls hp _ ih =>
    obtain ⟨hready, hrun⟩ := hitem s p l more hs hp
    rw [List.cons_append, List.append_assoc, ← List.cons_append, run_append, ih hready,
      ← List.append_assoc, ← run_eq_through, hrun]
    simp

end Scanner

def entriesOf (style : DocstringStyle) (ls : List Line) : List Entry :=
  (layouts style).flatMap fun layout => layout.entries ls

theorem foldl_extract (layouts : List Layout) (found : List Entry) (ls : List Line) :
    layouts.foldl (fun found layout => extract layout found ls) found =
      found ++ layouts.flatMap fun layout => layout.entries ls := by
  induction layouts generalizing found with
  | nil => simp
  | cons layout layouts ih =>
    rw [List.foldl_cons, ih, extract_eq_entries, List.flatMap_cons, List.append_assoc]

theorem parse_eq (style : DocstringStyle) (text : String) :
    parse style text =
      ⟨summaryOf (lines text.toList), firstWins (entriesOf style (lines text.toList))⟩ := by
  rw [parse, foldl_extract, List.nil_append, entriesOf]

theorem first_wins_of_nodup {es : List Entry} (h : (es.map Entry.name).Nodup) :
    firstWins es = es.map fun e => (e.name, e.description) := by
  induction es with
  | nil => rfl
  | cons e es ih =>
    obtain ⟨hfresh, hes⟩ := List.nodup_cons.mp h
    rw [firstWins, ih hes, List.map_cons, List.filter_eq_self.mpr]
    intro p hp
    obtain ⟨e', he', rfl⟩ := List.mem_map.mp hp
    have hne : e'.name ≠ e.name := fun heq => hfresh (heq ▸ List.mem_map_of_mem he')
    simpa using hne

theorem params_written {style : DocstringStyle} {layout : Layout} {σ : Type} {r : Scanner σ}
    (hstyle : layouts style = [layout]) (hlayout : layout.entries = r.entries) (hr : r.SeesText)
    {ls : List Line} (hlines : ∀ l ∈ ls, '\n' ∉ l) {ds : List Documented}
    (hnames : (ds.map Documented.name).Nodup) (hfound : r.entries ls = ds.map Documented.entry) :
    (parse style (String.ofList (joinLines ls))).params = ds.map Documented.param := by
  have hentries : (ds.map Documented.entry).map Entry.name =
      (ds.map Documented.name).map String.ofList := by
    rw [List.map_map, List.map_map]
    rfl
  have hdistinct : ((ds.map Documented.entry).map Entry.name).Nodup := by
    rw [hentries]
    exact hnames.map fun _ _ h => String.ofList_injective h
  have hparsed : (parse style (String.ofList (joinLines ls))).params =
      firstWins (layout.entries (lines (joinLines ls))) := by
    simp [parse_eq, entriesOf, hstyle]
  rw [hparsed, hlayout, Scanner.entries_lines hr hlines, hfound, first_wins_of_nodup hdistinct,
    List.map_map]
  rfl

end ToolSpec.Docstring
