import Mathlib
import Daybook.Proofs.Agenda.Check
import Daybook.Proofs.DayView.Grid
import Daybook.Proofs.Text.Lines

/-!
# The lines of a day's text

The text of a day with blocks is written item by item, with a line feed behind each: a heading, a
line for each block in reading order, an empty line, and the rows of the grid (`items`,
`text?_of_blocks`).

All that the program writes itself is free of line feeds.  But titles are written as they are, so
the line of a block has the line feeds of the title of its task (`count_feed_line`), and takes as
many lines of the listing.  There is one line for each item if and only if no title that is shown
has a line feed (`lines_of_day_text`).
-/

namespace Daybook

open Json (OnOneLine)

theorem Json.OnOneLine.not_mem_feed {cs : List Char} (h : OnOneLine cs) : '\n' ∉ cs :=
  fun hfeed => absurd (h '\n' hfeed) (by decide)

/-! ### What is written on one line -/

namespace Text

theorem onOneLine_natural (n : ℕ) : OnOneLine (natural n) :=
  .of_isDigit fun _ => isDigit_of_mem_natural

theorem onOneLine_padded (width n : ℕ) : OnOneLine (padded width n) :=
  .of_isDigit fun _ => isDigit_of_mem_padded

theorem onOneLine_integer (n : ℤ) : OnOneLine (integer n) := by
  rw [integer]
  split_ifs
  · exact .cons (by decide) (onOneLine_natural _)
  · exact onOneLine_natural _

end Text

theorem onOneLine_clockMinuteText (clock : ℤ) : OnOneLine (clockMinuteText clock) :=
  (Text.onOneLine_padded _ _).append (.cons (by decide) (Text.onOneLine_padded _ _))

namespace Date

theorem onOneLine_text (d : Date) : OnOneLine d.text := by
  have hyear : OnOneLine (yearText d.civil.year) := by
    rw [yearText]
    split_ifs
    · exact Text.onOneLine_padded _ _
    · exact .cons (by decide) (Text.onOneLine_padded _ _)
    · exact .cons (by decide) (Text.onOneLine_padded _ _)
  have hday : OnOneLine ('-' :: Text.padded 2 d.civil.day) :=
    .cons (by decide) (Text.onOneLine_padded _ _)
  exact (hyear.append (.cons (by decide) (Text.onOneLine_padded _ _))).append hday

theorem onOneLine_weekdayName (d : Date) : OnOneLine d.weekdayName.toList := by
  have hnames : ∀ name ∈ "" :: weekdayNames, OnOneLine name.toList := by
    simp [weekdayNames, OnOneLine]
  apply hnames
  rw [weekdayName, List.getD_eq_getElem?_getD]
  cases hname : weekdayNames[d.weekday]? with
  | none => exact List.mem_cons_self ..
  | some name => exact List.mem_cons_of_mem _ (List.mem_of_getElem? hname)

end Date

namespace DayView

theorem onOneLine_heading (v : DayView) : OnOneLine v.heading :=
  v.date.onOneLine_text.append (.cons (by decide) v.date.onOneLine_weekdayName)

theorem onOneLine_fillUp (width : ℕ) {cs : List Char} (h : OnOneLine cs) :
    OnOneLine (fillUp width cs) := by
  refine h.append fun c hc => ?_
  rw [List.eq_of_mem_replicate hc]
  decide

theorem onOneLine_doneMark (e : Entry) : OnOneLine (doneMark e) := by
  cases e with
  | activity w =>
    rw [doneMark]
    split_ifs
    · simp [OnOneLine]
    · exact .nil
  | plan p => exact .nil

theorem onOneLine_name (kind : Entry.Kind) : OnOneLine kind.name.toList := by
  cases kind with
  | activity => simp [OnOneLine, Entry.Kind.name]
  | plan => simp [OnOneLine, Entry.Kind.name]

variable {v : DayView} {a : Agenda} {clocks : Zone}

/-- A row of the grid is on one line, since line feeds are blanks and spaces the only blanks in its
cells. -/
theorem not_mem_feed_row {slot top : ℤ} (hcolumns : ∀ b ∈ v.blocks, b.column < v.columnCount) :
    '\n' ∉ v.row clocks slot top := by
  rw [row, List.mem_append, not_or]
  refine ⟨(onOneLine_clockMinuteText _).not_mem_feed, ?_⟩
  have hcells : '\n' ∉ Text.trimEnd (paint v.blocks top (top + slot)
      (List.replicate v.columnCount ' ')) := by
    intro hfeed
    rw [Text.trimEnd_eq_rdropWhile] at hfeed
    have hmem := (List.rdropWhile_prefix _ _).mem hfeed
    exact absurd (eq_space_of_mem_paint hcolumns hmem rfl) (by decide)
  simpa using hcells

/-- What stands in front of the title on the line of a block. -/
def Block.lineFront (clocks : Zone) (b : Block) : List Char :=
  let e := b.entry
  clockMinuteText (clocks.clockAt e.start.seconds) ++ '-' ::
    clockMinuteText (clocks.clockAt e.finish.seconds) ++ "  col ".toList ++ Text.natural b.column ++
    "  ".toList ++ fillUp 8 e.kind.name.toList ++ " #".toList ++
    fillUp 4 (Text.integer e.number.toInt)

theorem Block.line_eq (a : Agenda) (clocks : Zone) (b : Block) :
    b.line a clocks = b.lineFront clocks ++ ' ' :: titleOf a b.entry ++ doneMark b.entry :=
  rfl

theorem Block.onOneLine_lineFront (b : Block) : OnOneLine (b.lineFront clocks) := by
  have hcol : OnOneLine "  col ".toList := by simp [OnOneLine]
  have hgap : OnOneLine "  ".toList := by simp [OnOneLine]
  have hnumber : OnOneLine " #".toList := by simp [OnOneLine]
  have hfinish := onOneLine_clockMinuteText (clocks.clockAt b.entry.finish.seconds)
  have htimes := (onOneLine_clockMinuteText (clocks.clockAt b.entry.start.seconds)).append
    (.cons (c := '-') (by decide) hfinish)
  have hcolumn := (htimes.append hcol).append (Text.onOneLine_natural b.column)
  have hkind := (hcolumn.append hgap).append
    (onOneLine_fillUp 8 (onOneLine_name b.entry.kind))
  exact (hkind.append hnumber).append
    (onOneLine_fillUp 4 (Text.onOneLine_integer b.entry.number.toInt))

/-- **The line feeds of a block's line are those of its title.** -/
theorem Block.count_feed_line (a : Agenda) (clocks : Zone) (b : Block) :
    (b.line a clocks).count '\n' = (titleOf a b.entry).count '\n' := by
  rw [line_eq, List.count_append, List.count_append, List.count_cons,
    List.count_eq_zero_of_not_mem b.onOneLine_lineFront.not_mem_feed,
    List.count_eq_zero_of_not_mem (onOneLine_doneMark b.entry).not_mem_feed]
  simp

theorem Block.not_mem_feed_line_iff (b : Block) :
    '\n' ∉ b.line a clocks ↔ '\n' ∉ titleOf a b.entry := by
  rw [← List.count_eq_zero, ← List.count_eq_zero, b.count_feed_line]

/-! ### The text, item by item -/

/-- The heading of a day with blocks. -/
def headLine (v : DayView) : List Char :=
  v.heading ++ ": ".toList ++ Text.natural v.blocks.length ++ " entries in ".toList ++
    Text.natural v.columnCount ++ " columns".toList

/-- What the text of a day with blocks is written from: the heading, the blocks in reading order,
nothing, and the rows of a grid. -/
def items (v : DayView) (a : Agenda) (clocks : Zone) (rows : List (List Char)) :
    List (List Char) :=
  v.headLine :: v.inReadingOrder.map (Block.line a clocks) ++ [] :: rows

variable {minutes : Int64} {rows : List (List Char)}

theorem text?_of_nil (h : v.blocks = []) :
    v.text? a clocks minutes = some (endLine (v.heading ++ ": no entries".toList)) := by
  rw [text?, h]
  rfl

/-- **The text is written item by item**, if the slot is in range. -/
theorem text?_of_blocks (h : v.blocks ≠ []) :
    v.text? a clocks minutes = (slotSeconds? minutes).map fun slot =>
      ((v.items a clocks (v.grid clocks slot)).map endLine).flatten := by
  rw [text?, if_neg (by simpa using h)]
  refine congrArg (Option.map · (slotSeconds? minutes)) (funext fun slot => ?_)
  simp [items, headLine, Function.comp_def]

theorem onOneLine_headLine (v : DayView) : OnOneLine v.headLine := by
  have hentries : OnOneLine " entries in ".toList := by simp [OnOneLine]
  have hcolumns : OnOneLine " columns".toList := by simp [OnOneLine]
  have hcolon : OnOneLine ": ".toList := by simp [OnOneLine]
  have hcount := (v.onOneLine_heading.append hcolon).append (Text.onOneLine_natural v.blocks.length)
  exact ((hcount.append hentries).append (Text.onOneLine_natural v.columnCount)).append hcolumns

theorem length_items : (v.items a clocks rows).length = 1 + v.blocks.length + 1 + rows.length := by
  simp [items, inReadingOrder]
  omega

/-- **The items are lines** if no title has a line feed. -/
theorem not_mem_feed_items_iff (hrows : ∀ row ∈ rows, '\n' ∉ row) :
    (∀ item ∈ v.items a clocks rows, '\n' ∉ item) ↔
      ∀ b ∈ v.blocks, '\n' ∉ titleOf a b.entry := by
  simp only [items, inReadingOrder, List.forall_mem_append, List.forall_mem_cons,
    List.forall_mem_map, List.mem_mergeSort, Block.not_mem_feed_line_iff]
  have hhead := v.onOneLine_headLine.not_mem_feed
  exact ⟨fun h => h.1.2, fun h => ⟨⟨hhead, h⟩, List.not_mem_nil, hrows⟩⟩

/-! ### The lines -/

/-- Whether all titles that a view shows are free of line feeds. -/
def PlainTitles (v : DayView) (a : Agenda) : Prop :=
  ∀ b ∈ v.blocks, ∀ t ∈ a.task? b.entry.task, '\n' ∉ t.title.toList

/-- The lines of a listing: those of the blocks, in reading order. -/
def listing (v : DayView) (a : Agenda) (clocks : Zone) : List (List Char) :=
  v.inReadingOrder.flatMap fun b => (b.line a clocks).splitOn '\n'

/-- The items consist of the lines of the listing, with a heading before and the rows behind. -/
theorem flatMap_split_items (hrows : ∀ row ∈ rows, '\n' ∉ row) :
    (v.items a clocks rows).flatMap (List.splitOn '\n') =
      v.headLine :: v.listing a clocks ++ [] :: rows := by
  rw [items, List.flatMap_append, List.flatMap_cons, List.flatMap_cons, List.flatMap_map,
    Text.flatMap_split_eq_self hrows, List.splitOn_eq_singleton v.onOneLine_headLine.not_mem_feed]
  rfl

/-- A block takes a single line of the listing unless its title has a line feed. -/
theorem listing_eq_map (hplain : ∀ b ∈ v.blocks, '\n' ∉ titleOf a b.entry) :
    v.listing a clocks = v.inReadingOrder.map (Block.line a clocks) := by
  have hlines : ∀ line ∈ v.inReadingOrder.map (Block.line a clocks), '\n' ∉ line := by
    intro line hline
    obtain ⟨b, hb, rfl⟩ := List.mem_map.mp hline
    rw [inReadingOrder, List.mem_mergeSort] at hb
    exact b.not_mem_feed_line_iff.mpr (hplain b hb)
  rw [listing, ← List.flatMap_map, Text.flatMap_split_eq_self hlines]

theorem length_listing : (v.listing a clocks).length =
    (v.blocks.map fun b => (titleOf a b.entry).count '\n' + 1).sum := by
  have hperm := (List.mergeSort_perm v.blocks Block.before).map
    fun b => (titleOf a b.entry).count '\n' + 1
  rw [listing, List.length_flatMap, ← hperm.sum_eq, inReadingOrder]
  simp only [Text.length_splitOn_feed, Block.count_feed_line]

/-- In an accepted agenda every block has a task, whose title is shown. -/
theorem plainTitles_iff {source : List Char} (ha : Agenda.ofText source = .ok a) {z : Zone}
    {d : Date} {least : Int64} (hv : v ∈ build? d z least a.entries) :
    v.PlainTitles a ↔ ∀ b ∈ v.blocks, '\n' ∉ titleOf a b.entry := by
  obtain ⟨bounds, -, rfl⟩ := Option.map_eq_some_iff.mp hv
  have hsound := (Agenda.ofText_eq_ok_iff.mp ha).2
  refine forall₂_congr fun b hb => ?_
  have htask := hsound.exists_task b.entry (mem_blocks_ofBounds hb).1.1
  obtain ⟨t, ht, -⟩ := Agenda.exists_task?_of_mem htask
  rw [titleOf_eq ht, Option.mem_def.mp ht]
  simp

/-- **The lines of a day's text.** It ends with a line feed.  Without blocks it is a single line.
With blocks it consists of a heading, the listing, an empty line and the rows of the grid.  A block
takes one line of the listing, and one more for each line feed of its title; so there is one line
for each block if and only if no title that is shown has a line feed. -/
theorem lines_of_day_text {source : List Char} (ha : Agenda.ofText source = .ok a) {z : Zone}
    {d : Date} {least : Int64} (hv : v ∈ build? d z least a.entries) (clocks : Zone)
    {text : List Char} (htext : text ∈ v.text? a clocks minutes) :
    text.getLast? = some '\n' ∧
    (v.blocks = [] → Text.ConsistsOf text [v.heading ++ ": no entries".toList]) ∧
    (v.blocks ≠ [] → ∃ slot ∈ slotSeconds? minutes,
      Text.ConsistsOf text (v.headLine :: v.listing a clocks ++ [] :: v.grid clocks slot) ∧
      (v.listing a clocks).length =
        (v.blocks.map fun b => (titleOf a b.entry).count '\n' + 1).sum ∧
      (text.count '\n' = 1 + v.blocks.length + 1 + (v.grid clocks slot).length ↔
        v.PlainTitles a) ∧
      (v.PlainTitles a → v.listing a clocks = v.inReadingOrder.map (Block.line a clocks))) := by
  by_cases hblocks : v.blocks = []
  · rw [text?_of_nil hblocks] at htext
    obtain rfl := Option.some.inj htext
    have hfeed : '\n' ∉ v.heading ++ ": no entries".toList :=
      (v.onOneLine_heading.append (by simp [OnOneLine])).not_mem_feed
    have hline := Text.ConsistsOf.single hfeed
    exact ⟨hline.getLast?_eq (by simp), fun _ => hline, fun hne => absurd hblocks hne⟩
  rw [text?_of_blocks hblocks] at htext
  obtain ⟨slot, hslot, rfl⟩ := Option.map_eq_some_iff.mp htext
  have hrows : ∀ row ∈ v.grid clocks slot, '\n' ∉ row := by
    intro row hrow
    obtain ⟨top, -, rfl⟩ := List.mem_map.mp hrow
    exact not_mem_feed_row (column_lt_columnCount hv)
  have hlines := Text.consistsOf_flatMap_split (v.items a clocks (v.grid clocks slot))
  have hcount : ((v.items a clocks (v.grid clocks slot)).map endLine).flatten.count '\n' =
      1 + v.blocks.length + 1 + (v.grid clocks slot).length ↔ v.PlainTitles a := by
    rw [plainTitles_iff ha hv, ← not_mem_feed_items_iff hrows,
      ← Text.length_flatMap_split_eq_iff, ← length_items]
    exact Eq.congr_left hlines.count_feed
  rw [flatMap_split_items hrows] at hlines
  refine ⟨hlines.getLast?_eq (by simp), fun hnil => absurd hnil hblocks, fun _ => ?_⟩
  refine ⟨slot, hslot, hlines, length_listing, hcount, fun hplain => ?_⟩
  exact listing_eq_map ((plainTitles_iff ha hv).mp hplain)

/-- An hour of work on a task with a title of two words, in a grid of half hours. -/
theorem lines_of_day_text_hour :
    let d : Date := ⟨19849, by decide, by decide⟩
    let task : Task := ⟨⟨1, by decide⟩, "Write report", "", none, none⟩
    let work : Activity := ⟨⟨1, by decide⟩, ⟨1, by decide⟩, "", .ofSeconds 1714986000 (by decide),
      .ofSeconds 1714989600 (by decide), false, ""⟩
    let a : Agenda := ⟨[task], [work], []⟩
    Agenda.ofText (Agenda.form.toJson a).compact = .ok a ∧
      ∃ v ∈ build? d Zone.utc 0 a.entries, ∃ text ∈ v.text? a Zone.utc 30,
        v.blocks.length = 1 ∧ (v.grid Zone.utc 1800).length = 2 ∧ text.count '\n' = 5 := by
  intro d task work a
  have hsound : a.Sound := ⟨by decide, by decide, by decide⟩
  have hread : Json.read Agenda.form.reader (Agenda.form.toJson a).compact = .ok a :=
    Agenda.readsBack.read_eq (Json.spells_compact (Agenda.readsBack.proper a))
  have haccepted := Agenda.ofText_eq_ok_iff.mpr ⟨hread, hsound⟩
  have hview : (build? d Zone.utc 0 a.entries).map
      (fun v => (v.blocks, (v.grid Zone.utc 1800).length)) =
        some ([⟨.activity work, 0, 32400, 3600⟩], 2) := by cbv
  obtain ⟨v, hv, hview⟩ := Option.map_eq_some_iff.mp hview
  obtain ⟨hblocks, hlength⟩ := Prod.mk.inj hview
  have hne : v.blocks ≠ [] := by simp [hblocks]
  have hslot : slotSeconds? 30 = some 1800 := by decide
  obtain ⟨text, htext⟩ : ∃ text, v.text? a Zone.utc 30 = some text := by
    rw [text?_of_blocks hne, hslot]
    exact ⟨_, rfl⟩
  have hplain : v.PlainTitles a := by
    rw [PlainTitles, hblocks]
    simp [a, task, work, Agenda.task?, Entry.task]
  obtain ⟨slot, hslot', -, -, hcount, -⟩ := (lines_of_day_text haccepted hv Zone.utc htext).2.2 hne
  obtain rfl : 1800 = slot := Option.some.inj (hslot.symm.trans hslot')
  refine ⟨haccepted, v, hv, text, htext, by simp [hblocks], hlength, ?_⟩
  rw [hcount.mpr hplain, hlength, hblocks]
  rfl

/-- **A title of two lines** takes two lines of the listing, so that the text of one block and one
row has five lines. -/
theorem more_lines_than_items :
    let d : Date := ⟨19849, by decide, by decide⟩
    let task : Task := ⟨⟨1, by decide⟩, "Write\nreport", "", none, none⟩
    let work : Activity := ⟨⟨1, by decide⟩, ⟨1, by decide⟩, "", .ofSeconds 1714986000 (by decide),
      .ofSeconds 1714989600 (by decide), false, ""⟩
    let a : Agenda := ⟨[task], [work], []⟩
    Agenda.ofText (Agenda.form.toJson a).compact = .ok a ∧
      ∃ v ∈ build? d Zone.utc 0 a.entries, ∃ text ∈ v.text? a Zone.utc 60,
        v.blocks.length = 1 ∧ slotSeconds? 60 = some 3600 ∧
        (v.grid Zone.utc 3600).length = 1 ∧ text.count '\n' = 5 ∧
        text.count '\n' ≠ 1 + v.blocks.length + 1 + (v.grid Zone.utc 3600).length := by
  intro d task work a
  have hsound : a.Sound := ⟨by decide, by decide, by decide⟩
  have hread : Json.read Agenda.form.reader (Agenda.form.toJson a).compact = .ok a :=
    Agenda.readsBack.read_eq (Json.spells_compact (Agenda.readsBack.proper a))
  have hview : (build? d Zone.utc 0 a.entries).map
      (fun v => (v.blocks.length, (v.grid Zone.utc 3600).length,
        (v.text? a Zone.utc 60).map (List.count '\n'))) = some (1, 1, some 5) := by cbv
  obtain ⟨v, hv, hview⟩ := Option.map_eq_some_iff.mp hview
  obtain ⟨hblocks, hrows⟩ := Prod.mk.inj hview
  obtain ⟨hrows, hcount⟩ := Prod.mk.inj hrows
  obtain ⟨text, htext, hcount⟩ := Option.map_eq_some_iff.mp hcount
  refine ⟨Agenda.ofText_eq_ok_iff.mpr ⟨hread, hsound⟩, v, hv, text, htext, hblocks, by decide,
    hrows, hcount, ?_⟩
  rw [hcount, hblocks, hrows]
  decide

end DayView

end Daybook
