import Admission.Proofs.Table
import Admission.Status
import Mathlib.Data.List.Induction
import Mathlib.Order.Bounds.Basic

/-!
# Columns that line up

A reader finds a column of a table by where it stands on the screen. How many cells a text takes
there depends on all its characters together, so it is not obvious that the widths of the parts of a
line add up to the width of the line. They do, for one reason:

> a space joins nothing and is joined by nothing, so a text is measured apart from what stands
> behind the space that follows it.

A line of a table is made of texts with spaces around them. Its columns therefore start where the
widths of the columns say (`Text.columnStart`), whatever stands in its cells, and all lines of a
table have one width (`Text.lineWidth`).
-/

set_option autoImplicit false

namespace Admission

namespace Text

/-- A header and rows. -/
structure Table where
  header : List String
  rows : List (List String)

/-- The number of terminal cells in front of a column. -/
def columnStart (widths : List Nat) (k : Nat) : Nat := 1 + ((widths.take k).map (· + 3)).sum

/-- The number of terminal cells of a line with columns of given widths: those of the columns, a
space on both sides of each, and a space between neighbours. -/
def lineWidth (widths : List Nat) : Nat :=
  widths.sum + 2 * widths.length + (widths.length - 1)

/-- The line shows the cells of a row in columns of given widths, each cell followed only by spaces
up to the width of its column. -/
structure LinesUp (widths : List Nat) (row : List String) (line : List Char) : Prop where
  length_eq : row.length = widths.length
  displayWidth_eq : displayWidth line = lineWidth widths
  shows : ∀ (k width : Nat) (cell : String), widths[k]? = some width → row[k]? = some cell →
    ∃ (before after : List Char) (padding : Nat),
      line = before ++ (cell.toList ++ List.replicate padding ' ') ++ ' ' :: after ∧
      displayWidth before = columnStart widths k ∧
      displayWidth (cell.toList ++ List.replicate padding ' ') = width

namespace Table

/-- The header and the rows. -/
def allRows (t : Table) : List (List String) := t.header :: t.rows

def lines (t : Table) : List (List Char) := tableLines t.header t.rows

def widths (t : Table) : List Nat := columnWidths t.header t.rows

/-- The widths of the cells of a column, the header included. -/
def cellWidths (t : Table) (k : Nat) : Set Nat :=
  {n | ∃ r ∈ t.allRows, ∃ cell, r[k]? = some cell ∧ displayWidth cell.toList = n}

/-- Every row has as many cells as the header. -/
def IsRectangular (t : Table) : Prop := ∀ r ∈ t.rows, r.length = t.header.length

end Table

/-! ## Widths add up -/

theorem extent_append_space (s t : List Char) :
    extent (s ++ ' ' :: t) = ((extent s).1 + (1 + displayWidth t), (extent s).2) := by
  induction s with
  | nil =>
    show (1 + displayWidth t, Joint.plain) = (0 + (1 + displayWidth t), Joint.plain)
    rw [Nat.zero_add]
  | cons c s ih => rw [List.cons_append, extent, ih, extent, Nat.add_assoc]

/-- A space separates two texts for the measure, whatever they are. -/
theorem displayWidth_append_space (s t : List Char) :
    displayWidth (s ++ ' ' :: t) = displayWidth s + (1 + displayWidth t) :=
  congrArg Prod.fst (extent_append_space s t)

theorem displayWidth_space_cons (t : List Char) : displayWidth (' ' :: t) = 1 + displayWidth t := by
  have hwidth := displayWidth_append_space [] t
  rwa [List.nil_append, show displayWidth [] = 0 from rfl, Nat.zero_add] at hwidth

/-! ## Lines -/

/-- A cell and the spaces that fill its column. -/
def filledCell (width : Nat) (cell : String) : List Char :=
  cell.toList ++ List.replicate (width - displayWidth cell.toList) ' '

theorem displayWidth_filledCell {width : Nat} {cell : String}
    (h : displayWidth cell.toList ≤ width) : displayWidth (filledCell width cell) = width := by
  rw [filledCell, displayWidth_append_spaces, Nat.add_sub_cancel' h]

/-- What stands behind a cell and its space. -/
def moreCells (widths : List Nat) (rest : List String) : List Char :=
  if rest = [] then [] else ' ' :: writeRow widths rest

theorem writeRow_cons_filled {widths : List Nat} {rest : List String}
    (h : rest.length = widths.length) (width : Nat) (cell : String) :
    writeRow (width :: widths) (cell :: rest) =
      ' ' :: (filledCell width cell ++ ' ' :: moreCells widths rest) := by
  rw [writeRow_cons h.le, behindCell, filledCell, moreCells, List.append_assoc]
  exact congrArg (fun s => ' ' :: (cell.toList ++ s)) (replicate_append_cons _ _).symm

theorem displayWidth_moreCells_nil (widths : List Nat) :
    displayWidth (moreCells widths []) = 0 := by
  rw [moreCells, if_pos rfl]
  rfl

theorem displayWidth_moreCells_cons (widths : List Nat) (cell : String) (rest : List String) :
    displayWidth (moreCells widths (cell :: rest)) =
      1 + displayWidth (writeRow widths (cell :: rest)) := by
  rw [moreCells, if_neg (List.cons_ne_nil _ _), displayWidth_space_cons]

/-- Each cell of the row finds room in its column. -/
def Fits (widths : List Nat) (row : List String) : Prop :=
  List.Forall₂ (fun width cell => displayWidth cell.toList ≤ width) widths row

theorem Fits.length_eq {widths : List Nat} {row : List String} (h : Fits widths row) :
    row.length = widths.length := (List.Forall₂.length_eq h).symm

theorem displayWidth_writeRow {widths : List Nat} {row : List String} (h : Fits widths row) :
    displayWidth (writeRow widths row) = lineWidth widths := by
  induction h with
  | nil => rfl
  | @cons width cell widths row hcell hrow ih =>
    rw [writeRow_cons_filled (Fits.length_eq hrow), displayWidth_space_cons,
      displayWidth_append_space, displayWidth_filledCell hcell]
    cases hrow with
    | nil =>
      rw [displayWidth_moreCells_nil]
      simp only [lineWidth, List.sum_cons, List.sum_nil, List.length_cons, List.length_nil]
      omega
    | cons hnext hrest =>
      rw [displayWidth_moreCells_cons, ih]
      simp only [lineWidth, List.sum_cons, List.length_cons]
      omega

theorem columnStart_succ (width : Nat) (widths : List Nat) (k : Nat) :
    columnStart (width :: widths) (k + 1) = width + 3 + columnStart widths k := by
  simp only [columnStart, List.take_succ_cons, List.map_cons, List.sum_cons]
  omega

/-- **A column starts where the widths of the columns before it say**, and its cell fills it. -/
theorem exists_before_cell {widths : List Nat} {row : List String} (h : Fits widths row)
    {k width : Nat} {cell : String} (hwidth : widths[k]? = some width)
    (hcell : row[k]? = some cell) :
    ∃ before after, writeRow widths row = before ++ filledCell width cell ++ ' ' :: after ∧
      displayWidth before = columnStart widths k ∧ displayWidth cell.toList ≤ width := by
  induction h generalizing k with
  | nil => cases hwidth
  | @cons w c widths row hfits hrow ih =>
    rw [writeRow_cons_filled (Fits.length_eq hrow)]
    cases k with
    | zero =>
      obtain rfl := Option.some.inj hwidth
      obtain rfl := Option.some.inj hcell
      exact ⟨[' '], moreCells widths row, rfl, rfl, hfits⟩
    | succ k =>
      obtain ⟨before, after, hline, hstart, hle⟩ := ih hwidth hcell
      have hne : row ≠ [] := by
        rintro rfl
        cases hcell
      refine ⟨' ' :: (filledCell w c ++ ' ' :: ' ' :: before), after, ?_, ?_, hle⟩
      · rw [moreCells, if_neg hne, hline]
        simp only [List.cons_append, List.append_assoc]
      · rw [displayWidth_space_cons, displayWidth_append_space, displayWidth_space_cons,
          displayWidth_filledCell hfits, hstart, columnStart_succ]
        omega

theorem linesUp_writeRow {widths : List Nat} {row : List String} (h : Fits widths row) :
    LinesUp widths row (writeRow widths row) where
  length_eq := h.length_eq
  displayWidth_eq := displayWidth_writeRow h
  shows := by
    intro k width cell hwidth hcell
    obtain ⟨before, after, hline, hstart, hle⟩ := exists_before_cell h hwidth hcell
    exact ⟨before, after, _, hline, hstart, displayWidth_filledCell hle⟩

/-! ## The widths of the columns -/

theorem getElem?_rowWidths_eq_some_iff {r : List String} {k width : Nat} :
    (rowWidths r)[k]? = some width ↔
      ∃ cell, r[k]? = some cell ∧ displayWidth cell.toList = width := by
  rw [rowWidths, List.getElem?_map, Option.map_eq_some_iff]

namespace Table

theorem length_widths {t : Table} (h : t.IsRectangular) : t.widths.length = t.header.length :=
  length_columnWidths h

theorem length_of_mem_allRows {t : Table} (h : t.IsRectangular) {r : List String}
    (hr : r ∈ t.allRows) : r.length = t.header.length := by
  rcases List.mem_cons.mp hr with rfl | hr
  · rfl
  · exact h r hr

theorem widths_concat (header : List String) (rows : List (List String)) (r : List String) :
    (Table.mk header (rows ++ [r])).widths =
      List.zipWith max (Table.mk header rows).widths (rowWidths r) := by
  rw [widths, columnWidths, List.foldl_concat]
  rfl

theorem cellWidths_concat (header : List String) (rows : List (List String)) {r : List String}
    {k : Nat} {cell : String} (hcell : r[k]? = some cell) :
    (Table.mk header (rows ++ [r])).cellWidths k =
      insert (displayWidth cell.toList) ((Table.mk header rows).cellWidths k) := by
  ext n
  constructor
  · rintro ⟨r', hr', cell', hcell', rfl⟩
    rcases List.mem_append.mp (show r' ∈ (header :: rows) ++ [r] from hr') with hold | hnew
    · exact Or.inr ⟨r', hold, cell', hcell', rfl⟩
    · obtain rfl := List.mem_singleton.mp hnew
      obtain rfl := Option.some.inj (hcell.symm.trans hcell')
      exact Or.inl rfl
  · rintro (rfl | ⟨r', hr', cell', hcell', rfl⟩)
    · exact ⟨r, List.mem_append_right (header :: rows) (List.mem_singleton_self r),
        cell, hcell, rfl⟩
    · exact ⟨r', List.mem_append_left [r] hr', cell', hcell', rfl⟩

theorem cellWidths_header (header : List String) {k : Nat} {cell : String}
    (hcell : header[k]? = some cell) :
    (Table.mk header []).cellWidths k = {displayWidth cell.toList} := by
  ext n
  constructor
  · rintro ⟨r, hr, cell', hcell', rfl⟩
    obtain rfl := List.mem_singleton.mp hr
    obtain rfl := Option.some.inj (hcell.symm.trans hcell')
    rfl
  · rintro rfl
    exact ⟨header, List.mem_singleton_self header, cell, hcell, rfl⟩

/-- **A column is as wide as the widest of its cells**, the header included. -/
theorem isGreatest_width {header : List String} {rows : List (List String)}
    (h : (Table.mk header rows).IsRectangular) {k width : Nat}
    (hwidth : (Table.mk header rows).widths[k]? = some width) :
    IsGreatest ((Table.mk header rows).cellWidths k) width := by
  induction rows using List.reverseRecOn generalizing width with
  | nil =>
    obtain ⟨cell, hcell, rfl⟩ := getElem?_rowWidths_eq_some_iff.mp hwidth
    rw [cellWidths_header header hcell]
    exact isGreatest_singleton
  | append_singleton rows r ih =>
    rw [widths_concat] at hwidth
    obtain ⟨w, v, hw, hv, rfl⟩ := List.getElem?_zipWith_eq_some.mp hwidth
    obtain ⟨cell, hcell, rfl⟩ := getElem?_rowWidths_eq_some_iff.mp hv
    rw [cellWidths_concat header rows hcell, max_comm]
    refine IsGreatest.insert _ (ih ?_ hw)
    intro r' hr'
    exact h r' (List.mem_append_left [r] hr')

theorem fits {t : Table} (h : t.IsRectangular) {r : List String} (hr : r ∈ t.allRows) :
    Fits t.widths r := by
  have hlength : t.widths.length = r.length :=
    (length_widths h).trans (length_of_mem_allRows h hr).symm
  refine List.forall₂_iff_get.mpr ⟨hlength, ?_⟩
  intro k hk hk'
  have hgreatest := isGreatest_width h (List.getElem?_eq_getElem hk)
  exact hgreatest.2 ⟨r, hr, r[k], List.getElem?_eq_getElem hk', rfl⟩

theorem linesUp {t : Table} (h : t.IsRectangular) :
    List.Forall₂ (LinesUp t.widths) t.allRows t.lines := by
  refine List.forall₂_map_right_iff.mpr (List.forall₂_same.mpr ?_)
  intro r hr
  exact linesUp_writeRow (t.fits h hr)

end Table

/-- Two wide characters take four places, and the header makes room for them. -/
example :
    (Table.mk ["num", "reason"] [["1", "\"日本時\""], ["12", "x"]]).lines =
      [" num   reason   ".toList, " 1     \"日本時\" ".toList, " 12    x        ".toList] := by
  decide +kernel

end Text

/-! ## The tables of a status -/

open Text

/-- The text of a table, each line ended by a line break. -/
def Text.Table.text (t : Table) : List Char := t.lines.flatMap fun line => line ++ ['\n']

/-- The table stands in a text, its columns as wide as they have to be, and its lines in columns. -/
structure Text.Table.LinesUpIn (t : Table) (s : String) : Prop where
  stands : t.text <:+: s.toList
  length_widths : t.widths.length = t.header.length
  isGreatest : ∀ k width, t.widths[k]? = some width → IsGreatest (t.cellWidths k) width
  linesUp : List.Forall₂ (LinesUp t.widths) t.allRows t.lines

namespace Status

/-- The table of reasons. -/
def reasonTable (st : Status) : Table := ⟨reasonHeader, st.waitingByReason.map reasonCells⟩

/-- The table of holders. -/
def holderTable (st : Status) : Table := ⟨Holder.header, st.holders.map Holder.cells⟩

theorem reasonTable_isRectangular (st : Status) : st.reasonTable.IsRectangular := by
  intro r hr
  obtain ⟨row, -, rfl⟩ := List.mem_map.mp hr
  rfl

theorem holderTable_isRectangular (st : Status) : st.holderTable.IsRectangular := by
  intro r hr
  obtain ⟨h, -, rfl⟩ := List.mem_map.mp hr
  rfl

theorem toList_text (st : Status) :
    ∃ before between : List Char, st.text.toList =
      before ++ st.reasonTable.text ++ between ++ st.holderTable.text := by
  rw [text, String.toList_ofList, lines, List.flatMap_append, List.flatMap_append,
    List.flatMap_append]
  exact ⟨_, _, rfl⟩

/-- **The columns of a status line up**, whatever stands in its strings. In the text stand two
tables, with one line for the header and one for each row. All lines of a table have one width on
the terminal, and a column starts at the same place in all of them; there a line has the content of
the cell and behind it only spaces, which make it as wide as the column. And a column is as wide as
the widest of its cells, the header included, also if the table has no rows. -/
theorem columns_line_up (st : Status) :
    st.reasonTable.LinesUpIn st.text ∧ st.holderTable.LinesUpIn st.text := by
  obtain ⟨before, between, htext⟩ := st.toList_text
  have hlinesUp : ∀ t : Table, t.IsRectangular → t.text <:+: st.text.toList →
      t.LinesUpIn st.text := by
    intro t ht hstands
    refine ⟨hstands, t.length_widths ht, ?_, t.linesUp ht⟩
    intro k width hwidth
    exact Table.isGreatest_width ht hwidth
  constructor
  · refine hlinesUp _ st.reasonTable_isRectangular ?_
    rw [htext, List.append_assoc]
    exact List.infix_append _ _ _
  · refine hlinesUp _ st.holderTable_isRectangular ?_
    rw [htext]
    exact (List.suffix_append _ _).isInfix

end Status

end Admission
