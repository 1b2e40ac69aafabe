import Admission.Proofs.QuotedText
import Admission.Text.Columns
import Mathlib.Data.List.Forall2
import Mathlib.Data.Set.Basic

/-!
# A table is told by its lines

How wide a column is depends on all its cells, so nobody who reads a row knows where its cells are.
But if every text of a column is written so that it does not begin with a space, and that its end is
seen where a space follows, this need not be known:

> where a cell ends is told by the cell itself, and how wide its column is does not matter.

So a row tells its cells (`Text.eq_of_writeRow_eq`), a table its rows
(`Text.eq_of_tableLines_eq`), and a text its lines, if no line break stands in one.
-/

set_option autoImplicit false

namespace Admission.Text

/-! ## Cells -/

/-- Texts for the cells of a column. None begins with a space, and where one is followed by a space,
it is seen where it ends. -/
structure IsColumn (L : Set String) : Prop where
  head : ∀ c ∈ L, ∃ a rest, c.toList = a :: rest ∧ a ≠ ' '
  ends : ∀ c ∈ L, ∀ d ∈ L, ∀ x y, c.toList ++ ' ' :: x = d.toList ++ ' ' :: y → c = d
  shown : ∀ c ∈ L, ∀ a ∈ c.toList, isShown a = true

/-- Where no space stands in a text, the first space is its end. -/
theorem isColumn_of_no_space {L : Set String}
    (h : ∀ c ∈ L, c.toList ≠ [] ∧ ∀ a ∈ c.toList, isShown a = true ∧ a ≠ ' ') : IsColumn L where
  head c hc := by
    obtain ⟨hne, hall⟩ := h c hc
    obtain ⟨a, rest, hcons⟩ := List.exists_cons_of_ne_nil hne
    exact ⟨a, rest, hcons, (hall a (by rw [hcons]; exact List.mem_cons_self)).2⟩
  ends c hc d hd x y heq := by
    have hspace : ∀ e ∈ L, ' ' ∉ e.toList := fun e he hmem => ((h e he).2 ' ' hmem).2 rfl
    exact String.toList_inj.mp (append_inj_of_stop (hspace c hc) (hspace d hd) heq).1
  shown c hc a ha := ((h c hc).2 a ha).1

/-- A cell is read after any number of spaces. -/
theorem IsColumn.read {L : Set String} (hL : IsColumn L) {c d : String} (hc : c ∈ L) (hd : d ∈ L)
    {j k : Nat} {x y : List Char}
    (h : List.replicate j ' ' ++ (c.toList ++ ' ' :: x) =
      List.replicate k ' ' ++ (d.toList ++ ' ' :: y)) : c = d ∧ x = y := by
  have hspaces : ∀ n, ∀ a ∈ List.replicate n ' ', (decide (a = ' ')) = true := fun n a ha =>
    decide_eq_true (List.eq_of_mem_replicate ha)
  have hhead : ∀ e ∈ L, ∀ z : List Char, ∀ a ∈ (e.toList ++ z).head?,
      (decide (a = ' ')) = false := by
    intro e he z a ha
    obtain ⟨b, rest, hcons, hb⟩ := hL.head e he
    rw [hcons] at ha
    obtain rfl := Option.some.inj ha
    exact decide_eq_false hb
  obtain ⟨-, hcells⟩ :=
    append_inj_of_class (hspaces j) (hspaces k) (hhead c hc _) (hhead d hd _) h
  obtain rfl := hL.ends c hc d hd x y hcells
  exact ⟨rfl, (List.cons.inj (List.append_cancel_left hcells)).2⟩

/-! ## Rows -/

/-- What follows the cell of a row and the space behind it. -/
def behindCell (widths : List Nat) (width : Nat) (cell : String) (rest : List String) : List Char :=
  List.replicate (width - displayWidth cell.toList) ' ' ++
    if rest = [] then [] else ' ' :: writeRow widths rest

theorem replicate_append_cons (n : Nat) (z : List Char) :
    List.replicate n ' ' ++ ' ' :: z = ' ' :: (List.replicate n ' ' ++ z) := by
  rw [← List.singleton_append, ← List.append_assoc, ← List.replicate_succ', List.replicate_succ,
    List.cons_append]

theorem writeRow_cons {widths : List Nat} {width : Nat} {cell : String} {rest : List String}
    (h : rest.length ≤ widths.length) :
    writeRow (width :: widths) (cell :: rest) =
      ' ' :: (cell.toList ++ ' ' :: behindCell widths width cell rest) := by
  cases rest with
  | nil => simp [writeRow, behindCell, paddedCell, replicate_append_cons]
  | cons next rest =>
    cases widths with
    | nil => cases h
    | cons w widths =>
      rw [writeRow, List.zipWith_cons_cons, List.zipWith_cons_cons, List.intercalate_cons_cons,
        ← List.zipWith_cons_cons, ← writeRow, paddedCell, behindCell, if_neg (List.cons_ne_nil _ _)]
      simp [replicate_append_cons]

/-- **A row tells its cells**, whatever the widths of the columns are. -/
theorem eq_of_writeRow_eq {columns : List (Set String)} (hcolumns : ∀ L ∈ columns, IsColumn L)
    {r r' : List String} (hr : List.Forall₂ (· ∈ ·) r columns)
    (hr' : List.Forall₂ (· ∈ ·) r' columns) {widths widths' : List Nat}
    (hwidths : r.length ≤ widths.length) (hwidths' : r'.length ≤ widths'.length) {j k : Nat}
    (h : List.replicate j ' ' ++ writeRow widths r = List.replicate k ' ' ++ writeRow widths' r') :
    r = r' := by
  -- Spaces in front of a row are those that are left of the cell before it.
  induction hr generalizing r' widths widths' j k with
  | nil => exact (List.forall₂_nil_right_iff.mp hr').symm
  | @cons c L rest columns hc hrest ih =>
    obtain ⟨d, rest', hd, hrest', rfl⟩ := List.forall₂_cons_right_iff.mp hr'
    obtain ⟨w, ws, rfl⟩ := List.exists_cons_of_length_pos (Nat.zero_lt_of_lt hwidths)
    obtain ⟨w', ws', rfl⟩ := List.exists_cons_of_length_pos (Nat.zero_lt_of_lt hwidths')
    have hle := Nat.le_of_succ_le_succ hwidths
    have hle' := Nat.le_of_succ_le_succ hwidths'
    rw [writeRow_cons hle, writeRow_cons hle', replicate_append_cons, replicate_append_cons] at h
    obtain ⟨rfl, hbehind⟩ := (hcolumns L List.mem_cons_self).read hc hd (List.cons.inj h).2
    refine congrArg (c :: ·) ?_
    have hlength : rest.length = rest'.length := hrest.length_eq.trans hrest'.length_eq.symm
    by_cases hnil : rest = []
    · subst hnil
      exact (List.eq_nil_of_length_eq_zero hlength.symm).symm
    · have hnil' : rest' ≠ [] := fun hrest'_nil =>
        hnil (List.eq_nil_of_length_eq_zero (by rw [hlength, hrest'_nil]; rfl))
      rw [behindCell, behindCell, if_neg hnil, if_neg hnil', replicate_append_cons,
        replicate_append_cons] at hbehind
      exact ih (fun L' hL' => hcolumns L' (List.mem_cons_of_mem L hL')) hrest' hle hle'
        (List.cons.inj hbehind).2

theorem writeRow_ne_nil {widths : List Nat} {r : List String} (hr : r ≠ [])
    (hwidths : r.length ≤ widths.length) : writeRow widths r ≠ [] := by
  obtain ⟨c, rest, rfl⟩ := List.exists_cons_of_ne_nil hr
  obtain ⟨w, ws, rfl⟩ := List.exists_cons_of_length_pos (Nat.zero_lt_of_lt hwidths)
  rw [writeRow_cons (Nat.le_of_succ_le_succ hwidths)]
  exact List.cons_ne_nil _ _

/-- In a row stand its cells and spaces. -/
theorem mem_writeRow {widths : List Nat} {r : List String} (hwidths : r.length ≤ widths.length)
    {a : Char} (h : a ∈ writeRow widths r) : a = ' ' ∨ ∃ c ∈ r, a ∈ c.toList := by
  induction r generalizing widths with
  | nil =>
    rw [writeRow, List.zipWith_nil_right] at h
    cases h
  | cons c rest ih =>
    obtain ⟨w, ws, rfl⟩ := List.exists_cons_of_length_pos (Nat.zero_lt_of_lt hwidths)
    have hle := Nat.le_of_succ_le_succ hwidths
    rw [writeRow_cons hle, behindCell] at h
    simp only [List.mem_cons, List.mem_append] at h
    rcases h with rfl | h | rfl | h | h
    · exact Or.inl rfl
    · exact Or.inr ⟨c, List.mem_cons_self, h⟩
    · exact Or.inl rfl
    · exact Or.inl (List.eq_of_mem_replicate h)
    · split at h
      · cases h
      · rcases List.mem_cons.mp h with rfl | h
        · exact Or.inl rfl
        · rcases ih hle h with ha | ⟨d, hd, ha⟩
          · exact Or.inl ha
          · exact Or.inr ⟨d, List.mem_cons_of_mem c hd, ha⟩

/-! ## Tables -/

theorem length_columnWidths {header : List String} {rows : List (List String)}
    (h : ∀ r ∈ rows, r.length = header.length) :
    (columnWidths header rows).length = header.length := by
  have hfold : ∀ (rows : List (List String)) (widths : List Nat),
      (∀ r ∈ rows, r.length = widths.length) →
      (rows.foldl (fun widths row => List.zipWith max widths (rowWidths row)) widths).length =
        widths.length := by
    intro rows
    induction rows with
    | nil => exact fun _ _ => rfl
    | cons r rows ih =>
      intro widths hrows
      have hr := hrows r List.mem_cons_self
      have hwidths : (List.zipWith max widths (rowWidths r)).length = widths.length := by
        rw [List.length_zipWith, rowWidths, List.length_map, hr, Nat.min_self]
      rw [List.foldl_cons, ih _ fun r' hr' => ?_, hwidths]
      rw [hrows r' (List.mem_cons_of_mem r hr'), hwidths]
  rw [columnWidths, hfold rows _ fun r hr => ?_, rowWidths, List.length_map]
  rw [h r hr, rowWidths, List.length_map]

theorem eq_of_map_eq {α β : Type} {f f' : α → β} {l l' : List α}
    (hinj : ∀ a ∈ l, ∀ a' ∈ l', f a = f' a' → a = a') (h : l.map f = l'.map f') : l = l' := by
  induction l generalizing l' with
  | nil => exact (List.map_eq_nil_iff.mp h.symm).symm
  | cons a l ih =>
    obtain ⟨a', l'', rfl, ha, hl⟩ := List.map_eq_cons_iff.mp h.symm
    rw [hinj a List.mem_cons_self a' List.mem_cons_self ha.symm,
      ih (fun b hb b' hb' => hinj b (List.mem_cons_of_mem a hb) b' (List.mem_cons_of_mem a' hb'))
        hl.symm]

/-- **A table tells its rows.** -/
theorem eq_of_tableLines_eq {columns : List (Set String)} (hcolumns : ∀ L ∈ columns, IsColumn L)
    {header : List String} (hheader : header.length = columns.length)
    {rows rows' : List (List String)} (hrows : ∀ r ∈ rows, List.Forall₂ (· ∈ ·) r columns)
    (hrows' : ∀ r ∈ rows', List.Forall₂ (· ∈ ·) r columns)
    (h : tableLines header rows = tableLines header rows') : rows = rows' := by
  have hlength : ∀ {t : List (List String)}, (∀ r ∈ t, List.Forall₂ (· ∈ ·) r columns) →
      ∀ r ∈ t, r.length = header.length := fun ht r hr => (ht r hr).length_eq.trans hheader.symm
  have hwidths : ∀ {t : List (List String)}, (∀ r ∈ t, List.Forall₂ (· ∈ ·) r columns) →
      ∀ r ∈ t, r.length ≤ (columnWidths header t).length := fun ht r hr => by
    rw [length_columnWidths (hlength ht), hlength ht r hr]
  refine eq_of_map_eq (fun r hr r' hr' heq => ?_) (List.cons.inj h).2
  exact eq_of_writeRow_eq hcolumns (hrows r hr) (hrows' r' hr') (hwidths hrows r hr)
    (hwidths hrows' r' hr') (j := 0) (k := 0) heq

theorem nil_notMem_tableLines {header : List String} (hheader : header ≠ [])
    {rows : List (List String)} (hrows : ∀ r ∈ rows, r.length = header.length) :
    [] ∉ tableLines header rows := by
  intro hmem
  obtain ⟨r, hr, hnil⟩ := List.mem_map.mp hmem
  have hlength : r.length = header.length := by
    rcases List.mem_cons.mp hr with rfl | hr
    · rfl
    · exact hrows r hr
  have hne : r ≠ [] := List.ne_nil_of_length_pos (by
    rw [hlength]
    exact List.length_pos_of_ne_nil hheader)
  exact writeRow_ne_nil hne (by rw [length_columnWidths hrows, hlength]) hnil

theorem isShown_of_mem_cells {columns : List (Set String)} (hcolumns : ∀ L ∈ columns, IsColumn L)
    {r : List String} (hr : List.Forall₂ (· ∈ ·) r columns) :
    ∀ c ∈ r, ∀ a ∈ c.toList, isShown a = true := by
  induction hr with
  | nil => exact fun c hc => absurd hc List.not_mem_nil
  | @cons d L rest columns hd _ ih =>
    intro c hc
    rcases List.mem_cons.mp hc with rfl | hc
    · exact (hcolumns L List.mem_cons_self).shown c hd
    · exact ih (fun L' hL' => hcolumns L' (List.mem_cons_of_mem L hL')) c hc

/-- In the lines of a table there are only characters that are drawn. -/
theorem isShown_of_mem_tableLines {columns : List (Set String)}
    (hcolumns : ∀ L ∈ columns, IsColumn L) {header : List String}
    (hheader : header.length = columns.length)
    (hshown : (header.all fun c => c.toList.all isShown) = true) {rows : List (List String)}
    (hrows : ∀ r ∈ rows, List.Forall₂ (· ∈ ·) r columns) {line : List Char}
    (hline : line ∈ tableLines header rows) {a : Char} (ha : a ∈ line) : isShown a = true := by
  have hlength : ∀ r ∈ rows, r.length = header.length := fun r hr =>
    (hrows r hr).length_eq.trans hheader.symm
  obtain ⟨r, hr, rfl⟩ := List.mem_map.mp hline
  have hcells : r.length = header.length ∧ ∀ c ∈ r, ∀ b ∈ c.toList, isShown b = true := by
    rcases List.mem_cons.mp hr with rfl | hr
    · exact ⟨rfl, fun c hc => List.all_eq_true.mp (List.all_eq_true.mp hshown c hc)⟩
    · exact ⟨hlength r hr, isShown_of_mem_cells hcolumns (hrows r hr)⟩
  have hwidths : r.length ≤ (columnWidths header rows).length := by
    rw [length_columnWidths hlength, hcells.1]
  rcases mem_writeRow hwidths ha with rfl | ⟨c, hc, ha⟩
  · decide
  · exact hcells.2 c hc a ha

/-! ## Lines -/

/-- A text tells its lines. -/
theorem eq_of_flatMap_lines_eq {l l' : List (List Char)} (hl : ∀ line ∈ l, '\n' ∉ line)
    (hl' : ∀ line ∈ l', '\n' ∉ line)
    (h : (l.flatMap fun line => line ++ ['\n']) = l'.flatMap fun line => line ++ ['\n']) :
    l = l' := by
  induction l generalizing l' with
  | nil =>
    cases l' with
    | nil => rfl
    | cons line' l' => simp at h
  | cons line l ih =>
    cases l' with
    | nil => simp at h
    | cons line' l' =>
      simp only [List.flatMap_cons, List.append_assoc, List.singleton_append] at h
      obtain ⟨rfl, hrest⟩ :=
        append_inj_of_stop (hl line List.mem_cons_self) (hl' line' List.mem_cons_self) h
      rw [ih (fun m hm => hl m (List.mem_cons_of_mem line hm))
        (fun m hm => hl' m (List.mem_cons_of_mem line hm)) hrest]

theorem count_flatMap_lines {l : List (List Char)} (hl : ∀ line ∈ l, '\n' ∉ line) :
    (l.flatMap fun line => line ++ ['\n']).count '\n' = l.length := by
  induction l with
  | nil => rfl
  | cons line l ih =>
    rw [List.flatMap_cons, List.count_append, List.count_append,
      List.count_eq_zero.mpr (hl line List.mem_cons_self),
      ih fun m hm => hl m (List.mem_cons_of_mem line hm), List.length_cons]
    simp [Nat.add_comm]

end Admission.Text
