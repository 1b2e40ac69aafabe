import Admission.Proofs.SpanText
import Admission.Proofs.Table
import Admission.Status

/-!
# A status is told by its text

The text of a status is for people, and nothing reads it. Still it can be relied on: the strings in
it come from outside, and none of them can make a reader see what is not there.

> the cells of both tables tell where they end, and nothing but drawn characters stands in a line.

So the rows are told by their lines, the two tables by the first empty line behind the first one,
and the whole status by its text (`Status.text_tells_the_status`).
-/

set_option autoImplicit false

namespace Admission

open Text

/-! ## The columns -/

namespace Text

theorem isColumn_quote : IsColumn (Set.range quote) where
  head := by
    rintro c ⟨s, rfl⟩
    exact ⟨'"', quoteBody s.toList ++ ['"'], by rw [quote, String.toList_ofList], by decide⟩
  ends := by
    rintro c ⟨s, rfl⟩ d ⟨t, rfl⟩ x y h
    rw [(quote_append_inj h).1]
  shown := by
    rintro c ⟨s, rfl⟩ a ha
    exact isShown_of_mem_quote ha

theorem quote_injective : Function.Injective quote := fun s t h =>
  (quote_append_inj (x := []) (y := []) (by rw [h])).1

theorem toList_toString (n : Nat) : (toString n).toList = Nat.toDigits 10 n := by
  rw [Nat.toString_eq_ofList_toDigits, String.toList_ofList]

theorem toString_injective : Function.Injective (toString : Nat → String) := fun m n h =>
  Span.toDigits_injective (by rw [← toList_toString, h, toList_toString])

theorem isColumn_toString : IsColumn (Set.range (toString : Nat → String)) := by
  refine isColumn_of_no_space ?_
  rintro c ⟨n, rfl⟩
  rw [toList_toString]
  refine ⟨Nat.toDigits_ne_nil, fun a ha => ⟨?_, ?_⟩⟩
  · exact (isShown_of_mem_toDigits (by decide) (by decide) ha).1
  · rintro rfl
    exact absurd (Nat.isDigit_of_mem_toDigits (by decide) (by decide) ha) (by decide)

end Text

namespace Span

theorem toList_text (s : Span) : s.text.toList = s.chars := by rw [text, String.toList_ofList]

theorem text_injective : Function.Injective text := fun s t h =>
  chars_injective (by rw [← toList_text, h, toList_text])

/-- The age of a holder, as a cell. -/
def agoText (s : Span) : String := s.text ++ " ago"

theorem toList_agoText (s : Span) : s.agoText.toList = s.chars ++ ' ' :: ['a', 'g', 'o'] := by
  rw [agoText, String.toList_append, toList_text]
  rfl

theorem space_notMem_chars (s : Span) : ' ' ∉ s.chars := fun h => (isShown_of_mem_chars h).2 rfl

theorem agoText_injective : Function.Injective agoText := fun s t h => by
  have hlist := congrArg String.toList h
  rw [toList_agoText, toList_agoText] at hlist
  exact chars_injective (List.append_cancel_right hlist)

theorem isColumn_agoText : Text.IsColumn (Set.range agoText) where
  head := by
    rintro c ⟨s, rfl⟩
    obtain ⟨d, rest, hs, hd⟩ := s.exists_digit_cons
    refine ⟨d, rest ++ ' ' :: ['a', 'g', 'o'], by rw [toList_agoText, hs]; rfl, ?_⟩
    rintro rfl
    cases hd
  ends := by
    rintro c ⟨s, rfl⟩ d ⟨t, rfl⟩ x y h
    rw [toList_agoText, toList_agoText, List.append_assoc, List.append_assoc] at h
    have hchars := (append_inj_of_stop s.space_notMem_chars t.space_notMem_chars h).1
    rw [chars_injective hchars]
  shown := by
    rintro c ⟨s, rfl⟩ a ha
    rw [toList_agoText] at ha
    rcases List.mem_append.mp ha with ha | ha
    · exact (isShown_of_mem_chars ha).1
    · have hago : (' ' :: ['a', 'g', 'o']).all isShown = true := by decide
      exact List.all_eq_true.mp hago a ha

/-- A text that begins with no digit is the text of no span. -/
theorem text_ne {s : Span} {c : String} (h : c.toList.head?.any Char.isDigit = false) :
    s.text ≠ c := by
  rintro rfl
  obtain ⟨d, rest, hs, hd⟩ := s.exists_digit_cons
  rw [toList_text, hs, List.head?_cons, Option.any_some, hd] at h
  cases h

end Span

namespace Holder

/-- What is said of the end of a linger in one word: that there is none, or how far it is. -/
def words : Set String := {c | c = "never" ∨ ∃ s : Span, c = s.text}

theorem isColumn_words : IsColumn words := by
  refine isColumn_of_no_space ?_
  rintro c (rfl | ⟨s, rfl⟩)
  · exact ⟨by decide, shown_of_all (by decide)⟩
  · rw [Span.toList_text]
    obtain ⟨d, rest, hs, -⟩ := s.exists_digit_cons
    exact ⟨by rw [hs]; exact List.cons_ne_nil d rest, fun a ha => Span.isShown_of_mem_chars ha⟩

theorem expiryText_mem (h : Holder) : h.expiryText = "not done" ∨ h.expiryText ∈ words := by
  unfold expiryText
  split
  · exact Or.inl rfl
  · split_ifs
    · exact Or.inr (Or.inl rfl)
    · exact Or.inr (Or.inr ⟨_, rfl⟩)

/-- The two words are not read as one. -/
theorem notDone_append_ne {c : String} (hc : c ∈ words) (x y : List Char) :
    "not done".toList ++ ' ' :: x ≠ c.toList ++ ' ' :: y := by
  intro heq
  have hspace : ' ' ∉ c.toList := by
    rcases hc with rfl | ⟨s, rfl⟩
    · decide
    · rw [Span.toList_text]
      exact s.space_notMem_chars
  have hnot : ['n', 'o', 't'] = c.toList :=
    (append_inj_of_stop (x := "done".toList ++ ' ' :: x) (by decide) hspace heq).1
  rcases hc with rfl | ⟨s, rfl⟩
  · exact absurd hnot (by decide)
  · have hne : s.text ≠ "not" := Span.text_ne (by decide)
    exact hne (String.toList_inj.mp hnot.symm)

theorem isColumn_expiryText : IsColumn (Set.range expiryText) where
  head := by
    rintro c ⟨h, rfl⟩
    rcases h.expiryText_mem with hc | hc
    · rw [hc]
      exact ⟨'n', "ot done".toList, by decide, by decide⟩
    · exact isColumn_words.head _ hc
  ends := by
    rintro c ⟨h, rfl⟩ d ⟨h', rfl⟩ x y heq
    rcases h.expiryText_mem with hc | hc <;> rcases h'.expiryText_mem with hd | hd
    · rw [hc, hd]
    · rw [hc] at heq
      exact absurd heq (notDone_append_ne hd x y)
    · rw [hd] at heq
      exact absurd heq.symm (notDone_append_ne hc y x)
    · exact isColumn_words.ends _ hc _ hd x y heq
  shown := by
    rintro c ⟨h, rfl⟩ a ha
    rcases h.expiryText_mem with hc | hc
    · have hnotDone : "not done".toList.all isShown = true := by decide
      exact List.all_eq_true.mp hnotDone a (hc ▸ ha)
    · exact isColumn_words.shown _ hc a ha

/-- **What a cell says of the end of a linger is what the holder has**: that there is no release,
that the slot is never freed, or the time that is left. -/
theorem expiryText_eq_iff {h h' : Holder} :
    h.expiryText = h'.expiryText ↔ h.expiresIn = h'.expiresIn := by
  have hnotDone : ∀ s : Span, s.text ≠ "not done" := fun s => Span.text_ne (by decide)
  have hnever : ∀ s : Span, s.text ≠ "never" := fun s => Span.text_ne (by decide)
  unfold expiryText
  cases h.expiresIn with
  | none =>
    cases h'.expiresIn with
    | none => exact iff_of_true rfl rfl
    | some t =>
      refine iff_of_false ?_ (by simp)
      dsimp only
      split_ifs
      · decide
      · exact (hnotDone t).symm
  | some s =>
    cases h'.expiresIn with
    | none =>
      refine iff_of_false ?_ (by simp)
      dsimp only
      split_ifs
      · decide
      · exact hnotDone s
    | some t =>
      dsimp only
      split_ifs with hs ht ht
      · exact iff_of_true rfl (by rw [hs, ht])
      · exact iff_of_false (hnever t).symm (by simp [hs, Ne.symm ht])
      · exact iff_of_false (hnever s) (by simp [ht, hs])
      · rw [Span.text_injective.eq_iff, Option.some.injEq]

/-! ## The rows -/

/-- The columns of the table of holders. -/
def columns : List (Set String) :=
  [Set.range quote, Set.range quote, Set.range quote, Set.range quote, Set.range expiryText,
    Set.range Span.agoText]

theorem isColumn_columns : ∀ L ∈ columns, IsColumn L := by
  intro L hL
  simp only [columns, List.mem_cons, List.not_mem_nil, or_false] at hL
  rcases hL with rfl | rfl | rfl | rfl | rfl | rfl
  · exact isColumn_quote
  · exact isColumn_quote
  · exact isColumn_quote
  · exact isColumn_quote
  · exact isColumn_expiryText
  · exact Span.isColumn_agoText

theorem cells_mem_columns (h : Holder) : List.Forall₂ (· ∈ ·) h.cells columns :=
  .cons ⟨_, rfl⟩ (.cons ⟨_, rfl⟩ (.cons ⟨_, rfl⟩ (.cons ⟨_, rfl⟩ (.cons ⟨h, rfl⟩
    (.cons ⟨h.age, rfl⟩ .nil)))))

theorem cells_injective : Function.Injective cells := by
  intro h h' heq
  simp only [cells, List.cons.injEq, and_true] at heq
  obtain ⟨hprotocol, hlocal, hremote, hreason, hexpires, hage⟩ := heq
  have hexpires := expiryText_eq_iff.mp hexpires
  have hage : h.age = h'.age := Span.agoText_injective hage
  obtain ⟨⟨_, _, _⟩, _, _, _⟩ := h
  obtain ⟨⟨_, _, _⟩, _, _, _⟩ := h'
  simp only [quote_injective.eq_iff] at hprotocol hlocal hremote hreason
  simp_all

end Holder

namespace Status

/-- The columns of the table of reasons. -/
def reasonColumns : List (Set String) := [Set.range (toString : Nat → String), Set.range quote]

theorem isColumn_reasonColumns : ∀ L ∈ reasonColumns, IsColumn L := by
  intro L hL
  simp only [reasonColumns, List.mem_cons, List.not_mem_nil, or_false] at hL
  rcases hL with rfl | rfl
  · exact isColumn_toString
  · exact isColumn_quote

theorem reasonCells_mem_columns (row : String × Nat) :
    List.Forall₂ (· ∈ ·) (reasonCells row) reasonColumns :=
  .cons ⟨row.2, rfl⟩ (.cons ⟨row.1, rfl⟩ .nil)

theorem reasonCells_injective : Function.Injective reasonCells := by
  rintro ⟨reason, n⟩ ⟨reason', n'⟩ heq
  simp only [reasonCells, List.cons.injEq, and_true] at heq
  rw [toString_injective heq.1, quote_injective heq.2]

/-! ## The lines -/

theorem reasonRows_mem_columns (st : Status) :
    ∀ r ∈ st.waitingByReason.map reasonCells, List.Forall₂ (· ∈ ·) r reasonColumns := by
  intro r hr
  obtain ⟨row, -, rfl⟩ := List.mem_map.mp hr
  exact reasonCells_mem_columns row

theorem holderRows_mem_columns (st : Status) :
    ∀ r ∈ st.holders.map Holder.cells, List.Forall₂ (· ∈ ·) r Holder.columns := by
  intro r hr
  obtain ⟨h, -, rfl⟩ := List.mem_map.mp hr
  exact h.cells_mem_columns

theorem lines_eq (st : Status) :
    st.lines = ("num entries: " ++ toString st.numEntries).toList :: [] ::
      (toString st.numWaiting ++ " waiters:").toList ::
      (tableLines reasonHeader (st.waitingByReason.map reasonCells) ++ [] ::
        "handles:".toList :: tableLines Holder.header (st.holders.map Holder.cells)) := by
  simp [lines]

theorem length_lines (st : Status) :
    st.lines.length = 7 + st.waitingByReason.length + st.holders.length := by
  simp only [lines_eq, tableLines, List.length_cons, List.length_append, List.length_map]
  omega

/-- In the lines there are only characters that are drawn. -/
theorem isShown_of_mem_lines {st : Status} {line : List Char} (hline : line ∈ st.lines) {a : Char}
    (ha : a ∈ line) : isShown a = true := by
  have hnumber : ∀ n : Nat, ∀ b ∈ (toString n).toList, isShown b = true := fun n =>
    isColumn_toString.shown _ ⟨n, rfl⟩
  have hentries : ∀ b ∈ "num entries: ".toList, isShown b = true :=
    List.all_eq_true.mp (by decide)
  have hwaiters : ∀ b ∈ " waiters:".toList, isShown b = true :=
    List.all_eq_true.mp (by decide)
  have hhandles : ∀ b ∈ "handles:".toList, isShown b = true :=
    List.all_eq_true.mp (by decide)
  simp only [lines_eq, List.mem_cons, List.mem_append] at hline
  rcases hline with rfl | rfl | rfl | htable | rfl | rfl | htable
  · rw [String.toList_append] at ha
    exact (List.mem_append.mp ha).elim (hentries a) (hnumber _ a)
  · cases ha
  · rw [String.toList_append] at ha
    exact (List.mem_append.mp ha).elim (hnumber _ a) (hwaiters a)
  · exact isShown_of_mem_tableLines isColumn_reasonColumns rfl (by decide)
      st.reasonRows_mem_columns htable ha
  · cases ha
  · exact hhandles a ha
  · exact isShown_of_mem_tableLines Holder.isColumn_columns rfl (by decide)
      st.holderRows_mem_columns htable ha

theorem break_notMem_lines (st : Status) : ∀ line ∈ st.lines, '\n' ∉ line := fun _ hline hbreak =>
  absurd (isShown_of_mem_lines hline hbreak) (by decide)

/-- **The lines tell the status.** -/
theorem lines_injective : Function.Injective lines := by
  intro st st' h
  rw [lines_eq, lines_eq] at h
  simp only [List.cons.injEq, true_and] at h
  obtain ⟨hentries, hwaiting, htables⟩ := h
  have hempty : ∀ t : Status, [] ∉ tableLines reasonHeader (t.waitingByReason.map reasonCells) :=
    fun t => nil_notMem_tableLines (by decide) fun r hr => (t.reasonRows_mem_columns r hr).length_eq
  obtain ⟨hreasons, hholders⟩ := append_inj_of_stop (hempty st) (hempty st') htables
  have hreasonRows := eq_of_tableLines_eq isColumn_reasonColumns rfl st.reasonRows_mem_columns
    st'.reasonRows_mem_columns hreasons
  have hholderRows := eq_of_tableLines_eq Holder.isColumn_columns rfl st.holderRows_mem_columns
    st'.holderRows_mem_columns (List.cons.inj hholders).2
  rw [String.toList_append, String.toList_append] at hentries hwaiting
  have hnumEntries := toString_injective (String.toList_inj.mp (List.append_cancel_left hentries))
  have hnumWaiting := toString_injective (String.toList_inj.mp (List.append_cancel_right hwaiting))
  cases st
  cases st'
  simp only [Status.mk.injEq]
  exact ⟨hnumEntries, hnumWaiting, reasonCells_injective.list_map hreasonRows,
    Holder.cells_injective.list_map hholderRows⟩

/-- **A status is told by its text.** Two statuses with one text are one status, whatever stands in
their strings. The text has seven lines and one for each reason and each holder, neither more nor
less, and in a line there are only characters that are drawn. And what a row says of the end of a
linger is just what the holder has. -/
theorem text_tells_the_status :
    Function.Injective text ∧
      (∀ st : Status, st.text = String.ofList (st.lines.flatMap fun line => line ++ ['\n']) ∧
        st.lines.length = 7 + st.waitingByReason.length + st.holders.length ∧
        (∀ line ∈ st.lines, ∀ a ∈ line, isShown a = true) ∧
        st.text.toList.count '\n' = 7 + st.waitingByReason.length + st.holders.length) ∧
      ∀ h h' : Holder, h.expiryText = h'.expiryText ↔ h.expiresIn = h'.expiresIn := by
  refine ⟨fun st st' h => ?_, fun st => ⟨rfl, st.length_lines, ?_, ?_⟩, fun h h' => ?_⟩
  · have hlists := congrArg String.toList h
    simp only [text, String.toList_ofList] at hlists
    exact lines_injective
      (eq_of_flatMap_lines_eq st.break_notMem_lines st'.break_notMem_lines hlists)
  · exact fun line hline a ha => isShown_of_mem_lines hline ha
  · rw [text, String.toList_ofList, count_flatMap_lines st.break_notMem_lines, st.length_lines]
  · exact Holder.expiryText_eq_iff

end Status

end Admission
